import Telegraph.Proofs.AttemptLedger
import Telegraph.Proofs.TicksSucceed
import Telegraph.ReadModels

namespace Telegraph
open Lib Program SqliteStore

namespace Ledger
variable {δ : Type} {rows : List (Attempt δ)} {done : Prop}

theorem Kept.inOrder (h : Kept rows done) : rows.insertionSort Attempt.InOrder = rows := by
  refine List.Pairwise.insertionSort_eq (List.Pairwise.of_map (S := (· ≤ ·)) (·.attemptNumber) ?_ ?_)
  · exact fun _ _ h => h
  · rw [h.numbered]
    exact List.pairwise_le_range'

end Ledger

namespace Service
variable {c c' : Process} {trace later events : List Event} {route : Recording → RoutingDecision} {x : String}

/-- What `c` becomes. -/
def Later (route : Recording → RoutingDecision) (c c' : Process) : Prop :=
  ∃ trace, Runs route (fun _ _ => True) c trace c'

theorem Runs.trans {c₀ : Process} (h : Runs route (fun _ _ => True) c₀ trace c)
    (k : Runs route (fun _ _ => True) c later c') : Runs route (fun _ _ => True) c₀ (trace ++ later) c' := by
  induction k with
  | start => rwa [List.append_nil]
  | step now input _ _ hs ih =>
    rw [← List.append_assoc]
    exact .step now input ih trivial hs

/-- A worker's step stops the process or puts the worker where it goes on. -/
theorem settle_parts {κ : Type} {place : Process → κ → Process} {r : Store × Except StorageError (κ × List Event)}
    (h : c.settle place r = (c', events)) :
    c' = stopped { c with store := r.1 } ∨
      ∃ next, r.2 = .ok (next, events) ∧ c' = place { c with store := r.1 } next := by
  obtain ⟨s, e | ⟨next, _⟩⟩ := r <;> cases h
  · exact .inl rfl
  · exact .inr ⟨next, rfl, rfl⟩

/-- A request changes the database only. -/
theorem answer_parts {α : Type} {shows : α → List Event} {r : Store × Except StorageError α}
    (h : c.answer shows r = (c', events)) : c' = { c with store := r.1 } := by
  obtain ⟨s, e | a⟩ := r <;> cases h <;> rfl

theorem settle_store {κ : Type} {place : Process → κ → Process} {r : Store × Except StorageError (κ × List Event)}
    (h : c.settle place r = (c', events)) (hplace : ∀ c k, (place c k).store = c.store) : c'.store = r.1 := by
  rcases settle_parts h with rfl | ⟨next, -, rfl⟩
  · rfl
  · exact hplace _ _

theorem answer_store {α : Type} {shows : α → List Event} {r : Store × Except StorageError α}
    (h : c.answer shows r = (c', events)) : c'.store = r.1 := by
  rw [answer_parts h]

/-- A step of a client, an Operator or the startup is one operation. -/
theorem step_operation {now : Int} {input : Input Unit} {op : Operation}
    (hs : c.step route now input = some (c', events)) (ho : input.operation now = some op) :
    c'.store = op.apply c.store := by
  obtain ⟨-, he⟩ := step_some hs
  cases input with
  | upload new =>
    cases ho
    rw [@answer_store { c with clock := now } _ _ _ _ _ he]
    refine (run_bind_reads fun _ => ?_).symm
    exact reads_query.bind fun _ => reads_require.bind fun _ => trivial
  | manualRoute input =>
    cases ho
    exact @answer_store { c with clock := now } _ _ _ _ _ he
  | manualRetryTranscription input =>
    cases ho
    exact @answer_store { c with clock := now } _ _ _ _ _ he
  | manualRetryDelivery input =>
    cases ho
    exact @answer_store { c with clock := now } _ _ _ _ _ he
  | recover =>
    cases ho
    cases he
    rfl
  | _ => cases ho

/-- In any other step the database sees whole operations of the workers. -/
theorem step_by_worker {now : Int} {input : Input Unit} (hs : c.step route now input = some (c', events))
    (ho : input.operation now = none) :
    ∃ ops : List Operation, (∀ op ∈ ops, op.ByWorker) ∧ c'.store = ops.foldl Operation.apply c.store := by
  obtain ⟨-, he⟩ := step_some hs
  cases input with
  | transcribe i id answer =>
    rw [@settle_store { c with clock := now } _ _ _ (onTranscriber · i) _ he fun _ _ => rfl]
    exact (Transcription.action_operates _ _).run c.store
  | route i id =>
    rw [@settle_store { c with clock := now } _ _ _ (onRouter · i) _ he fun _ _ => rfl]
    exact (Routing.action_operates _ _ _).run c.store
  | deliver i id answer =>
    rw [@settle_store { c with clock := now } _ _ _ (onDeliverer · i) _ he fun _ _ => rfl]
    exact (Delivering.action_operates _ _).run c.store
  | refuse | crash =>
    cases he
    exact ⟨[], by simp, rfl⟩
  | _ => cases ho

theorem step_operates {now : Int} {input : Input Unit} (hs : c.step route now input = some (c', events)) :
    ∃ ops : List Operation, c'.store = ops.foldl Operation.apply c.store := by
  cases ho : input.operation now with
  | some op => exact ⟨[op], step_operation hs ho⟩
  | none =>
    obtain ⟨ops, -, h⟩ := step_by_worker hs ho
    exact ⟨ops, h⟩

theorem Later.grows (h : Later route c c') : c.store.Grows (fun _ => True) c'.store := by
  obtain ⟨later, h⟩ := h
  induction h with
  | start => exact Store.grows_refl _
  | step now input _ _ hs ih =>
    obtain ⟨ops, ho⟩ := step_operates hs
    rw [ho]
    exact ih.trans (Operation.foldl_grows ops _)

theorem Later.run (h : Later route c c') (hr : Run route trace c) : ∃ trace', Run route trace' c' := by
  obtain ⟨later, h⟩ := h
  exact ⟨_, Runs.trans hr h⟩

theorem run_lifecycle (hr : Run route trace c) : c.store.view.Lifecycle := by
  obtain ⟨-, b, d, h, -⟩ := hr.undisturbed
  exact h.refines.lifecycle

/-- Both kinds of attempt make ledgers. -/
theorem run_kept (hr : Run route trace c) :
    (∀ x, Ledger.Kept (c.store.transcriptionAttempts.attemptsOf x) ((c.store.transcript x).isSome = true)) ∧
      ∀ x, Ledger.Kept (c.store.deliveryAttempts.attemptsOf x)
        (∃ d, c.store.delivery x = some d ∧ d.status = .delivered) := by
  obtain ⟨-, b, d, h, -⟩ := hr.undisturbed
  refine ⟨fun x => ?_, fun x => ?_⟩
  · have hk := (h.transcription.sound x).kept (h.transcription.wellFormed x)
    rw [← h.refines.transcriptions, Store.transcribed_iff h.refines.lifecycle] at hk
    exact hk
  · have hk := (h.delivery.sound x).kept (h.delivery.wellFormed x)
    rw [← h.refines.deliveries, Store.delivered_iff] at hk
    exact hk

/-- A successful attempt is finished, and stays. -/
theorem later_succeeded (hr : Run route trace c) (hl : Later route c c') :
    (∀ x, ∀ a ∈ c.store.transcriptionAttempts.attemptsOf x, a.status = .succeeded →
      a ∈ c'.store.transcriptionAttempts.attemptsOf x) ∧
    ∀ x, ∀ a ∈ c.store.deliveryAttempts.attemptsOf x, a.status = .succeeded →
      a ∈ c'.store.deliveryAttempts.attemptsOf x := by
  obtain ⟨later, hruns⟩ := hl
  obtain ⟨-, b, d, h, hb, hd⟩ := hr.undisturbed
  obtain ⟨b', d', h', hkb, hkd⟩ := h.runs (h.alone_runs hb hd hruns).1
  have finished : ∀ {δ : Type} {l : Ledger δ}, l.Sound → ∀ a ∈ l.rows, a.status = .succeeded → a.finishedAt ≠ none := by
    intro δ l hs a ha hst hn
    cases hst.symm.trans ((hs.2 a ha).mp hn)
  refine ⟨fun x a ha hst => ?_, fun x a ha hst => ?_⟩
  · have hs := h.transcription.sound x
    rw [← h.refines.transcriptions] at hs
    obtain ⟨n, hn⟩ := List.mem_iff_getElem?.mp ha
    have hkeep := hkb x n a (by rw [← h.refines.transcriptions]; exact hn) (finished hs a ha hst)
    rw [← h'.refines.transcriptions] at hkeep
    exact List.mem_of_getElem? hkeep
  · have hs := h.delivery.sound x
    rw [← h.refines.deliveries] at hs
    obtain ⟨n, hn⟩ := List.mem_iff_getElem?.mp ha
    have hkeep := hkd x n a (by rw [← h.refines.deliveries]; exact hn) (finished hs a ha hst)
    rw [← h'.refines.deliveries] at hkeep
    exact List.mem_of_getElem? hkeep

theorem later_delivery (hl : Later route c c') {d : DeliveryRow} (hd : c.store.deliveryFor x = some d) :
    ∃ e, c'.store.deliveryFor x = some e ∧ e.id = d.id ∧ e.sinkName = d.sinkName := by
  obtain ⟨hmem, hid⟩ := Table.find_mem hd
  obtain ⟨e, he, ht⟩ := List.mem_map.mp (hl.grows.mem_targets (List.mem_map_of_mem hmem))
  have hx : e.recordingId = x := (congrArg Target.recordingId ht).trans (beq_iff_eq.mp hid)
  refine ⟨e, ?_, congrArg Target.id ht, congrArg Target.sinkName ht⟩
  rw [← hx]
  exact Store.deliveryFor_of_mem he

end Service

/-- What a detail page may be trusted with, though its parts are of different moments. -/
structure RecordingDetail.Coherent (d : RecordingDetail) : Prop where
  transcript : ∀ t, d.transcript = some t → t.recordingId = d.recording.id
  delivery : ∀ e, d.delivery = some e → e.recordingId = d.recording.id
  transcriptionAttempts : ∀ a ∈ d.transcriptionAttempts, a.parentId = d.recording.id
  deliveryAttempts : ∀ a ∈ d.deliveryAttempts, ∃ e, d.delivery = some e ∧ a.parentId = e.id
  auditEvents : ∀ e ∈ d.auditEvents, e.recordingId = some d.recording.id
  transcribed : d.recording.status ∉ [.received, .transcribing, .transcriptionFailed] → d.transcript ≠ none
  selected : d.recording.status ∈ [.delivering, .delivered, .deliveryFailed] →
    ∃ e, d.delivery = some e ∧ d.recording.selectedSinkName = some e.sinkName
  numbered : d.transcriptionAttempts.map (·.attemptNumber) = List.range' 1 d.transcriptionAttempts.length ∧
    d.deliveryAttempts.map (·.attemptNumber) = List.range' 1 d.deliveryAttempts.length
  oneOpen : (d.transcriptionAttempts.filter (·.finishedAt.isNone)).length ≤ 1 ∧
    (d.deliveryAttempts.filter (·.finishedAt.isNone)).length ≤ 1
  succeeded : d.transcript ≠ none → ∃ a ∈ d.transcriptionAttempts, a.status = .succeeded
  delivered : d.recording.status = .delivered → ∃ a ∈ d.deliveryAttempts, a.status = .succeeded

namespace Stage
variable {r : RecordingRow} {t : Option Transcript} {d : Option DeliveryRow}

theorem hasTranscript {s : Store} {x : String} (h : Stage (some r) (s.transcript x) d)
    (hs : r.status ∉ [.received, .transcribing, .transcriptionFailed]) : s.HasTranscript x := by
  change StageOf r.status r.selectedSinkName _ _ at h
  cases hr : r.status <;> rw [hr] at h hs
  case received | transcribing | transcriptionFailed => simp at hs
  all_goals exact Option.isSome_iff_exists.mp h.1

theorem hasDelivery (h : Stage (some r) t d) (hs : r.status ∈ [.delivering, .delivered, .deliveryFailed]) :
    ∃ e, d = some e ∧ r.selectedSinkName = some e.sinkName := by
  change StageOf r.status r.selectedSinkName _ _ at h
  cases hr : r.status <;> rw [hr] at h hs
  case delivering | delivered | deliveryFailed =>
    obtain ⟨-, e, he, -, hk⟩ := h
    exact ⟨e, he, hk⟩
  all_goals simp at hs

end Stage

namespace Service
variable {c c' : Process} {trace : List Event} {route : Recording → RoutingDecision} {x : String}

theorem Later.refl : Later route c c := ⟨[], .start⟩

theorem Later.trans {c'' : Process} (h : Later route c c') (k : Later route c' c'') : Later route c c'' := by
  obtain ⟨t, h⟩ := h
  obtain ⟨u, k⟩ := k
  exact ⟨_, Runs.trans h k⟩

/-- The attempts of the Delivery that was read, if there was one. -/
theorem sees_deliveryAttempts {α : Type} {o : Option Delivery} {f : List DeliveryAttempt → Query α}
    {r : Except StorageError α}
    (h : Sees (·.store) (Later route) c ((deliveryAttemptsFor o).bind f) c' r) :
    ∃ c₁ rows, Later route c c₁ ∧ Sees (·.store) (Later route) c₁ (f rows) c' r ∧
      ((o = none ∧ rows = []) ∨ ∃ d, o = some d ∧
        rows = (c₁.store.deliveryAttempts.attemptsOf d.id).insertionSort Attempt.InOrder) := by
  cases o with
  | none => exact ⟨c, [], .refl, h, .inl ⟨rfl, rfl⟩⟩
  | some d =>
    obtain ⟨c₁, hl, h⟩ := Sees.of_query h
    exact ⟨c₁, _, hl, h, .inr ⟨d, rfl, rfl⟩⟩

/-- However many steps of the service commit between its six reads, a detail page is
coherent: its parts are of one Recording, all that the shown status promises is there,
and the attempts are numbered, with at most one open and the successful ones shown. -/
theorem detail_coherent (hr : Run route trace c) {d : RecordingDetail}
    (h : Sees (·.store) (Later route) c (getRecordingDetail x) c' (.ok (some d))) :
    d.recording.id = x ∧ d.Coherent := by
  unfold getRecordingDetail at h
  obtain ⟨c₁, hl₁, h⟩ := Sees.of_query h
  cases hrec : c₁.store.recording x with
  | none =>
    rw [hrec] at h
    cases (Sees.of_done h).2
  | some r =>
    rw [hrec] at h
    obtain ⟨c₂, hl₂, h⟩ := Sees.of_query h
    obtain ⟨c₃, hl₃, h⟩ := Sees.of_query h
    obtain ⟨c₄, hl₄, h⟩ := Sees.of_query h
    obtain ⟨c₅, rows, hl₅, h, hrows⟩ := sees_deliveryAttempts h
    obtain ⟨c₆, hl₆, h⟩ := Sees.of_query h
    obtain ⟨-, hd⟩ := Sees.of_done h
    cases hd
    obtain ⟨t₁, hr₁⟩ := hl₁.run hr
    obtain ⟨t₂, hr₂⟩ := hl₂.run hr₁
    obtain ⟨t₃, hr₃⟩ := hl₃.run hr₂
    obtain ⟨t₄, hr₄⟩ := hl₄.run hr₃
    obtain ⟨t₅, hr₅⟩ := hl₅.run hr₄
    have hid : r.id = x := Store.recording_id hrec
    have hstage : Stage (some r) (c₁.store.transcript x) (c₁.store.deliveryFor x) :=
      hrec ▸ run_lifecycle hr₁ x
    have hkept := (run_kept hr₄).1 x
    have hrowsKept : ∃ done, Ledger.Kept rows done := by
      rcases hrows with ⟨-, rfl⟩ | ⟨d, -, rfl⟩
      · exact ⟨False, rfl, by simp, by simp, by simp, by simp, by simp⟩
      · have hk := (run_kept hr₅).2 d.id
        rw [hk.inOrder]
        exact ⟨_, hk⟩
    obtain ⟨done, hrowsKept⟩ := hrowsKept
    refine ⟨hid, ?_⟩
    rw [hkept.inOrder]
    constructor
    · exact fun t ht => (beq_iff_eq.mp (Table.find_mem ht).2).trans hid.symm
    · intro e he
      obtain ⟨d, hd, rfl⟩ := Option.map_eq_some_iff.mp he
      exact (beq_iff_eq.mp (Table.find_mem hd).2).trans hid.symm
    · exact fun a ha => (Store.mem_attemptsOf.mp ha).2.trans hid.symm
    · intro a ha
      rcases hrows with ⟨-, rfl⟩ | ⟨d, hd, rfl⟩
      · cases ha
      · exact ⟨d, hd, (Store.mem_attemptsOf.mp ((List.perm_insertionSort _ _).mem_iff.mp ha)).2⟩
    · intro e he
      have hm := (List.mem_filter.mp ((List.perm_insertionSort _ _).mem_iff.mp he)).2
      exact (beq_iff_eq.mp hm).trans (congrArg some hid.symm)
    · intro hst
      obtain ⟨t, ht⟩ := hl₂.grows.hasTranscript (hstage.hasTranscript hst)
      simp [ht]
    · intro hst
      obtain ⟨e, he, hsink⟩ := hstage.hasDelivery hst
      obtain ⟨f, hf, -, hname⟩ := later_delivery (hl₂.trans hl₃) he
      exact ⟨f.toDelivery, by simp [hf], hname ▸ hsink⟩
    · exact ⟨hkept.numbered, hrowsKept.numbered⟩
    · exact ⟨hkept.oneInFlight, hrowsKept.oneInFlight⟩
    · intro ht
      obtain ⟨a, ha, hst⟩ := ((run_kept hr₂).1 x).completed.mpr (Option.isSome_iff_ne_none.mpr ht)
      exact ⟨a, (later_succeeded hr₂ (hl₃.trans hl₄)).1 x a ha hst, hst⟩
    · intro hst
      obtain ⟨e, he, -⟩ := hstage.hasDelivery (by simp [show r.status = .delivered from hst])
      obtain ⟨f, hf, hfid, -⟩ := later_delivery (hl₂.trans hl₃) he
      have hest : e.status = .delivered := by
        have hs := Stage.status_eq (he ▸ hstage)
        rw [show r.status = .delivered from hst] at hs
        cases hs' : e.status <;> rw [hs'] at hs <;> first | rfl | cases hs
      obtain ⟨a, ha, hast⟩ := ((run_kept hr₁).2 e.id).completed.mpr
        ⟨e, Store.delivery_of_mem (Table.find_mem he).1, hest⟩
      have hstays := (later_succeeded hr₁ (hl₂.trans (hl₃.trans (hl₄.trans hl₅)))).2 e.id a ha hast
      rcases hrows with ⟨hn, -⟩ | ⟨d, hd, rfl⟩
      · simp [hf] at hn
      · rw [hf] at hd
        cases hd
        refine ⟨a, (List.perm_insertionSort _ _).mem_iff.mpr ?_, hast⟩
        rwa [hfid]

/-- The Sink is selected after the Recording is read and before its Delivery is. -/
theorem detail_across_routing : ∃ c c' trace d, Run toNotes trace c ∧
    Sees (·.store) (Later toNotes) c (getRecordingDetail firstUpload.id) c' (.ok (some d)) ∧
      d.recording.status = .routing ∧ d.delivery ≠ none ∧ d.Coherent := by
  have hp : (initial.play toNotes ((0, .recover) :: (0, .upload firstUpload) ::
      everySecond 8 1 (.transcribe () "t1" (.ok ⟨"scribe", "hello", "{}", none, none⟩)))).bind (fun q =>
        (q.1.play toNotes (everySecond 6 10 (.route () "d1"))).map fun q' =>
          ((q.1.store.recording firstUpload.id).map (·.status),
            (q'.1.store.deliveryFor firstUpload.id).isSome)) = some (some .routing, true) := by
    decide +kernel
  obtain ⟨⟨c, trace⟩, hplay, hp⟩ := Option.bind_eq_some_iff.mp hp
  obtain ⟨⟨c', later⟩, hlater, he⟩ := Option.map_eq_some_iff.mp hp
  obtain ⟨hrec, hdel⟩ := Prod.mk.inj he
  obtain ⟨r, hr, hst⟩ := Option.map_eq_some_iff.mp hrec
  obtain ⟨e, hdel⟩ := Option.isSome_iff_exists.mp hdel
  replace hr : c.store.recording firstUpload.id = some r := hr
  replace hdel : c'.store.deliveryFor firstUpload.id = some e := hdel
  have hrun : Run toNotes trace c := run_of_play hplay
  have hl : Later toNotes c c' := ⟨later, by simpa using Runs.start.play hlater⟩
  have hs : Sees (·.store) (Later toNotes) c (getRecordingDetail firstUpload.id) c' (.ok (some
      ⟨r.toRecording, c.store.transcript firstUpload.id, some e.toDelivery,
        (c'.store.transcriptionAttempts.attemptsOf firstUpload.id).insertionSort Attempt.InOrder,
        (c'.store.deliveryAttempts.attemptsOf e.id).insertionSort Attempt.InOrder,
        (c'.store.auditEventsOf firstUpload.id).insertionSort Store.OccurredFirst⟩)) := by
    refine Sees.query .refl ?_
    simp only [hr, Option.map_some]
    refine Sees.query .refl (Sees.query hl (Sees.query .refl ?_))
    simp only [hdel, Option.map_some]
    exact Sees.query .refl (Sees.query .refl .returned)
  exact ⟨c, c', trace, _, hrun, hs, hst, by simp, (detail_coherent hrun hs).2⟩

end Service
end Telegraph
