import Mathlib.Data.List.Lex
import Mathlib.Data.Prod.Lex
import Telegraph.Proofs.AuditTrail

namespace Telegraph
open Lib Program SqliteStore

namespace Store
variable {s s' : Store} {status : RecordingStatus} {x y : String} {t : Int}

/-! The order the claim sorts by, on the stored texts. -/

theorem oldestFirst_iff {a b : RecordingRow} : OldestFirst a b ↔
    toLex ((Timestamp.format a.receivedAt).toList, (Timestamp.format a.createdAt).toList) ≤
      toLex ((Timestamp.format b.receivedAt).toList, (Timestamp.format b.createdAt).toList) := by
  rw [Prod.Lex.toLex_le_toLex]
  unfold OldestFirst Timestamp.TextLt
  simp only [String.toList_inj, not_lt]

instance : Std.Total OldestFirst := ⟨fun a b => by simpa only [oldestFirst_iff] using le_total _ _⟩

instance : IsTrans RecordingRow OldestFirst :=
  ⟨fun a b c h k => by
    rw [oldestFirst_iff] at h k ⊢
    exact h.trans k⟩

/-- No row of the status is stored as received before the oldest. -/
theorem oldestWithStatus_le {r q : RecordingRow} (h : s.oldestWithStatus status = some x)
    (hr : s.recording x = some r) (hq : q ∈ s.recordings.rows) (hst : q.status = status) :
    ¬ Timestamp.TextLt (Timestamp.format q.receivedAt) (Timestamp.format r.receivedAt) := by
  obtain ⟨o, ho, rfl⟩ := Option.map_eq_some_iff.mp h
  have hmem := mem_sorted_status.mpr ⟨hq, hst⟩
  have hsorted := List.pairwise_insertionSort OldestFirst (s.recordings.rows.filter (·.status == status))
  generalize hl : (s.recordings.rows.filter (·.status == status)).insertionSort OldestFirst = sorted at *
  cases sorted with
  | nil => cases hmem
  | cons a rest =>
    obtain rfl : a = o := by simpa using ho
    have hrow : a ∈ s.recordings.rows := (mem_sorted_status.mp (hl ▸ List.mem_cons_self ..)).1
    obtain rfl : a = r := Option.some.inj ((recording_of_mem hrow).symm.trans hr)
    rcases List.mem_cons.mp hmem with rfl | hmem
    · exact lt_irrefl _
    · rcases List.rel_of_pairwise_cons hsorted hmem with hlt | ⟨he, -⟩
      · exact lt_asymm hlt
      · rw [he]
        exact lt_irrefl _

/-- Who can be claimed before `x`, which was received at `t`: the received Recordings
that are not stored as received after it. -/
def waiting (s : Store) (x : String) (t : Int) : List String :=
  (s.recordings.rows.filter fun r => r.status == .received && r.id != x &&
    !decide (Timestamp.TextLt (Timestamp.format t) (Timestamp.format r.receivedAt))).map (·.id)

/-- How many are ahead of `x`. -/
def ahead (s : Store) (x : String) (t : Int) : Nat := (s.waiting x t).length

theorem mem_waiting : y ∈ s.waiting x t ↔ ∃ r, s.recording y = some r ∧ r.status = .received ∧ y ≠ x ∧
    ¬ Timestamp.TextLt (Timestamp.format t) (Timestamp.format r.receivedAt) := by
  unfold waiting
  rw [List.mem_map]
  constructor
  · rintro ⟨r, hr, rfl⟩
    simp only [List.mem_filter, Bool.and_eq_true, beq_iff_eq, bne_iff_ne, Bool.not_eq_true',
      decide_eq_false_iff_not] at hr
    exact ⟨r, recording_of_mem hr.1, hr.2.1.1, hr.2.1.2, hr.2.2⟩
  · rintro ⟨r, hr, hst, hne, ht⟩
    have hid := recording_id hr
    refine ⟨r, ?_, hid⟩
    simp only [List.mem_filter, Bool.and_eq_true, beq_iff_eq, bne_iff_ne, Bool.not_eq_true',
      decide_eq_false_iff_not]
    exact ⟨(Table.find_mem hr).1, ⟨hst, hid ▸ hne⟩, ht⟩

theorem waiting_nodup : (s.waiting x t).Nodup := by
  unfold waiting
  refine List.Pairwise.map (R := fun a b : RecordingRow => a.id ≠ b.id) _ (fun _ _ h => h) ?_
  refine List.Pairwise.filter _ (s.recordings.distinct.imp fun h he => ?_)
  simp [RecordingRow.clash, he] at h

/-- A Recording that was there keeps what its upload wrote. -/
theorem Grows.recording {P : String → Prop} (hg : s.Grows P s') {r : RecordingRow}
    (hr : s.recording x = some r) : ∃ q, s'.recording x = some q ∧ q.origin = r.origin := by
  obtain ⟨q, hq, ho⟩ := List.mem_map.mp
    (hg.origins.subset (List.mem_map_of_mem (f := fun r : RecordingRow => r.origin) (Table.find_mem hr).1))
  have hid : q.id = x := (congrArg Origin.id ho).trans (recording_id hr)
  exact ⟨q, hid ▸ recording_of_mem hq, ho⟩

/-- Who waits afterwards and was received before waited before. -/
theorem Grows.waiting {P : String → Prop} (hg : s.Grows P s') (hw : y ∈ s'.waiting x t)
    (hst : s.statusOf y = some .received) : y ∈ s.waiting x t := by
  obtain ⟨q, hq, -, hne, ht⟩ := mem_waiting.mp hw
  obtain ⟨r, hr, hst⟩ := Option.map_eq_some_iff.mp hst
  obtain ⟨q', hq', ho⟩ := hg.recording hr
  obtain rfl : q = q' := Option.some.inj (hq.symm.trans hq')
  have hrec : q.receivedAt = r.receivedAt := congrArg Origin.receivedAt ho
  exact mem_waiting.mpr ⟨r, hr, hst, hne, hrec ▸ ht⟩

theorem statusOf_of_waiting (h : y ∈ s.waiting x t) : s.statusOf y = some .received := by
  obtain ⟨r, hr, hst, -⟩ := mem_waiting.mp h
  exact hst ▸ statusOf_eq hr

/-- Nobody comes in: the line gets no longer. -/
theorem ahead_le (hg : s.Grows (fun _ => True) s')
    (h : ∀ y ∈ s'.waiting x t, s.statusOf y = some .received) : s'.ahead x t ≤ s.ahead x t :=
  (waiting_nodup.subperm fun y hy => hg.waiting hy (h y hy)).length_le

/-- Somebody is taken out, and nobody comes in. -/
theorem ahead_lt (hg : s.Grows (fun _ => True) s') (h : ∀ z ∈ s'.waiting x t, s.statusOf z = some .received)
    (hy : y ∈ s.waiting x t) (hout : s'.statusOf y ≠ some .received) : s'.ahead x t < s.ahead x t := by
  have hsub : s'.waiting x t ⊆ (s.waiting x t).erase y := by
    intro z hz
    have hne : z ≠ y := fun he => hout (he ▸ statusOf_of_waiting hz)
    exact (List.mem_erase_of_ne hne).mpr (hg.waiting hz (h z hz))
  have hle := (waiting_nodup.subperm hsub).length_le
  rw [List.length_erase_of_mem hy] at hle
  have hpos := List.length_pos_of_mem hy
  unfold ahead
  omega

/-- One comes in. -/
theorem ahead_le_succ (hg : s.Grows (fun _ => True) s')
    (h : ∀ z ∈ s'.waiting x t, s.statusOf z = some .received ∨ z = y) :
    s'.ahead x t ≤ s.ahead x t + 1 := by
  have hsub : s'.waiting x t ⊆ y :: s.waiting x t := by
    intro z hz
    rcases h z hz with hst | rfl
    · exact List.mem_cons_of_mem _ (hg.waiting hz hst)
    · exact List.mem_cons_self ..
  exact (waiting_nodup.subperm hsub).length_le

/-- No Recording becomes received. -/
def NoArrivals (s s' : Store) : Prop := ∀ y, s'.statusOf y = some .received → s.statusOf y = some .received

theorem noArrivals_of_eq (hr : s'.recordings = s.recordings) : s.NoArrivals s' := by
  intro y hy
  unfold statusOf recording at hy ⊢
  rwa [hr] at hy

end Store

namespace SqliteStore
open Store
variable {s s' : Store} {x : String} {now : Int}

theorem permits_noArrivals : Permits NoArrivals where
  elsewhere hr _ _ := noArrivals_of_eq hr
  columns hu hs y hy := by
    rw [statusOf_updateRecordings fun r => RecordingRow.id_of_asUploaded (hu r)] at hy
    simpa [hs, statusOf] using hy
  moves {s p next t} h y hy := by
    have he : (s.setStatus p next t).statusOf y =
        (s.recording y).map fun r => if p r then next else r.status :=
      statusOf_updateRecordings (f := (·.moved next t)) (fun _ => rfl) y
    rw [he] at hy
    obtain ⟨r, hr, hst⟩ := Option.map_eq_some_iff.mp hy
    split at hst
    · next hp =>
      obtain ⟨hcan, -⟩ := h y r hr hp
      rw [hst] at hcan
      cases hs : r.status <;> rw [hs] at hcan <;> cases hcan
    · exact hst ▸ statusOf_eq hr

/-- A claim takes the oldest received Recording out of the line. -/
theorem claimReceivedTx_oldest {r : RecordingRow} (hr : s.recording x = some r) (hst : r.status = .received) :
    ∃ y, s.oldestWithStatus .received = some y ∧
      ((claimReceivedTx now).run s).1.statusOf y = some .transcribing := by
  have hw : (claimReceivedTx now).Within (fun _ _ => True) ⟨s, none⟩
      fun o _ => o = s.oldestWithStatus .received := by
    apply within_begin
    apply within_query
    simp only [Connection.view_open]
    cases s.oldestWithStatus .received with
    | none => exact rfl
    | some y => exact within_guardedTransition fun _ _ _ => ⟨trivial, within_commit rfl⟩
  rcases claimReceivedTx_transacts.run_cases with ⟨o, s', hrun, ho⟩ | ⟨e, -, hbad⟩
  · rcases ho with ⟨-, -, hnone⟩ | ⟨y, q, rfl, hq, -, hv⟩
    · exact absurd hst (hnone x r hr)
    · have ho : some y = s.oldestWithStatus .received :=
        Within.returned (P := fun o _ => o = s.oldestWithStatus .received) hw hrun
      refine ⟨y, ho.symm, ?_⟩
      rw [hrun]
      have hs := Caller.status_of_update (q := q.moved .transcribing now) (congrArg View.recording hv) y
      rwa [if_pos (show y = (q.moved .transcribing now).id from (recording_id hq).symm)] at hs
  · exact hbad.elim

/-- Recovery gives back the claims without an attempt, and nothing else becomes received. -/
theorem recovered_received {y : String} (h : (recovered now s).statusOf y = some .received) :
    s.statusOf y = some .received ∨ ∃ r, s.recording y = some r ∧ Unstarted s r = true := by
  obtain ⟨f, hf, hv⟩ := recovered_view now s
  have hrec : (recovered now s).recording y = (s.recording y).map f := congrFun (congrArg View.recording hv) y
  obtain ⟨q, hq, hst⟩ := Option.map_eq_some_iff.mp h
  obtain ⟨r, hr, rfl⟩ := Option.map_eq_some_iff.mp (hrec.symm.trans hq)
  cases hu : Unstarted s r with
  | true => exact .inr ⟨r, hr, hu⟩
  | false =>
    obtain ⟨e, u, he⟩ := hf r
    rw [he, hu] at hst
    have hst : r.status = .received := hst
    exact .inl (hst ▸ statusOf_eq hr)

/-- An upload lets in no Recording but its own. -/
theorem createRecording_received {new : NewRecording} {y : String}
    (h : ((createRecording new).run s).1.statusOf y = some .received) :
    s.statusOf y = some .received ∨
      y = new.id ∧ ∀ q, ((createRecording new).run s).1.recording y = some q → q.receivedAt = new.receivedAt := by
  rcases createRecording_transacts.run_cases with ⟨r, s', hr, rfl | ⟨hv, -⟩⟩ | ⟨e, hr, -⟩
  · rw [hr] at h
    exact .inl h
  · rw [hr] at h ⊢
    have hrec : s'.recording = Function.update s.recording new.id (some (newRow new)) :=
      congrArg View.recording hv
    by_cases hy : y = new.id
    · refine .inr ⟨hy, fun q hq => ?_⟩
      rw [hrec, hy, Function.update_self] at hq
      cases hq
      rfl
    · rw [Caller.status_of_update (q := newRow new) hrec, if_neg (show ¬ y = (newRow new).id from hy)] at h
      exact .inl h
  · rw [hr] at h
    exact .inl h

end SqliteStore

/-- The step that ends the workers changes no piece of work. -/
theorem Board.Step.items_of_stop {ι δ : Type} [DecidableEq ι] {b b' : Board ι δ} {p : Lib.Retry.Policy}
    {moves : String → List Lib.Retry.Move} (hs : b.Step p moves b') (hb : b.running = true)
    (hb' : b'.running = false) : b'.items = b.items := by
  have keeps : ∀ {b'' : Board ι δ}, b''.running = b.running → b''.running ≠ false := by
    intro b'' h
    simp [h, hb]
  cases hs with
  | stop => rfl
  | recover => cases hb'
  | _ => exact absurd hb' (keeps rfl)

namespace Service
variable {c c' c₀ : Process} {trace events : List Event} {route : Recording → RoutingDecision}
  {turns : List (Turn Process (Int × Input Unit))} {x : String} {now : Int} {input : Input Unit}

theorem later_of_history (h : History (fun c l c' => next route c l = some c') c₀ turns c) :
    Later route c₀ c := by
  induction h with
  | start => exact .refl
  | turn l _ hs ih =>
    obtain ⟨later, hr⟩ := ih
    obtain ⟨⟨c', events⟩, hstep, rfl⟩ := Option.map_eq_some_iff.mp hs
    exact ⟨later ++ events, .step l.1 l.2 hr trivial hstep⟩

/-- Nothing reaches the database while the process is down. -/
theorem stopped_store (hs : c.step route now input = some (c', events)) (hc : c.running = false)
    (hc' : c'.running = false) : c'.store = c.store := by
  obtain ⟨⟨-, -, hadmits⟩, he⟩ := step_some hs
  cases input with
  | crash =>
    cases he
    rfl
  | recover =>
    cases he
    cases hc'
  | manualRoute _ | manualRetryTranscription _ | manualRetryDelivery _ | refuse _ _ =>
    exact absurd (hc.symm.trans hadmits.1) (by decide)
  | _ => exact absurd (hc.symm.trans hadmits) (by decide)

/-- A claim without an attempt. -/
def Pending (c : Process) (x : String) : Prop :=
  (c.store.view.transcriptionLedger x).phase = .active ∧ (c.store.view.transcriptionLedger x).rows = []

/-- There is at most one, in the running process or left by it: its sole worker's. -/
theorem run_onePending (hr : Run route trace c) {y : String} (hx : c.Pending x) (hy : c.Pending y) : x = y := by
  induction hr with
  | start => cases hx.1
  | @step trace events c c' now input hr _ hs ih =>
    obtain ⟨-, b, d, ha, hb, hd⟩ := hr.undisturbed
    obtain ⟨b', d', ha', hbs, -⟩ := ha.step (ha.undisturbed hb hd input) hs
    have hrun' := ha'.refines.transcription_running
    unfold Pending at hx hy
    rw [ha'.refines.transcriptions] at hx hy
    cases hrun : c'.running with
    | true =>
      have hsince : ∀ z, (b'.items z).since = none := by
        rw [← ha'.refines.transcriptions]
        exact fun _ => rfl
      obtain ⟨i, t, hi⟩ := ha'.transcription.taken (hrun'.trans hrun) x hx.1 hx.2 (hsince x)
      obtain ⟨j, u, hj⟩ := ha'.transcription.taken (hrun'.trans hrun) y hy.1 hy.2 (hsince y)
      cases hi.symm.trans hj
      rfl
    | false =>
      have hitems : b'.items = c.store.view.transcriptionLedger := by
        cases hc : c.running with
        | true =>
          rw [ha.refines.transcriptions]
          exact hbs.items_of_stop (ha.refines.transcription_running.trans hc) (hrun'.trans hrun)
        | false =>
          rw [← ha'.refines.transcriptions, stopped_store hs hc hrun]
      rw [hitems] at hx hy
      exact ih hx hy

/-- A look for received work: the statements of a claim. -/
def looks (t : Turn Process (Int × Input Unit)) : Bool :=
  match t.what.2, t.before.transcribers () with
  | .transcribe _ _ _, .began _ => true
  | _, _ => false

/-- What may put somebody ahead of a Recording received at `since`: an upload not stored
as received after it, and a restart, which gives back a claim. -/
def letsIn (since : Int) (t : Turn Process (Int × Input Unit)) : Bool :=
  match t.what.2 with
  | .upload new => !decide (Timestamp.TextLt (Timestamp.format since) (Timestamp.format new.receivedAt))
  | .recover => true
  | _ => false

theorem step_grows (hs : c.step route now input = some (c', events)) :
    c.store.Grows (fun _ => True) c'.store := by
  obtain ⟨ops, ho⟩ := step_operates hs
  rw [ho]
  exact Operation.foldl_grows ops _

/-- Only an upload and a restart let anybody in. -/
theorem step_noArrivals (hs : c.step route now input = some (c', events))
    (hu : ∀ new, input ≠ .upload new) (hr : input ≠ .recover) : c.store.NoArrivals c'.store := by
  cases ho : input.operation now with
  | none =>
    obtain ⟨ops, hops, he⟩ := step_by_worker hs ho
    rw [he]
    exact permits_noArrivals.foldl
      (fun ht => Store.noArrivals_of_eq (Store.insertTranscript_frame ht).1) (fun _ _ => id)
      (fun h k y hy => h y (k y hy)) hops c.store
  | some op =>
    cases ha : input.asks with
    | none =>
      cases input with
      | upload new => exact absurd rfl (hu new)
      | recover => exact absurd rfl hr
      | manualRoute _ | manualRetryTranscription _ | manualRetryDelivery _ => cases ha
      | _ => cases ho
    | some asked =>
      obtain ⟨x, status, op'⟩ := asked
      rw [step_operation hs (Input.operation_of_asks ha)]
      rcases Input.asks_released ha c.store with he | hrel
      · rw [he]
        exact fun _ => id
      · intro y hy
        by_cases hyx : y = x
        · obtain ⟨next, hn, hcan⟩ := hrel.after
          rw [hyx, hn] at hy
          cases hy
          cases status <;> cases hcan
        · rwa [hrel.others y hyx] at hy

theorem pending_of_unstarted {r : RecordingRow} (hr : c.store.recording x = some r)
    (hu : Unstarted c.store r = true) : c.Pending x := by
  simp only [Unstarted, Bool.and_eq_true, beq_iff_eq, List.isEmpty_iff] at hu
  have hstage := View.transcriptionStage_of_recording (v := c.store.view) hr
  refine ⟨?_, ?_⟩
  · change (c.store.view.transcriptionStage x).1 = _
    rw [hstage, hu.1]
    rfl
  · change c.store.transcriptionAttempts.attemptsOf x = []
    rw [← Store.recording_id hr]
    exact hu.2

section Line
variable {r : RecordingRow}

theorem recover_line (hr : Run route trace c) (hs : c.step route now .recover = some (c', events)) :
    c'.store.ahead x r.receivedAt ≤ c.store.ahead x r.receivedAt + 1 := by
  have he : c'.store = recovered now c.store := step_operation hs rfl
  by_cases hp : ∃ y, c.Pending y
  · obtain ⟨y, hy⟩ := hp
    refine Store.ahead_le_succ (y := y) (step_grows hs) fun z hz => ?_
    rcases recovered_received (he ▸ Store.statusOf_of_waiting hz) with hst | ⟨q, hq, hu⟩
    · exact .inl hst
    · exact .inr (run_onePending hr (pending_of_unstarted hq hu) hy)
  · refine (Store.ahead_le (step_grows hs) fun z hz => ?_).trans (Nat.le_succ _)
    rcases recovered_received (he ▸ Store.statusOf_of_waiting hz) with hst | ⟨q, hq, hu⟩
    · exact hst
    · exact absurd ⟨z, pending_of_unstarted hq hu⟩ hp

theorem upload_line {new : NewRecording} (hs : c.step route now (.upload new) = some (c', events)) :
    c'.store.ahead x r.receivedAt ≤
      c.store.ahead x r.receivedAt + (letsIn r.receivedAt ⟨c, (now, .upload new), c'⟩).toNat := by
  have he : c'.store = ((createRecording new).run c.store).1 := step_operation hs rfl
  by_cases hlate : Timestamp.TextLt (Timestamp.format r.receivedAt) (Timestamp.format new.receivedAt)
  · refine (Store.ahead_le (step_grows hs) fun z hz => ?_).trans (Nat.le_add_right _ _)
    rcases createRecording_received (he ▸ Store.statusOf_of_waiting hz) with hst | ⟨-, hq⟩
    · exact hst
    · obtain ⟨q, hrec, -, -, ht⟩ := Store.mem_waiting.mp hz
      rw [hq q (he ▸ hrec)] at ht
      exact absurd hlate ht
  · have hin : letsIn r.receivedAt ⟨c, (now, .upload new), c'⟩ = true := by simp [letsIn, hlate]
    rw [hin]
    refine Store.ahead_le_succ (y := new.id) (step_grows hs) fun z hz => ?_
    exact (createRecording_received (he ▸ Store.statusOf_of_waiting hz)).imp_right And.left

/-- The look of a worker takes somebody out of the line ahead of `x`. -/
theorem look_line {since : Int} {i : Unit} {id : String} {answer : Except WorkerFailure TranscriptionOutput}
    (hs : c.step route now (.transcribe i id answer) = some (c', events))
    (hpc : c.transcribers i = .began since) (hx : c.store.recording x = some r) (hst : r.status = .received)
    (hx' : c'.store.statusOf x = some .received) :
    c'.store.ahead x r.receivedAt < c.store.ahead x r.receivedAt := by
  have he : c'.store = ((claimReceivedTx since).run c.store).1 := by
    obtain ⟨-, he⟩ := step_some hs
    rw [@settle_store { c with clock := now } _ _ _ (onTranscriber · i) _ he fun _ _ => rfl]
    simp only [hpc, Transcription.action, transact, Action.run_store]
    refine run_bind_reads fun found => ?_
    cases found <;> trivial
  obtain ⟨y, hold, hy⟩ := @claimReceivedTx_oldest _ _ since _ hx hst
  rw [← he] at hy
  obtain ⟨q, hq, hqst⟩ := Store.oldestWithStatus_some hold
  have hne : y ≠ x := by
    rintro rfl
    cases hx'.symm.trans hy
  refine Store.ahead_lt (y := y) (step_grows hs) (fun z hz => ?_) ?_ ?_
  · exact step_noArrivals hs (fun _ h => by cases h) (fun h => by cases h) z (Store.statusOf_of_waiting hz)
  · exact Store.mem_waiting.mpr ⟨q, hq, hqst, hne,
      Store.oldestWithStatus_le hold hq (Table.find_mem hx).1 hst⟩
  · rw [hy]
    exact fun h => by cases h

/-- One step of a run in which `x` waits. -/
theorem step_line (hr : Run route trace c) (hs : c.step route now input = some (c', events))
    (hx : c.store.recording x = some r) (hst : r.status = .received)
    (hx' : c'.store.statusOf x = some .received) :
    c'.store.ahead x r.receivedAt + (looks ⟨c, (now, input), c'⟩).toNat ≤
      c.store.ahead x r.receivedAt + (letsIn r.receivedAt ⟨c, (now, input), c'⟩).toNat := by
  have quiet : (∀ new, input ≠ .upload new) → input ≠ .recover →
      c'.store.ahead x r.receivedAt ≤ c.store.ahead x r.receivedAt := fun hu hre =>
    Store.ahead_le (step_grows hs) fun z hz => step_noArrivals hs hu hre z (Store.statusOf_of_waiting hz)
  cases input with
  | upload new => exact upload_line hs
  | recover => exact recover_line hr hs
  | transcribe i id answer =>
    cases hpc : c.transcribers i with
    | began since =>
      have hlook : looks ⟨c, (now, .transcribe i id answer), c'⟩ = true := by
        simp only [looks]
        rw [show c.transcribers () = .began since from hpc]
      rw [hlook]
      exact look_line hs hpc hx hst hx'
    | _ =>
      have hlook : looks ⟨c, (now, .transcribe i id answer), c'⟩ = false := by
        simp only [looks]
        rw [show c.transcribers () = _ from hpc]
      rw [hlook]
      exact quiet (fun _ h => by cases h) fun h => by cases h
  | _ => exact quiet (fun _ h => by cases h) fun h => by cases h

/-- A waiting Recording is claimed in its turn: as long as it waits, the Transcription
worker looks for work no more often than there were Recordings ahead of it, and are let in
ahead of it by uploads with earlier stamps and by restarts. -/
theorem bounded_waiting (hr : Run route trace c₀)
    (h : History (fun c l c' => next route c l = some c') c₀ turns c)
    (hx : c₀.store.recording x = some r) (hst : r.status = .received)
    (hwait : ∀ t ∈ turns, t.after.store.statusOf x = some .received) :
    turns.countP looks ≤ c₀.store.ahead x r.receivedAt + turns.countP (letsIn r.receivedAt) := by
  obtain ⟨-, hbefore⟩ := h.before_of_after (P := fun c => c.store.statusOf x = some .received)
    (hst ▸ Store.statusOf_eq hx) hwait
  have hpot := @History.potential _ _ _ _ _ _ (fun c => c.store.ahead x r.receivedAt) looks
    (letsIn r.receivedAt) h fun t ht => ?_
  · exact (Nat.le_add_right _ _).trans hpot
  · obtain ⟨earlier, later, hsplit⟩ := List.append_of_mem ht
    have hlater := later_of_history (h.upTo hsplit)
    obtain ⟨trace', hrun⟩ := hlater.run hr
    obtain ⟨⟨c', events⟩, hstep, hafter⟩ := Option.map_eq_some_iff.mp (h.step_of_mem ht)
    obtain ⟨q, hq, ho⟩ := hlater.grows.recording hx
    have hrec : q.receivedAt = r.receivedAt := congrArg Origin.receivedAt ho
    have hqst : q.status = .received :=
      Option.some.inj ((Store.statusOf_eq hq).symm.trans (hbefore t ht))
    rw [← hrec]
    obtain ⟨before, ⟨now, input⟩, after⟩ := t
    cases hafter
    exact step_line hrun hstep hq hqst (hwait _ ht)

/-- Two uploads, a second apart. -/
def nextUpload : NewRecording :=
  { firstUpload with
    id := "r2"
    clientRecordingId := "c2"
    receivedAt := Duration.seconds 1 }

theorem second_waits_once : ∃ c₀ c trace turns r, Run toNotes trace c₀ ∧
    c₀.store.recording nextUpload.id = some r ∧
    History (fun c l c' => next toNotes c l = some c') c₀ turns c ∧ turns.countP looks = 1 ∧
    turns.countP looks ≤ c₀.store.ahead nextUpload.id r.receivedAt + turns.countP (letsIn r.receivedAt) := by
  have hp : (initial.play toNotes [(0, .recover), (0, .upload firstUpload),
      (Duration.seconds 1, .upload nextUpload)]).bind (fun q =>
        (History.play (next toNotes) q.1
          (everySecond 3 2 (.transcribe () "t1" (.ok ⟨"scribe", "hello", "\x7b\x7d", none, none⟩)))).bind fun p =>
            (q.1.store.recording nextUpload.id).map fun r => (r.status, p.1.countP looks,
              p.1.all fun t => t.after.store.statusOf nextUpload.id == some .received)) =
      some (.received, 1, true) := by
    decide +kernel
  obtain ⟨⟨c₀, trace⟩, hplay, hp⟩ := Option.bind_eq_some_iff.mp hp
  obtain ⟨⟨turns, c⟩, hturns, hp⟩ := Option.bind_eq_some_iff.mp hp
  obtain ⟨r, hr, he⟩ := Option.map_eq_some_iff.mp hp
  replace hr : c₀.store.recording nextUpload.id = some r := hr
  simp only [Prod.mk.injEq, List.all_eq_true, beq_iff_eq] at he
  obtain ⟨hst, hlooks, hwait⟩ := he
  have hrun : Run toNotes trace c₀ := run_of_play hplay
  exact ⟨c₀, c, trace, turns, r, hrun, hr, History.of_play hturns, hlooks,
    bounded_waiting hrun (History.of_play hturns) hr hst hwait⟩

end Line

end Service
end Telegraph
