import Telegraph.Proofs.CommittedStates
import Telegraph.Proofs.NothingStranded
import Telegraph.Proofs.SameDelivery

namespace Telegraph
open Lib Program SqliteStore Function

namespace Store
variable {P : String → Prop} {s t : Store} {x : String}

def HasRecording (s : Store) (x : String) : Prop := ∃ r, s.recording x = some r
def HasTranscript (s : Store) (x : String) : Prop := ∃ r, s.transcript x = some r
def HasDelivery (s : Store) (x : String) : Prop := ∃ d, s.delivery x = some d

theorem Grows.hasRecording (h : s.Grows P t) (hx : s.HasRecording x) : t.HasRecording x := by
  obtain ⟨r, hr⟩ := hx
  obtain ⟨hmem, hid⟩ := Table.find_mem hr
  have ho : r.origin ∈ t.origins := h.origins.subset (List.mem_map_of_mem hmem)
  obtain ⟨q, hq, he⟩ := List.mem_map.mp ho
  have hqid : q.id = x := (congrArg Origin.id he).trans (beq_iff_eq.mp hid)
  exact ⟨q, hqid ▸ recording_of_mem hq⟩

theorem Grows.hasTranscript (h : s.Grows P t) (hx : s.HasTranscript x) : t.HasTranscript x := by
  obtain ⟨r, hr⟩ := hx
  obtain ⟨hmem, hid⟩ := Table.find_mem hr
  exact ⟨r, beq_iff_eq.mp hid ▸ transcript_of_mem (h.transcripts.subset hmem)⟩

theorem Grows.hasDelivery (h : s.Grows P t) (hx : s.HasDelivery x) : t.HasDelivery x := by
  obtain ⟨d, hd⟩ := hx
  obtain ⟨hmem, hid⟩ := Table.find_mem hd
  obtain ⟨e, he, ht⟩ := List.mem_map.mp (h.mem_targets (List.mem_map_of_mem hmem))
  have heid : e.id = x := (congrArg Target.id ht).trans (beq_iff_eq.mp hid)
  exact ⟨e, heid ▸ delivery_of_mem he⟩

end Store

/-- A Delivery's Recording stands where the Delivery does. -/
theorem Stage.status_eq {r : RecordingRow} {t : Option Transcript} {d : DeliveryRow}
    (h : Stage (some r) t (some d)) : r.status = recordingStatusOf d.status := by
  change StageOf r.status r.selectedSinkName t (some d) at h
  cases hr : r.status <;> rw [hr] at h
  case received | transcribing | transcriptionFailed | routing | backlogged => cases h.2.1
  all_goals
    obtain ⟨-, e, he, hst, -⟩ := h
    cases he
    exact hst.symm

/-! The rows each tick has read and reads again. -/

def Transcription.Pc.Known (s : Store) : Pc → Prop
  | .confirming _ id => s.HasRecording id
  | .loading _ rows candidates => (∀ row ∈ rows, s.HasRecording row.recordingId) ∧
      ∀ c ∈ candidates, s.HasRecording c.recording.id
  | .claimed _ recording _ => s.HasRecording recording.id
  | .confirmingTranscript id => s.HasTranscript id
  | .confirmingFailure id => s.HasRecording id
  | _ => True

def Routing.Pc.Known (s : Store) : Pc → Prop
  | .confirming _ id => s.HasRecording id
  | .deciding _ recording => s.HasRecording recording.id
  | .backlogging _ id => s.HasRecording id
  | .confirmingBacklog id => s.HasRecording id
  | .confirmingDelivery id => s.HasDelivery id
  | _ => True

def Delivering.Pc.Known (s : Store) : Pc → Prop
  | .loading _ rows candidates => (∀ row ∈ rows, s.HasDelivery row.deliveryId) ∧
      ∀ c ∈ candidates, s.HasDelivery c.delivery.id
  | .loadingRecording _ _ rows candidates delivery => (∀ row ∈ rows, s.HasDelivery row.deliveryId) ∧
      (∀ c ∈ candidates, s.HasDelivery c.delivery.id) ∧ s.HasDelivery delivery.id ∧
      s.HasRecording delivery.recordingId ∧ s.HasTranscript delivery.recordingId
  | .loadingTranscript _ _ rows candidates delivery _ => (∀ row ∈ rows, s.HasDelivery row.deliveryId) ∧
      (∀ c ∈ candidates, s.HasDelivery c.delivery.id) ∧ s.HasDelivery delivery.id ∧
      s.HasTranscript delivery.recordingId
  | .claimed _ candidate => s.HasDelivery candidate.delivery.id
  | .confirming id => s.HasDelivery id
  | _ => True

section Growth
variable {P : String → Prop} {s t : Store} (h : s.Grows P t)
include h

theorem Transcription.Pc.Known.grows {pc : Pc} (hk : pc.Known s) : pc.Known t := by
  cases pc with
  | confirming now id => exact h.hasRecording hk
  | loading now rows candidates =>
    exact ⟨fun row hm => h.hasRecording (hk.1 row hm), fun c hm => h.hasRecording (hk.2 c hm)⟩
  | claimed now recording seen => exact h.hasRecording hk
  | confirmingTranscript id => exact h.hasTranscript hk
  | confirmingFailure id => exact h.hasRecording hk
  | _ => trivial

theorem Routing.Pc.Known.grows {pc : Pc} (hk : pc.Known s) : pc.Known t := by
  cases pc with
  | confirming now id => exact h.hasRecording hk
  | deciding now recording => exact h.hasRecording hk
  | backlogging now id => exact h.hasRecording hk
  | confirmingBacklog id => exact h.hasRecording hk
  | confirmingDelivery id => exact h.hasDelivery hk
  | _ => trivial

theorem Delivering.Pc.Known.grows {pc : Pc} (hk : pc.Known s) : pc.Known t := by
  cases pc with
  | loading now rows candidates =>
    exact ⟨fun row hm => h.hasDelivery (hk.1 row hm), fun c hm => h.hasDelivery (hk.2 c hm)⟩
  | loadingRecording now row rows candidates delivery =>
    obtain ⟨hr, hc, hd, hrec, ht⟩ := hk
    exact ⟨fun row hm => h.hasDelivery (hr row hm), fun c hm => h.hasDelivery (hc c hm),
      h.hasDelivery hd, h.hasRecording hrec, h.hasTranscript ht⟩
  | loadingTranscript now row rows candidates delivery recording =>
    obtain ⟨hr, hc, hd, ht⟩ := hk
    exact ⟨fun row hm => h.hasDelivery (hr row hm), fun c hm => h.hasDelivery (hc c hm),
      h.hasDelivery hd, h.hasTranscript ht⟩
  | claimed now candidate => exact h.hasDelivery hk
  | confirming id => exact h.hasDelivery hk
  | _ => trivial

end Growth

namespace SqliteStore
variable {s : Store}

theorem requireRecording_known {x : String} (h : s.HasRecording x) : (requireRecording x).Transacts s
    (fun r s' => s' = s ∧ ∃ q, s.recording x = some q ∧ r = q.toRecording) fun _ => False := by
  obtain ⟨q, hq⟩ := h
  exact ensures_requireRecording hq ⟨rfl, rfl, q, hq, rfl⟩

theorem requireTranscript_known {x : String} (h : s.HasTranscript x) :
    (requireTranscript x).Transacts s (fun r s' => s' = s ∧ s.transcript x = some r) fun _ => False := by
  obtain ⟨q, hq⟩ := h
  exact ensures_requireTranscript hq ⟨rfl, rfl, hq⟩

theorem requireDelivery_known {x : String} (h : s.HasDelivery x) : (requireDelivery x).Transacts s
    (fun r s' => s' = s ∧ ∃ q, s.delivery x = some q ∧ r = q.toDelivery) fun _ => False := by
  obtain ⟨q, hq⟩ := h
  exact ensures_requireDelivery hq ⟨rfl, rfl, q, hq, rfl⟩

/-- Only an identifier that is taken refuses the claim of an attempt. -/
theorem startTranscriptionAttempt_known {a x : String} {now : Int} (hx : s.HasRecording x) :
    (startTranscriptionAttempt a x now).Transacts s (fun _ _ => True)
      fun _ => ∃ b ∈ s.transcriptionAttempts.rows, b.id = a := by
  apply ensures_begin
  apply ensures_claimAttempt
  · exact fun _ => ⟨rfl, trivial⟩
  · intro e he
    rcases Store.checked_error he with ⟨b, hb, hc⟩ | hp
    · exact ⟨rfl, b, hb, by simpa [Attempt.clash, AttemptTable.started] using hc⟩
    · obtain ⟨r, hr⟩ := hx
      simp [AttemptTable.started, hr] at hp
  intro w hfree hw
  obtain ⟨hv, -, hr⟩ := Store.insertTranscriptionAttempt_ok hw
  obtain ⟨r, hr⟩ := hx
  have hrw : w.recording x = some r := (recording_eq hv x).trans hr
  have hrows : w.transcriptionAttempts.attemptsOf x = s.transcriptionAttempts.attemptsOf x ++
      [AttemptTable.started a x (nextNumber s.transcriptionAttempts x) now] := by
    have := congrFun (congrArg View.transcriptionAttempts hv) x
    exact this.trans (Function.update_self ..)
  apply ensures_retryAnchor hrw
  · rw [hrows]
    exact Attempt.earliestStart_append
  intro first hfirst
  apply ensures_commit
  exact ⟨rfl, trivial⟩

theorem startDeliveryAttempt_known {a x : String} {now : Int} (hx : s.HasDelivery x) :
    (startDeliveryAttempt a x now).Transacts s (fun _ _ => True)
      fun _ => ∃ b ∈ s.deliveryAttempts.rows, b.id = a := by
  apply ensures_begin
  apply ensures_claimAttempt
  · exact fun _ => ⟨rfl, trivial⟩
  · intro e he
    rcases Store.checked_error he with ⟨b, hb, hc⟩ | hp
    · exact ⟨rfl, b, hb, by simpa [Attempt.clash, AttemptTable.started] using hc⟩
    · obtain ⟨d, hd⟩ := hx
      simp [AttemptTable.started, hd] at hp
  intro w hfree hw
  apply ensures_commit
  exact ⟨rfl, trivial⟩

end SqliteStore

/-- Operations lose no row. -/
theorem Operation.foldl_grows (ops : List Operation) (s : Store) :
    s.Grows (fun _ => True) (ops.foldl apply s) := by
  induction ops generalizing s with
  | nil => exact Store.grows_refl s
  | cons op ops ih => exact (apply_grows s op (by cases op <;> trivial)).trans (ih _)

namespace Action
variable {κ : Type} {s : Store} {tx : Query (κ × List Event)} {known : Store → κ → Prop} {taken : Prop}

/-- The action does not fail, unless an identifier is `taken`; after it the tick knows
what `known` says of the rows it has read, which are still there. -/
def Succeeds (a : Action κ) (s : Store) (known : Store → κ → Prop) (taken : Prop) : Prop :=
  (∃ s' next events, a.run s = (s', .ok (next, events)) ∧
    (s.Grows (fun _ => True) s' → known s' next)) ∨ taken ∧ ∃ e, a.run s = (s, .error e)

theorem Operates.grows {a : Action κ} (h : a.Operates) (s : Store) :
    s.Grows (fun _ => True) (a.run s).1 := by
  obtain ⟨ops, -, ho⟩ := h.run s
  rw [ho]
  exact Operation.foldl_grows ops s

theorem succeeds_local {next : κ} {events : List Event} (h : known s next) :
    (Action.local next events).Succeeds s known taken :=
  .inl ⟨s, next, events, rfl, fun _ => h⟩

theorem succeeds_transact (h : tx.Transacts s
    (fun r s' => s.Grows (fun _ => True) s' → known s' r.1) fun _ => taken) :
    (transact tx).Succeeds s known taken := by
  rcases h.run_cases with ⟨r, s', hr, hk⟩ | ⟨e, hr, hbad⟩
  · exact .inl ⟨s', r.1, r.2, by simp only [transact, Action.run, hr], hk⟩
  · exact .inr ⟨hbad, e, by simp only [transact, Action.run, hr]⟩

/-- A read of a row that is there. -/
theorem succeeds_read {α : Type} {q : Query α} {f : α → κ × List Event} {ok : α → Store → Prop}
    (h : q.Transacts s (fun a s' => s' = s ∧ ok a s') fun _ => False)
    (hk : ∀ a, ok a s → known s (f a).1) : (transact (do pure (f (← q)))).Succeeds s known taken := by
  refine succeeds_transact ((h.returning f).weaken ?_ fun _ => False.elim)
  rintro _ s' ⟨a, rfl, rfl, ha⟩ _
  exact hk a ha

end Action

namespace Store
variable {s : Store} {x : String}

theorem hasRecording_of_mem {r : RecordingRow} (h : r ∈ s.recordings.rows) : s.HasRecording r.id :=
  ⟨r, recording_of_mem h⟩

theorem hasDelivery_of_mem {d : DeliveryRow} (h : d ∈ s.deliveries.rows) : s.HasDelivery d.id :=
  ⟨d, delivery_of_mem h⟩

theorem hasRecording_retryRow {row : TranscriptionRetryRow} (h : row ∈ s.transcriptionRetryRows) :
    s.HasRecording row.recordingId := by
  obtain ⟨r, hr, he⟩ := List.mem_filterMap.mp h
  obtain ⟨a, -, he⟩ := Option.bind_eq_some_iff.mp he
  obtain ⟨f, -, rfl⟩ := Option.map_eq_some_iff.mp he
  exact hasRecording_of_mem (List.mem_filter.mp ((List.mem_insertionSort _).mp hr)).1

theorem hasDelivery_candidateRow {row : DeliveryCandidateRow} (h : row ∈ s.deliveryCandidateRows) :
    s.HasDelivery row.deliveryId := by
  obtain ⟨d, hd, rfl⟩ := List.mem_map.mp h
  exact hasDelivery_of_mem (List.mem_filter.mp ((List.mem_insertionSort _).mp hd)).1

end Store

section Ticks
variable {s : Store} {id : String} {now : Int} {taken : Prop}

/-- A Recording whose attempt is in flight. -/
def Store.InTranscription (s : Store) (x : String) : Prop :=
  ∃ r, s.recording x = some r ∧ r.status = .transcribing ∧ s.transcript x = none

/-- A Delivery whose attempt is in flight. -/
def Store.InDelivery (s : Store) (x : String) : Prop :=
  ∃ d r, s.delivery x = some d ∧ s.recording d.recordingId = some r ∧ r.status = .delivering

theorem Transcription.record_succeeds {recording : Recording} {a : String}
    {start : TranscriptionAttemptStart} {t : Int} {result : Except WorkerFailure TranscriptionOutput}
    (h : s.InTranscription recording.id) :
    (transact (record recording a start t result)).Succeeds s (fun s' pc => pc.Known s') taken := by
  obtain ⟨r, hr, hst, ht⟩ := h
  have hx : s.HasRecording recording.id := ⟨r, hr⟩
  have fails : ∀ code message, (transact (do
      failTranscriptionTx a recording.id t code message
      pure (Pc.confirmingFailure recording.id,
        [Event.finished (.transcription recording.id) a t .terminal]) :
          Query (Pc × List Event))).Succeeds s (fun s' pc => pc.Known s') taken := by
    intro code message
    refine Action.succeeds_transact ((failTranscriptionTx_transacts.returning fun _ => _).weaken ?_
      fun _ hbad => absurd ⟨r, hr, hst⟩ hbad)
    rintro _ s' ⟨_, rfl, _⟩ hg
    exact hg.hasRecording hx
  match result with
  | .ok output =>
    refine Action.succeeds_transact ((succeedTranscriptionTx_transacts.returning fun _ => _).weaken ?_
      fun _ hbad => absurd ⟨r, hr, hst, ht⟩ hbad)
    rintro _ s' ⟨_, rfl, q, _, _, _, hv⟩ _
    exact ⟨_, (congrFun (congrArg View.transcript hv) _).trans (Function.update_self ..)⟩
  | .error (.terminal code message) => exact fails code message
  | .error (.retryable code message) =>
    unfold record
    dsimp only
    split
    · exact fails code message
    · refine Action.succeeds_transact
        ((retryTranscription_transacts.returning fun _ => _).weaken ?_ fun _ => False.elim)
      rintro _ s' ⟨_, rfl, _⟩ _
      trivial

/-- No step of a Transcription tick fails but on an attempt id that is taken. -/
theorem Transcription.action_succeeds {pc : Pc} {answer : Except WorkerFailure TranscriptionOutput}
    (hk : pc.Known s) (ho : ∀ recording a start t result, pc = .answered recording a start t result →
      s.InTranscription recording.id) :
    (action ⟨now, id, answer⟩ pc).Succeeds s (fun s' pc => pc.Known s')
      (∃ b ∈ s.transcriptionAttempts.rows, b.id = id) := by
  cases pc with
  | ready last => exact Action.succeeds_local trivial
  | began t =>
    refine Action.succeeds_transact
      ((claimReceivedTx_transacts.weaken (fun _ _ h => h) fun _ => False.elim).andThen ?_)
    rintro o s' (⟨rfl, rfl, _⟩ | ⟨x, r, rfl, hr, _⟩)
    · exact ⟨rfl, fun _ => trivial⟩
    · exact ⟨rfl, fun hg => hg.hasRecording ⟨r, hr⟩⟩
  | confirming t x =>
    refine Action.succeeds_read (requireRecording_known hk) ?_
    rintro _ ⟨q, hq, rfl⟩
    exact ⟨q, (Store.recording_id hq).symm ▸ hq⟩
  | unclaimed t =>
    refine Action.succeeds_read query_transacts ?_
    rintro _ rfl
    exact ⟨fun row hm => Store.hasRecording_retryRow hm, fun c hm => by cases hm⟩
  | loading t rows candidates =>
    obtain ⟨hrows, hcands⟩ := hk
    cases rows with
    | nil =>
      unfold action pickDueRetry
      dsimp only
      cases hp : candidates.find? (isDue t) with
      | none => exact Action.succeeds_local trivial
      | some c => exact Action.succeeds_local (hcands c (List.mem_of_find?_eq_some hp))
    | cons row rows =>
      refine Action.succeeds_read (requireRecording_known (hrows row (by simp))) ?_
      rintro _ ⟨q, hq, rfl⟩
      refine ⟨fun row' hm => hrows row' (List.mem_cons_of_mem _ hm), fun c hm => ?_⟩
      rcases List.mem_append.mp hm with hm | hm
      · exact hcands c hm
      · rw [List.mem_singleton.mp hm]
        exact ⟨q, (Store.recording_id hq).symm ▸ hq⟩
  | claimed t recording seen =>
    refine Action.succeeds_transact ((startTranscriptionAttempt_known hk).andThen ?_)
    rintro o s' -
    cases o <;> exact ⟨rfl, fun _ => trivial⟩
  | started recording a start => exact Action.succeeds_local trivial
  | calling recording a start => exact Action.succeeds_local trivial
  | answered recording a start t result => exact record_succeeds (ho _ _ _ _ _ rfl)
  | confirmingTranscript x => exact Action.succeeds_read (requireTranscript_known hk) fun _ _ => trivial
  | confirmingFailure x => exact Action.succeeds_read (requireRecording_known hk) fun _ _ => trivial

/-- No step of a routing tick fails but on a Delivery id that is taken. -/
theorem Routing.action_succeeds {route : Recording → RoutingDecision} {pc : Pc} (hk : pc.Known s)
    (hl : s.view.Lifecycle) : (action route ⟨now, id, ()⟩ pc).Succeeds s (fun s' pc => pc.Known s')
      (∃ d ∈ s.deliveries.rows, d.id = id) := by
  cases pc with
  | ready last => exact Action.succeeds_local trivial
  | began t =>
    rcases @Routing.began_run s route ⟨now, id, ()⟩ t with ⟨x, ho, hrun⟩ | hrun
    · obtain ⟨r, hr, -⟩ := Store.oldestWithStatus_some ho
      exact .inl ⟨_, _, _, hrun, fun _ => ⟨r, hr⟩⟩
    · exact .inl ⟨_, _, _, hrun, fun _ => trivial⟩
  | confirming t x =>
    refine Action.succeeds_read (requireRecording_known hk) ?_
    rintro _ ⟨q, hq, rfl⟩
    exact ⟨q, (Store.recording_id hq).symm ▸ hq⟩
  | deciding t recording =>
    unfold action
    dsimp only
    split
    · exact Action.succeeds_local hk
    · exact Action.succeeds_local trivial
  | backlogging t x =>
    rcases @Routing.backlogging_run s route ⟨now, id, ()⟩ t x with
      ⟨r, s₁, -, -, -, hrun⟩ | ⟨r, -, -, hrun⟩ | ⟨hn, -⟩
    · exact .inl ⟨_, _, _, hrun, fun hg => hg.hasRecording hk⟩
    · exact .inl ⟨_, _, _, hrun, fun _ => trivial⟩
    · obtain ⟨r, hr⟩ := hk
      cases hn.symm.trans hr
  | selecting t x sink =>
    have ht : (routeToSinkTx (newDelivery id x sink t)).Transacts s (fun claimed s' => claimed = false ∨
        s'.HasDelivery id) fun _ => ∃ d ∈ s.deliveries.rows, d.id = id := by
      refine routeToSinkTx_transacts.weaken ?_ ?_
      · rintro claimed s' (⟨rfl, -⟩ | ⟨rfl, r, -, hsel⟩)
        · exact .inl rfl
        · exact .inr ⟨_, hsel.delivery⟩
      · -- A Recording in routing has no Delivery yet.
        rintro e ⟨⟨r, hr, hst⟩, ⟨d, hd, hid | hrec⟩, -⟩
        · exact ⟨d, hd, hid⟩
        · have hstage := hl x
          change Stage (s.recording x) (s.transcript x) (s.deliveryFor x) at hstage
          rw [show s.recording x = some r from hr] at hstage
          have hnone := (hstage.transcribed (.inl hst)).2.1
          have hsome := Store.deliveryFor_of_mem hd
          rw [show d.recordingId = x from hrec] at hsome
          cases hnone.symm.trans hsome
    refine Action.succeeds_transact (ht.andThen ?_)
    rintro claimed s' hc
    cases claimed with
    | true => exact ⟨rfl, fun _ => hc.resolve_left (by simp)⟩
    | false => exact ⟨rfl, fun _ => trivial⟩
  | confirmingBacklog x => exact Action.succeeds_read (requireRecording_known hk) fun _ _ => trivial
  | confirmingDelivery x => exact Action.succeeds_read (requireDelivery_known hk) fun _ _ => trivial

theorem Delivering.record_succeeds {candidate : DeliveryCandidate} {a : String} {t : Int}
    {result : Except WorkerFailure Unit} (h : s.InDelivery candidate.delivery.id) :
    (transact (record candidate a t result)).Succeeds s (fun s' pc => pc.Known s') taken := by
  obtain ⟨d, r, hd, hr, hst⟩ := h
  have hx : s.HasDelivery candidate.delivery.id := ⟨d, hd⟩
  have fails : ∀ message, (transact (do
      failDeliveryTx a candidate.delivery.id t none message
      pure (Pc.confirming candidate.delivery.id,
        [Event.finished (.delivery candidate.delivery.id) a t .terminal]) :
          Query (Pc × List Event))).Succeeds s (fun s' pc => pc.Known s') taken := by
    intro message
    refine Action.succeeds_transact ((failDeliveryTx_transacts.returning fun _ => _).weaken ?_
      fun _ hbad => absurd ⟨d, r, hd, hr, hst⟩ hbad)
    rintro _ s' ⟨_, rfl, _⟩ hg
    exact hg.hasDelivery hx
  match result with
  | .ok () =>
    refine Action.succeeds_transact ((succeedDeliveryTx_transacts.returning fun _ => _).weaken ?_
      fun _ hbad => absurd ⟨d, r, hd, hr, hst⟩ hbad)
    rintro _ s' ⟨_, rfl, _⟩ hg
    exact hg.hasDelivery hx
  | .error (.terminal code message) => exact fails message
  | .error (.retryable code message) =>
    unfold record
    dsimp only
    split
    · exact fails message
    · refine Action.succeeds_transact ((retryDelivery_transacts.returning fun _ => _).weaken ?_ fun _ hbad => ?_)
      · rintro _ s' ⟨_, rfl, _⟩ _
        trivial
      · cases hbad.symm.trans hd

/-- No step of a Delivery tick fails but on an attempt id that is taken. -/
theorem Delivering.action_succeeds {pc : Pc} {answer : Except WorkerFailure Unit} (hk : pc.Known s)
    (hl : s.view.Lifecycle) (ho : ∀ candidate a t result, pc = .answered candidate a t result →
      s.InDelivery candidate.delivery.id) :
    (action ⟨now, id, answer⟩ pc).Succeeds s (fun s' pc => pc.Known s')
      (∃ b ∈ s.deliveryAttempts.rows, b.id = id) := by
  cases pc with
  | ready last => exact Action.succeeds_local trivial
  | began t =>
    refine Action.succeeds_read query_transacts ?_
    rintro _ rfl
    exact ⟨fun row hm => Store.hasDelivery_candidateRow hm, fun c hm => by cases hm⟩
  | loading t rows candidates =>
    obtain ⟨hrows, hcands⟩ := hk
    cases rows with
    | nil =>
      unfold action pickDueDelivery
      dsimp only
      cases hp : candidates.find? (isDue t) with
      | none => exact Action.succeeds_local trivial
      | some c => exact Action.succeeds_local (hcands c (List.mem_of_find?_eq_some hp))
    | cons row rows =>
      refine Action.succeeds_read (requireDelivery_known (hrows row (by simp))) ?_
      rintro _ ⟨d, hd, rfl⟩
      obtain ⟨r, tr, hr, htr⟩ := Store.parents_of_delivery hl hd
      have hid : d.id = row.deliveryId := beq_iff_eq.mp (Table.find_mem hd).2
      exact ⟨fun row' hm => hrows row' (List.mem_cons_of_mem _ hm), hcands, ⟨d, hid.symm ▸ hd⟩,
        ⟨r, hr⟩, ⟨tr, htr⟩⟩
  | loadingRecording t row rows candidates delivery =>
    obtain ⟨hrows, hcands, hd, hr, ht⟩ := hk
    exact Action.succeeds_read (requireRecording_known hr) fun _ _ => ⟨hrows, hcands, hd, ht⟩
  | loadingTranscript t row rows candidates delivery recording =>
    obtain ⟨hrows, hcands, hd, ht⟩ := hk
    refine Action.succeeds_read (requireTranscript_known ht) fun _ _ => ⟨hrows, fun c hm => ?_⟩
    rcases List.mem_append.mp hm with hm | hm
    · exact hcands c hm
    · rw [List.mem_singleton.mp hm]
      exact hd
  | claimed t candidate =>
    refine Action.succeeds_transact ((startDeliveryAttempt_known hk).andThen ?_)
    rintro o s' -
    cases o <;> exact ⟨rfl, fun _ => trivial⟩
  | started candidate a => exact Action.succeeds_local trivial
  | calling candidate a => exact Action.succeeds_local trivial
  | answered candidate a t result => exact record_succeeds (ho _ _ _ _ rfl)
  | confirming x => exact Action.succeeds_read (requireDelivery_known hk) fun _ _ => trivial

end Ticks

namespace Service
variable {ι : Type} {c c' : Service ι} {route : Recording → RoutingDecision} {now : Int} {input : Input ι}
variable {events trace : List Event} {b : Board ι String} {d : Board ι Int}

/-- The input draws an identifier that a row of its table has already. -/
def Reuses (c : Service ι) : Input ι → Prop
  | .transcribe _ id _ => ∃ a ∈ c.store.transcriptionAttempts.rows, a.id = id
  | .route _ id => ∃ e ∈ c.store.deliveries.rows, e.id = id
  | .deliver _ id _ => ∃ a ∈ c.store.deliveryAttempts.rows, a.id = id
  | _ => False

structure Informed (c : Service ι) : Prop where
  transcribers : ∀ i, (c.transcribers i).Known c.store
  routers : ∀ i, (c.routers i).Known c.store
  deliverers : ∀ i, (c.deliverers i).Known c.store

theorem initial_informed : (initial : Service ι).Informed :=
  ⟨fun _ => trivial, fun _ => trivial, fun _ => trivial⟩

theorem Informed.grows {P : String → Prop} {s : Store} (h : c.Informed) (hg : c.store.Grows P s) :
    ({ c with store := s } : Service ι).Informed :=
  ⟨fun i => (h.transcribers i).grows hg, fun i => (h.routers i).grows hg,
    fun i => (h.deliverers i).grows hg⟩

theorem Informed.passes (h : c.Informed) (now : Int) : ({ c with clock := now } : Service ι).Informed :=
  ⟨h.transcribers, h.routers, h.deliverers⟩

theorem stopped_informed : c.stopped.Informed :=
  ⟨fun _ => trivial, fun _ => trivial, fun _ => trivial⟩

/-- The attempt whose answer a tick holds is in flight. -/
theorem Accounted.inTranscription (h : c.Accounted trace b d) {i : ι} {recording : Recording}
    {a : String} {start : TranscriptionAttemptStart} {t : Int}
    {result : Except WorkerFailure TranscriptionOutput}
    (hpc : c.transcribers i = .answered recording a start t result) :
    c.store.InTranscription recording.id := by
  have hst := h.refines.transcribers i
  have hkeeps := h.transcription.keeps i
  rw [hpc] at hst
  generalize b.slots i = slot at hst hkeeps
  cases hst
  obtain ⟨⟨before, row, hr, -, hf, -⟩, -⟩ := hkeeps
  have hactive := Ledger.open_active (h.transcription.wellFormed recording.id)
    fun hc => hc row (by simp [hr]) hf
  rw [← h.refines.transcriptions] at hactive
  obtain ⟨q, hq⟩ := Store.recording_of_active hactive
  have hphase : q.status.transcription = .active := by
    change (c.store.view.transcriptionStage recording.id).1 = _ at hactive
    rwa [View.transcriptionStage_of_recording (v := c.store.view) hq] at hactive
  have hqst : q.status = .transcribing := by
    cases hs : q.status <;> rw [hs] at hphase <;> first | rfl | cases hphase
  have hstage := h.refines.lifecycle recording.id
  change Stage (c.store.recording recording.id) _ _ at hstage
  rw [hq] at hstage
  exact ⟨q, hq, hqst, (hstage.undecided (.inr (.inl hqst))).1⟩

theorem Accounted.inDelivery (h : c.Accounted trace b d) {i : ι} {candidate : DeliveryCandidate}
    {a : String} {t : Int} {result : Except WorkerFailure Unit}
    (hpc : c.deliverers i = .answered candidate a t result) :
    c.store.InDelivery candidate.delivery.id := by
  have hst := h.refines.deliverers i
  have hkeeps := h.delivery.keeps i
  rw [hpc] at hst
  generalize d.slots i = slot at hst hkeeps
  cases hst
  obtain ⟨⟨before, row, hr, -, hf, -⟩, -⟩ := hkeeps
  have hactive := Ledger.open_active (h.delivery.wellFormed candidate.delivery.id)
    fun hc => hc row (by simp [hr]) hf
  rw [← h.refines.deliveries] at hactive
  obtain ⟨e, he⟩ := Store.delivery_of_active hactive
  have hphase : e.status.phase = .active := by
    change (c.store.view.deliveryStage candidate.delivery.id).1 = _ at hactive
    rwa [View.deliveryStage_of_delivery (v := c.store.view) he] at hactive
  have hest : e.status = .delivering := by
    cases hs : e.status <;> rw [hs] at hphase <;> first | rfl | cases hphase
  obtain ⟨r, _, hrec, -⟩ := Store.parents_of_delivery h.refines.lifecycle he
  have hstage := h.refines.lifecycle e.recordingId
  change Stage (c.store.recording e.recordingId) _ (c.store.deliveryFor e.recordingId) at hstage
  rw [hrec, Store.deliveryFor_of_delivery he] at hstage
  exact ⟨e, r, he, hrec, hstage.status_eq.trans (congrArg recordingStatusOf hest)⟩

/-- A tick's step that succeeds moves the worker on; one that does not ends the process. -/
theorem settle_succeeds {κ : Type} {a : Action κ} {known : Store → κ → Prop} {taken : Prop}
    (h : a.Succeeds c.store known taken) (ho : a.Operates) (place : Service ι → κ → Service ι) :
    (∃ s' next events, c.settle place (a.run c.store) = (place { c with store := s' } next, events) ∧
      c.store.Grows (fun _ => True) s' ∧ known s' next) ∨
    (taken ∧ c.settle place (a.run c.store) = (c.stopped, [])) := by
  rcases h with ⟨s', next, events, hrun, hk⟩ | ⟨ht, e, hrun⟩
  · have hg := ho.grows c.store
    rw [hrun] at hg ⊢
    exact .inl ⟨s', next, events, rfl, hg, hk hg⟩
  · rw [hrun]
    exact .inr ⟨ht, rfl⟩

theorem answer_grows {α : Type} {q : Query α} {shows : α → List Event}
    (hq : q.Always (Store.Grows fun _ => True)) :
    ∃ s', (c.answer shows (q.run c.store)).1 = { c with store := s' } ∧
      c.store.Grows (fun _ => True) s' := by
  have hg := hq.run Store.grows_refl Store.Grows.trans c.store
  cases hr : q.run c.store with
  | mk s' o =>
    rw [hr] at hg
    cases o <;> exact ⟨s', rfl, hg⟩

theorem Informed.answered {α : Type} {q : Query α} {shows : α → List Event} {taken : Prop}
    (h : c.Informed) (hq : q.Always (Store.Grows fun _ => True))
    (he : ({ c with clock := now } : Service ι).answer shows (q.run c.store) = (c', events)) :
    c'.Informed ∧ (c.running = true → c'.running = true ∨ taken) := by
  obtain ⟨s', hs, hg⟩ := @answer_grows ι { c with clock := now } α q shows hq
  rw [show ({ c with clock := now } : Service ι).store = c.store from rfl, he] at hs
  cases hs
  exact ⟨(h.passes now).grows hg, fun hrun => .inl hrun⟩

variable [DecidableEq ι]

theorem Informed.transcriber_moved (h : c.Informed) {i : ι} {pc : Transcription.Pc} (hpc : pc.Known c.store) :
    (c.onTranscriber i pc).Informed := by
  refine ⟨fun j => ?_, h.routers, h.deliverers⟩
  by_cases hj : j = i
  · subst j
    simpa only [Service.onTranscriber, update_self] using hpc
  · simpa only [Service.onTranscriber, update_of_ne hj] using h.transcribers j

theorem Informed.router_moved (h : c.Informed) {i : ι} {pc : Routing.Pc} (hpc : pc.Known c.store) :
    (c.onRouter i pc).Informed := by
  refine ⟨h.transcribers, fun j => ?_, h.deliverers⟩
  by_cases hj : j = i
  · subst j
    simpa only [Service.onRouter, update_self] using hpc
  · simpa only [Service.onRouter, update_of_ne hj] using h.routers j

theorem Informed.deliverer_moved (h : c.Informed) {i : ι} {pc : Delivering.Pc} (hpc : pc.Known c.store) :
    (c.onDeliverer i pc).Informed := by
  refine ⟨h.transcribers, h.routers, fun j => ?_⟩
  by_cases hj : j = i
  · subst j
    simpa only [Service.onDeliverer, update_self] using hpc
  · simpa only [Service.onDeliverer, update_of_ne hj] using h.deliverers j

/-- No step but a crash, the refusal of a transaction that reads first, or a worker's whose
identifier is taken ends the process. -/
theorem Informed.step (hi : c.Informed) (ha : c.Accounted trace b d)
    (hs : c.step route now input = some (c', events)) :
    c'.Informed ∧ (c.running = true → c'.running = true ∨
      input = .crash ∨ (∃ l i, input = .refuse l i ∧ c.readsFirst l i = true) ∨ c.Reuses input) := by
  obtain ⟨⟨-, -, hadmits⟩, he⟩ := step_some hs
  cases input with
  | transcribe i id reply =>
    have hsucc := @Transcription.action_succeeds c.store id now (c.transcribers i) reply
      (hi.transcribers i) fun _ _ _ _ _ => ha.inTranscription
    rcases @settle_succeeds ι { c with clock := now } _ _ _ _ hsucc
      (Transcription.action_operates _ _) (onTranscriber · i) with ⟨s', next, _, hr, hg, hk⟩ | ⟨ht, hr⟩
    · cases hr.symm.trans he
      exact ⟨Informed.transcriber_moved ((hi.passes now).grows hg) hk, fun hrun => .inl hrun⟩
    · cases hr.symm.trans he
      exact ⟨stopped_informed, fun _ => .inr (.inr (.inr ht))⟩
  | route i id =>
    have hsucc := @Routing.action_succeeds c.store id now route (c.routers i) (hi.routers i)
      ha.refines.lifecycle
    rcases @settle_succeeds ι { c with clock := now } _ _ _ _ hsucc
      (Routing.action_operates _ _ _) (onRouter · i) with ⟨s', next, _, hr, hg, hk⟩ | ⟨ht, hr⟩
    · cases hr.symm.trans he
      exact ⟨Informed.router_moved ((hi.passes now).grows hg) hk, fun hrun => .inl hrun⟩
    · cases hr.symm.trans he
      exact ⟨stopped_informed, fun _ => .inr (.inr (.inr ht))⟩
  | deliver i id reply =>
    have hsucc := @Delivering.action_succeeds c.store id now (c.deliverers i) reply
      (hi.deliverers i) ha.refines.lifecycle fun _ _ _ _ => ha.inDelivery
    rcases @settle_succeeds ι { c with clock := now } _ _ _ _ hsucc
      (Delivering.action_operates _ _) (onDeliverer · i) with ⟨s', next, _, hr, hg, hk⟩ | ⟨ht, hr⟩
    · cases hr.symm.trans he
      exact ⟨Informed.deliverer_moved ((hi.passes now).grows hg) hk, fun hrun => .inl hrun⟩
    · cases hr.symm.trans he
      exact ⟨stopped_informed, fun _ => .inr (.inr (.inr ht))⟩
  | upload new => exact hi.answered insertRecording_grows he
  | manualRoute input => exact hi.answered (manualRoute_grows trivial) he
  | manualRetryTranscription input => exact hi.answered manualRetryTranscription_grows he
  | manualRetryDelivery input => exact hi.answered manualRetryDelivery_grows he
  | refuse l i =>
    cases he
    exact ⟨stopped_informed, fun _ => .inr (.inr (.inl ⟨l, i, rfl, hadmits.2⟩))⟩
  | crash =>
    cases he
    exact ⟨stopped_informed, fun _ => .inr (.inl rfl)⟩
  | recover =>
    have hg : c.store.Grows (fun _ => True) ((recoverAbandonedAttempts now).run c.store).1 :=
      recoverAbandonedAttempts_grows.run Store.grows_refl Store.Grows.trans c.store
    cases he
    exact ⟨⟨fun i => (hi.transcribers i).grows hg, fun i => (hi.routers i).grows hg,
      fun i => (hi.deliverers i).grows hg⟩, fun _ => .inl rfl⟩

theorem Runs.informed [Subsingleton ι] (hr : Run route trace c) : c.Informed := by
  induction hr with
  | start => exact initial_informed
  | step now input hr' _ hs ih =>
    obtain ⟨-, b, d, ha, -⟩ := Runs.undisturbed hr'
    exact (ih.step ha hs).1

/-- In every run the process goes down only when it is killed, when the database is busy and
refuses a transaction of a worker that reads first its first write, or when a worker draws an
identifier that is taken. -/
theorem stopped_causes [Subsingleton ι] (hr : Run route trace c)
    (hs : c.step route now input = some (c', events)) (hrun : c.running = true)
    (hstop : c'.running = false) :
    input = .crash ∨ (∃ l i, input = .refuse l i ∧ c.readsFirst l i = true) ∨ c.Reuses input := by
  obtain ⟨-, b, d, ha, -⟩ := hr.undisturbed
  rcases ((Runs.informed hr).step ha hs).2 hrun with h | h
  · cases hstop.symm.trans h
  · exact h

-- The claim of a tick that has begun is refused.
example : ((initial : Process).play toNotes [(0, .recover), (0, .upload firstUpload),
    (1, .transcribe () "t1" (.error (.terminal "bad" "no audio"))), (1, .refuse .transcription ())]).map
      (·.1.running) = some false := by
  decide +kernel

/-- The second Recording's attempt draws the identifier of the first one's. -/
def sameAttemptId : List (Int × Input Unit) :=
  (0, .recover) :: (0, .upload firstUpload) ::
    everySecond 8 1 (.transcribe () "t1" (.error (.terminal "bad" "no audio"))) ++
    (Duration.seconds 9, .upload { firstUpload with id := "r2", clientRecordingId := "2" }) ::
    everySecond 3 20 (.transcribe () "t1" (.ok ⟨"scribe", "hello", "\x7b\x7d", none, none⟩))

theorem same_attempt_id_stops : ∃ c trace c' events,
    initial.play toNotes sameAttemptId = some (c, trace) ∧
    c.step toNotes (Duration.seconds 30) (.transcribe () "t1" (.ok ⟨"", "", "", none, none⟩)) = some (c', events) ∧
    c'.running = false ∧ c.Reuses (.transcribe () "t1" (.ok ⟨"", "", "", none, none⟩)) := by
  have hp : ((initial.play toNotes sameAttemptId).bind fun r =>
      (r.1.step toNotes (Duration.seconds 30) (.transcribe () "t1" (.ok ⟨"", "", "", none, none⟩))).map
        fun q => (r.1.running, q.1.running)) = some (true, false) := by
    decide +kernel
  obtain ⟨⟨c, trace⟩, hplay, hstep⟩ := Option.bind_eq_some_iff.mp hp
  obtain ⟨⟨c', events⟩, hs, he⟩ := Option.map_eq_some_iff.mp hstep
  obtain ⟨hrun, hstop⟩ := Prod.mk.inj he
  rcases stopped_causes (run_of_play hplay) hs hrun hstop with h | ⟨l, i, h, -⟩ | h
  · cases h
  · cases h
  · exact ⟨c, trace, c', events, hplay, hs, hstop, h⟩

end Service
end Telegraph
