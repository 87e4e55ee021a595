import Telegraph.Operation
import Telegraph.Proofs.Elsewhere
import Telegraph.Proofs.Lifecycle

namespace Telegraph
open Lib Program SqliteStore

/-- How a call of the store ended: it committed, found its claim taken, or was refused. -/
inductive Outcome where
  | committed
  | lost
  | refused (e : StorageError)
deriving DecidableEq, Repr

/-- Run one call; `lost` tells the returns that say the claim was taken. -/
def SqliteStore.perform {α : Type} (q : Query α) (lost : α → Bool) (s : Store) : Store × Outcome :=
  match q.run s with
  | (s', .ok a) => (s', if lost a then .lost else .committed)
  | (s', .error e) => (s', .refused e)

def RoutingOutcome.isLost : RoutingOutcome → Bool
  | selected _ => false
  | alreadyHandled => true

namespace Operation

/-- The state one operation leaves, and how it ended. -/
def perform (s : Store) : Operation → Store × Outcome
  | createRecording new => SqliteStore.perform (SqliteStore.createRecording new) (!·.created) s
  | claimReceivedForTranscription now =>
    SqliteStore.perform (SqliteStore.claimReceivedForTranscription now) (·.isNone) s
  | startTranscriptionAttempt a x now =>
    SqliteStore.perform (SqliteStore.startTranscriptionAttempt a x now) (·.isNone) s
  | succeedTranscription a t new =>
    SqliteStore.perform (SqliteStore.succeedTranscription a t new) (fun _ => false) s
  | retryTranscription a x t code message =>
    SqliteStore.perform (SqliteStore.retryTranscription a x t code message) (fun _ => false) s
  | failTranscription a x t code message =>
    SqliteStore.perform (SqliteStore.failTranscription a x t code message) (fun _ => false) s
  | storeTranscript new => SqliteStore.perform (SqliteStore.storeTranscript new) (fun _ => false) s
  | markBacklogged x t => SqliteStore.perform (SqliteStore.markBacklogged x t) (fun _ => false) s
  | routeToSink new => SqliteStore.perform (SqliteStore.routeToSink new) (·.isLost) s
  | selectSink new => SqliteStore.perform (SqliteStore.selectSink new) (fun _ => false) s
  | manualRoute input => SqliteStore.perform (SqliteStore.manualRoute input) (fun _ => false) s
  | startDeliveryAttempt a x now =>
    SqliteStore.perform (SqliteStore.startDeliveryAttempt a x now) (·.isNone) s
  | succeedDelivery a x t code =>
    SqliteStore.perform (SqliteStore.succeedDelivery a x t code) (fun _ => false) s
  | retryDelivery a x t code message =>
    SqliteStore.perform (SqliteStore.retryDelivery a x t code message) (fun _ => false) s
  | failDelivery a x t code message =>
    SqliteStore.perform (SqliteStore.failDelivery a x t code message) (fun _ => false) s
  | markDeliveryDelivered x t =>
    SqliteStore.perform (SqliteStore.markDeliveryDelivered x t) (fun _ => false) s
  | markDeliveryFailed x t error =>
    SqliteStore.perform (SqliteStore.markDeliveryFailed x t error) (fun _ => false) s
  | manualRetryTranscription input =>
    SqliteStore.perform (SqliteStore.manualRetryTranscription input) (fun _ => false) s
  | manualRetryDelivery input =>
    SqliteStore.perform (SqliteStore.manualRetryDelivery input) (fun _ => false) s
  | recoverAbandonedAttempts now =>
    SqliteStore.perform (SqliteStore.recoverAbandonedAttempts now) (fun _ => false) s

/-- The Recording an operation is about, in the state it starts from. -/
def named (s : Store) : Operation → Option String
  | createRecording new => some new.id
  | claimReceivedForTranscription _ => s.oldestWithStatus .received
  | startTranscriptionAttempt _ x _ | retryTranscription _ x _ _ _ | failTranscription _ x _ _ _ =>
    some x
  | succeedTranscription _ _ new | storeTranscript new => some new.recordingId
  | markBacklogged x _ => some x
  | routeToSink new | selectSink new => some new.recordingId
  | manualRoute input => some input.recordingId
  | startDeliveryAttempt _ x _ | succeedDelivery _ x _ _ | retryDelivery _ x _ _ _
  | failDelivery _ x _ _ _ | markDeliveryDelivered x _ | markDeliveryFailed x _ _ =>
    (s.delivery x).map (·.recordingId)
  | manualRetryTranscription input => some input.recordingId
  | manualRetryDelivery input => some input.recordingId
  | recoverAbandonedAttempts _ => none

/-- The attempt a finishing call is given is one of the Recording or Delivery it names. -/
def OwnAttempt (s : Store) : Operation → Prop
  | succeedTranscription a _ new =>
    ∀ b ∈ s.transcriptionAttempts.rows, b.id = a → b.parentId = new.recordingId
  | retryTranscription a x _ _ _ | failTranscription a x _ _ _ =>
    ∀ b ∈ s.transcriptionAttempts.rows, b.id = a → b.parentId = x
  | succeedDelivery a x _ _ | retryDelivery a x _ _ _ | failDelivery a x _ _ _ =>
    ∀ b ∈ s.deliveryAttempts.rows, b.id = a → b.parentId = x
  | _ => True

/-- The operator event an operation records. -/
def audit : Operation → List AuditEvent
  | manualRoute input => [⟨input.auditEventId, input.selectedAt, "operator", input.actorId,
      "manual_routing", some input.recordingId, sinkDetails input.sinkName⟩]
  | manualRetryTranscription input => [⟨input.auditEventId, input.at_, "operator", input.actorId,
      "manual_retry_transcription", some input.recordingId, "\x7b\x7d"⟩]
  | manualRetryDelivery input => [⟨input.auditEventId, input.at_, "operator", input.actorId,
      "manual_retry_delivery", some input.recordingId, "\x7b\x7d"⟩]
  | _ => []

theorem perform_apply (s : Store) (op : Operation) : (op.perform s).1 = op.apply s := by
  have run : ∀ {α : Type} (q : Query α) (lost : α → Bool),
      (SqliteStore.perform q lost s).1 = (q.run s).1 := by
    intro α q lost
    unfold SqliteStore.perform
    cases q.run s with
    | mk s' o => cases o <;> rfl
  cases op <;> exact run _ _

end Operation

namespace SqliteStore

/-- Refused or lost, the call leaves every table as it was. Committed, it changes the
rows of the named Recording only and adds `audit` to the audit log. -/
def LeavesNoTrace (s : Store) (named : Option String) (audit : List AuditEvent)
    (r : Store × Outcome) : Prop :=
  match r.2 with
  | .committed => Elsewhere named s r.1 ∧ r.1.auditEvents.rows = s.auditEvents.rows ++ audit
  | .lost | .refused _ => r.1 = s

variable {α : Type} {s : Store} {named : Option String} {audit : List AuditEvent} {x a : String}
  {t now : Int}

/-- What a call returns leaves: nothing changed where it lost, `audit` added elsewhere. -/
def Adds (s : Store) (lost : α → Bool) (audit : List AuditEvent) (r : α) (c : Connection Store) :
    Prop :=
  if lost r then c.committed = s else c.committed.auditEvents.rows = s.auditEvents.rows ++ audit

theorem perform_traceless {q : Query α} {lost : α → Bool} {ok : α → Store → Prop}
    {bad : StorageError → Prop} (ht : q.Transacts s ok bad)
    (hw : q.Within (Elsewhere named) ⟨s, none⟩ (Adds s lost audit)) :
    LeavesNoTrace s named audit (perform q lost s) := by
  obtain ⟨he, -, hadds⟩ := hw.exec Store.elsewhere_refl Store.elsewhere_trans
    (Store.elsewhere_refl s)
  unfold perform
  cases hr : q.run s with
  | mk s' o =>
    have hs : (q.exec ⟨s, none⟩).2.committed = s' ∧ (q.exec ⟨s, none⟩).1 = o := Prod.mk.inj hr
    cases o with
    | error e => exact (ht.run_error hr).1
    | ok r =>
      have hadd := hadds r hs.2
      rw [hs.1] at he
      unfold Adds at hadd
      rw [hs.1] at hadd
      cases hl : lost r with
      | true => simpa [LeavesNoTrace, hl] using hadd
      | false => simpa [LeavesNoTrace, hl] using And.intro he hadd

/-! One walk over the statements of each method. Where a statement picks rows by an
id that is not the Recording's, the fact used is that they all belong to it. -/

section Walks

theorem moved_elsewhere {w : Store} {next : RecordingStatus} :
    Elsewhere (some x) w (w.setStatus (·.id == x) next t) :=
  Store.elsewhere_updateRecordings (fun _ => rfl) fun r hr => by simpa using hr

theorem erred_elsewhere {w : Store} {message : String} :
    Elsewhere (some x) w (w.setError (·.id == x) message t) :=
  Store.elsewhere_updateRecordings (fun _ => rfl) fun r hr => by simpa using hr

theorem latestError_elsewhere {w : Store} {message : Option String} :
    Elsewhere (some x) w (w.setLatestError (·.id == x) message) :=
  Store.elsewhere_updateRecordings (fun _ => rfl) fun r hr => by simpa using hr

theorem sink_elsewhere {w : Store} {sink : String} :
    Elsewhere (some x) w (w.setSink (·.id == x) sink) :=
  Store.elsewhere_updateRecordings (fun _ => rfl) fun r hr => by simpa using hr

theorem window_elsewhere {w : Store} : Elsewhere (some x) w (w.setWindow (·.id == x) t) :=
  Store.elsewhere_updateRecordings (fun _ => rfl) fun r hr => by simpa using hr

/-- The Deliveries with the id of a known one are that one. -/
theorem delivery_elsewhere {w : Store} {d : DeliveryRow} {f : DeliveryRow → DeliveryRow}
    {h : Table.KeepsKeys DeliveryRow.clash f} (hf : ∀ d, (f d).recordingId = d.recordingId)
    (hd : w.delivery x = some d) :
    Elsewhere (some d.recordingId) w (w.updateDeliveries (·.id == x) f h) :=
  Store.elsewhere_updateDeliveries hf fun e he hx => by
    rw [Store.eq_of_delivery hd he (by simpa using hx)]

theorem finished_elsewhere {w : Store} {d : DeliveryRow} {status : AttemptStatus}
    {retryable : Bool} {code : Option Int} {message : Option String} (hd : w.delivery x = some d)
    (own : ∀ b ∈ w.deliveryAttempts.rows, b.id = a → b.parentId = x) :
    Elsewhere (some d.recordingId) w
      (w.finishDeliveries (·.id == a) t status retryable (fun _ => code) message) :=
  Store.elsewhere_finishDeliveries fun b hb ha e he hx => by
    rw [Store.eq_of_delivery hd he (hx.trans (own b hb ha))]

theorem adds_of_eq {lost : α → Bool} {r : α} {c : Connection Store} (hl : lost r = false)
    (h : c.committed.auditEvents = s.auditEvents) : Adds s lost [] r c := by
  simp [Adds, hl, h]

theorem adds_of_same {lost : α → Bool} {r : α} {c : Connection Store} (hl : lost r = true)
    (h : c.committed = s) : Adds s lost audit r c := by
  simp [Adds, hl, h]

theorem adds_event {lost : α → Bool} {r : α} {c : Connection Store} {e : AuditEvent}
    (hl : lost r = false) (h : c.committed.auditEvents.rows = s.auditEvents.rows ++ [e]) :
    Adds s lost [e] r c := by
  simp [Adds, hl, h]

theorem createRecording_adds {new : NewRecording} :
    (createRecording new).Within (Elsewhere (some new.id)) ⟨s, none⟩
      (Adds s (fun r => !r.created) []) := by
  apply within_bind
  intro v n hv
  obtain ⟨he, ha⟩ := Store.elsewhere_insertRecording (r := newRow new) rfl hv
  refine ⟨he, ?_⟩
  apply within_require
  intro recording _
  rcases Store.insertRecording_ok hv with ⟨rfl, hs, -⟩ | ⟨rfl, -, -⟩
  · exact adds_of_same rfl hs
  · exact adds_of_eq rfl ha

theorem claimReceivedForTranscription_adds :
    (claimReceivedForTranscription now).Within (Elsewhere (s.oldestWithStatus .received)) ⟨s, none⟩
      (Adds s (·.isNone) []) := by
  apply within_bind
  apply within_begin
  apply within_query
  simp only [Connection.view_open]
  cases s.oldestWithStatus .received with
  | none =>
    change Adds s Option.isNone [] (none : Option Recording) ⟨s, none⟩
    exact adds_of_same rfl rfl
  | some x =>
    refine within_guardedTransition fun r _ _ => ⟨moved_elsewhere, ?_⟩
    apply within_commit
    apply within_requireRecording
    exact fun _ _ => adds_of_eq rfl rfl

theorem storeTranscript_adds {new : NewTranscript} :
    (storeTranscript new).Within (Elsewhere (some new.recordingId)) ⟨s, none⟩
      (Adds s (fun _ => false) []) := by
  apply within_begin
  apply within_insertTranscript
  intro v hv
  obtain ⟨he, ha⟩ := Store.elsewhere_insertTranscript rfl hv
  refine ⟨he, within_guardedTransition fun r _ _ => ⟨moved_elsewhere, ?_⟩⟩
  apply within_commit
  exact within_requireTranscript_last fun _ _ => adds_of_eq rfl ha

theorem succeedTranscription_adds {new : NewTranscript}
    (own : ∀ b ∈ s.transcriptionAttempts.rows, b.id = a → b.parentId = new.recordingId) :
    (succeedTranscription a t new).Within (Elsewhere (some new.recordingId)) ⟨s, none⟩
      (Adds s (fun _ => false) []) := by
  apply within_bind
  apply within_begin
  apply within_finishTranscriptionAttempt
  · exact Store.elsewhere_finishTranscriptions fun b hb hx => congrArg some (own b hb hx)
  apply within_insertTranscript
  intro v hv
  obtain ⟨he, ha⟩ := Store.elsewhere_insertTranscript rfl hv
  refine ⟨he, within_guardedTransition fun r _ _ => ⟨moved_elsewhere, ?_⟩⟩
  exact within_requireTranscript_last fun _ _ => adds_of_eq rfl ha

theorem retryTranscription_adds {code message : String}
    (own : ∀ b ∈ s.transcriptionAttempts.rows, b.id = a → b.parentId = x) :
    (retryTranscription a x t code message).Within (Elsewhere (some x)) ⟨s, none⟩
      (Adds s (fun _ => false) []) := by
  apply within_begin
  apply within_finishTranscriptionAttempt
  · exact Store.elsewhere_finishTranscriptions fun b hb hx => congrArg some (own b hb hx)
  refine within_setRecordingError erred_elsewhere ?_
  change Adds s (fun _ => false) [] () ⟨_, none⟩
  exact adds_of_eq rfl rfl

theorem failTranscription_adds {code message : String}
    (own : ∀ b ∈ s.transcriptionAttempts.rows, b.id = a → b.parentId = x) :
    (failTranscription a x t code message).Within (Elsewhere (some x)) ⟨s, none⟩
      (Adds s (fun _ => false) []) := by
  apply within_bind
  apply within_begin
  apply within_finishTranscriptionAttempt
  · exact Store.elsewhere_finishTranscriptions fun b hb hx => congrArg some (own b hb hx)
  apply within_setRecordingError erred_elsewhere
  refine within_guardedTransition fun r _ _ => ⟨moved_elsewhere, ?_⟩
  exact within_requireRecording_last fun _ _ => adds_of_eq rfl rfl

theorem markBacklogged_adds :
    (markBacklogged x t).Within (Elsewhere (some x)) ⟨s, none⟩ (Adds s (fun _ => false) []) := by
  apply within_bind
  apply within_begin
  refine within_guardedTransition fun r _ _ => ⟨moved_elsewhere, ?_⟩
  exact within_requireRecording_last fun _ _ => adds_of_eq rfl rfl

theorem selectSink_adds {new : NewDelivery} :
    (selectSink new).Within (Elsewhere (some new.recordingId)) ⟨s, none⟩
      (Adds s (fun _ => false) []) := by
  apply within_begin
  apply within_insertDelivery
  intro v hv
  obtain ⟨he, ha⟩ := Store.elsewhere_insertDelivery (show some (deliveryRow new).recordingId = _ from rfl) hv
  refine ⟨he, sink_elsewhere, within_guardedTransition fun r _ _ => ⟨moved_elsewhere, ?_⟩⟩
  apply within_commit
  exact within_requireDelivery_last fun _ _ => adds_of_eq rfl ha

theorem routeToSink_adds {new : NewDelivery} :
    (routeToSink new).Within (Elsewhere (some new.recordingId)) ⟨s, none⟩
      (Adds s (·.isLost) []) := by
  apply within_bind
  apply within_begin
  apply within_modify
  · refine Store.elsewhere_updateRecordings (fun _ => rfl) fun r hr => ?_
    simp only [Bool.and_eq_true, beq_iff_eq] at hr
    exact congrArg some hr.1
  split
  · change Adds s RoutingOutcome.isLost [] .alreadyHandled ⟨s, none⟩
    exact adds_of_same rfl rfl
  · apply within_insertDelivery
    intro v hv
    obtain ⟨he, ha⟩ := Store.elsewhere_insertDelivery (show some (deliveryRow new).recordingId = _ from rfl) hv
    refine ⟨he, sink_elsewhere, ?_⟩
    apply within_commit
    apply within_requireDelivery
    exact fun _ _ => adds_of_eq rfl ha

theorem manualRoute_adds {input : ManualRoute} :
    (manualRoute input).Within (Elsewhere (some input.recordingId)) ⟨s, none⟩
      (Adds s (fun _ => false) (Operation.manualRoute input).audit) := by
  apply within_bind
  apply within_begin
  apply within_currentStatus
  intro r _
  split
  · trivial
  · apply within_insertDelivery
    intro v hv
    obtain ⟨he, ha⟩ := Store.elsewhere_insertDelivery (show some (deliveryRow _).recordingId = _ from rfl) hv
    refine ⟨he, sink_elsewhere, within_guardedTransition fun r _ _ => ⟨moved_elsewhere, ?_⟩⟩
    apply within_insertAuditEvent
    intro w hw
    obtain ⟨he', ha'⟩ := Store.elsewhere_insertAuditEvent hw
    refine ⟨he', ?_⟩
    apply within_commit
    refine within_requireDelivery_last fun _ _ => adds_event rfl ?_
    rw [← congrArg Table.rows ha]
    exact ha'

theorem manualRetryTranscription_adds {input : ManualRetryTranscription} :
    (manualRetryTranscription input).Within (Elsewhere (some input.recordingId)) ⟨s, none⟩
      (Adds s (fun _ => false) (Operation.manualRetryTranscription input).audit) := by
  apply within_begin
  apply within_currentStatus
  intro r _
  split
  · trivial
  · refine within_guardedTransition fun r _ _ => ⟨moved_elsewhere, ?_⟩
    apply within_clearRecordingError latestError_elsewhere
    apply within_modify window_elsewhere
    apply within_insertAuditEvent
    intro w hw
    obtain ⟨he', ha'⟩ := Store.elsewhere_insertAuditEvent hw
    refine ⟨he', ?_⟩
    apply within_commit
    exact within_requireRecording_last fun _ _ => adds_event rfl ha'

theorem manualRetryDelivery_adds {input : ManualRetryDelivery} :
    (manualRetryDelivery input).Within (Elsewhere (some input.recordingId)) ⟨s, none⟩
      (Adds s (fun _ => false) (Operation.manualRetryDelivery input).audit) := by
  apply within_begin
  apply within_currentStatus
  intro r _
  split
  · trivial
  · change (Program.bind (require ((s.deliveryFor input.recordingId).map (·.id)) _) _).Within _ _ _
    apply within_require
    intro deliveryId hd
    obtain ⟨d, hfor, rfl⟩ := Option.map_eq_some_iff.mp hd
    obtain ⟨hmem, hown⟩ := Table.find_mem hfor
    apply within_modify
    · have he := delivery_elsewhere (f := reopened input) (h := fun _ _ => ⟨rfl, rfl⟩)
        (fun _ => rfl) (Store.delivery_of_mem hmem)
      rw [beq_iff_eq.mp hown] at he
      exact he
    refine within_guardedTransition fun r _ _ => ⟨moved_elsewhere, ?_⟩
    apply within_clearRecordingError latestError_elsewhere
    apply within_insertAuditEvent
    intro w hw
    obtain ⟨he', ha'⟩ := Store.elsewhere_insertAuditEvent hw
    refine ⟨he', ?_⟩
    apply within_commit
    exact within_requireDelivery_last fun _ _ => adds_event rfl ha'

theorem completeDelivery_adds {status : DeliveryStatus} {error : Option String} :
    (completeDelivery x status t error).Within (Elsewhere ((s.delivery x).map (·.recordingId)))
      ⟨s, none⟩ (Adds s (fun _ => false) []) := by
  apply within_begin
  apply within_recordingIdForDelivery
  intro d hd
  change s.delivery x = some d at hd
  rw [hd]
  apply within_modify
  · exact delivery_elsewhere (fun _ => rfl) hd
  cases error with
  | none =>
    refine within_guardedTransition fun r _ _ => ⟨moved_elsewhere, ?_⟩
    apply within_commit
    exact within_requireDelivery_last fun _ _ => adds_of_eq rfl rfl
  | some message =>
    apply within_bind
    apply within_modify latestError_elsewhere
    refine within_guardedTransition fun r _ _ => ⟨moved_elsewhere, ?_⟩
    apply within_commit
    exact within_requireDelivery_last fun _ _ => adds_of_eq rfl rfl

theorem succeedDelivery_adds {code : Option Int}
    (own : ∀ b ∈ s.deliveryAttempts.rows, b.id = a → b.parentId = x) :
    (succeedDelivery a x t code).Within (Elsewhere ((s.delivery x).map (·.recordingId))) ⟨s, none⟩
      (Adds s (fun _ => false) []) := by
  apply within_bind
  apply within_begin
  apply within_recordingIdForDelivery
  intro d hd
  change s.delivery x = some d at hd
  rw [hd]
  apply within_finishDeliveryAttempt (finished_elsewhere hd own)
  apply within_modify
  · exact delivery_elsewhere (fun _ => rfl) hd
  refine within_guardedTransition fun r _ _ => ⟨moved_elsewhere, ?_⟩
  exact within_requireDelivery_last fun _ _ => adds_of_eq rfl rfl

theorem retryDelivery_adds {code : Option Int} {message : String}
    (own : ∀ b ∈ s.deliveryAttempts.rows, b.id = a → b.parentId = x) :
    (retryDelivery a x t code message).Within (Elsewhere ((s.delivery x).map (·.recordingId)))
      ⟨s, none⟩ (Adds s (fun _ => false) []) := by
  apply within_begin
  apply within_recordingIdForDelivery
  intro d hd
  change s.delivery x = some d at hd
  rw [hd]
  apply within_finishDeliveryAttempt (finished_elsewhere hd own)
  apply within_modify
  · exact delivery_elsewhere (fun _ => rfl) hd
  refine within_setRecordingError erred_elsewhere ?_
  change Adds s (fun _ => false) [] () ⟨_, none⟩
  exact adds_of_eq rfl rfl

theorem failDelivery_adds {code : Option Int} {message : String}
    (own : ∀ b ∈ s.deliveryAttempts.rows, b.id = a → b.parentId = x) :
    (failDelivery a x t code message).Within (Elsewhere ((s.delivery x).map (·.recordingId)))
      ⟨s, none⟩ (Adds s (fun _ => false) []) := by
  apply within_bind
  apply within_begin
  apply within_recordingIdForDelivery
  intro d hd
  change s.delivery x = some d at hd
  rw [hd]
  apply within_finishDeliveryAttempt (finished_elsewhere hd own)
  apply within_modify
  · exact delivery_elsewhere (fun _ => rfl) hd
  apply within_setRecordingError erred_elsewhere
  refine within_guardedTransition fun r _ _ => ⟨moved_elsewhere, ?_⟩
  exact within_requireDelivery_last fun _ _ => adds_of_eq rfl rfl

theorem within_claimAttempt {δ : Type} {attempts : Store → AttemptTable δ}
    {insert : Store → Attempt δ → Except StorageError Store} {w : Store}
    {R : Store → Store → Prop} {f : Option Nat → Query α} {post : α → Connection Store → Prop}
    (hlost : (f none).Within R ⟨s, some w⟩ post)
    (hs : ∀ n v, insert w (AttemptTable.started a x n now) = .ok v →
      R w v ∧ (f (some n)).Within R ⟨s, some v⟩ post) :
    ((claimAttempt attempts insert a x now).bind f).Within R ⟨s, some w⟩ post := by
  apply within_bind
  change (if (attempts w).inFlight x = true then _ else _ : Query (Option Nat)).Within _ _ _
  split
  · exact hlost
  · change (Program.bind (attempt fun w => insert w (AttemptTable.started a x _ now)) _).Within _ _ _
    apply within_attempt
    intro v hv
    exact hs _ v hv

theorem startTranscriptionAttempt_adds :
    (startTranscriptionAttempt a x now).Within (Elsewhere (some x)) ⟨s, none⟩
      (Adds s (·.isNone) []) := by
  apply within_begin
  apply within_claimAttempt
  · change Adds s Option.isNone [] (none : Option TranscriptionAttemptStart) ⟨s, none⟩
    exact adds_of_same rfl rfl
  intro n v hv
  obtain ⟨he, ha⟩ := Store.elsewhere_insertTranscriptionAttempt (show some _ = some x from rfl) hv
  refine ⟨he, ?_⟩
  apply within_bind
  change (Program.bind (require (v.recording x) _) _).Within _ _ _
  apply within_require
  intro r _
  split
  · next window _ =>
    change Adds s Option.isNone [] (some (TranscriptionAttemptStart.mk n window)) ⟨v, none⟩
    exact adds_of_eq rfl ha
  · change (require (v.transcriptionAttempts.firstStarted x) _).Within _ _ _
    cases v.transcriptionAttempts.firstStarted x with
    | none => trivial
    | some first =>
      change Adds s Option.isNone [] (some (TranscriptionAttemptStart.mk n first)) ⟨v, none⟩
      exact adds_of_eq rfl ha

theorem startDeliveryAttempt_adds :
    (startDeliveryAttempt a x now).Within (Elsewhere ((s.delivery x).map (·.recordingId))) ⟨s, none⟩
      (Adds s (·.isNone) []) := by
  apply within_begin
  apply within_claimAttempt
  · change Adds s Option.isNone [] (none : Option Nat) ⟨s, none⟩
    exact adds_of_same rfl rfl
  intro n v hv
  obtain ⟨-, -, hd⟩ := Store.insertDeliveryAttempt_ok hv
  obtain ⟨d, hd⟩ := Option.isSome_iff_exists.mp hd
  change s.delivery x = some d at hd
  rw [hd]
  have own : ∀ e ∈ s.deliveries.rows, e.id = x → some e.recordingId = some d.recordingId :=
    fun e he hx => by rw [Store.eq_of_delivery hd he hx]
  obtain ⟨he, ha⟩ := Store.elsewhere_insertDeliveryAttempt own hv
  refine ⟨he, ?_⟩
  change Adds s Option.isNone [] (some n) ⟨v, none⟩
  exact adds_of_eq rfl ha

end Walks
end SqliteStore

/-- In any store, a call that is refused or loses its claim changes no table; one that
commits changes the rows of one Recording, and each operator action adds one event. -/
theorem leaves_no_trace (s : Store) (op : Operation) (own : op.OwnAttempt s)
    (one : ∀ now, op ≠ .recoverAbandonedAttempts now) :
    SqliteStore.LeavesNoTrace s (op.named s) op.audit (op.perform s) := by
  cases op with
  | createRecording new => exact perform_traceless createRecording_transacts createRecording_adds
  | claimReceivedForTranscription now =>
    exact perform_traceless claimReceivedForTranscription_transacts
      claimReceivedForTranscription_adds
  | startTranscriptionAttempt a x now =>
    exact perform_traceless startTranscriptionAttempt_transacts startTranscriptionAttempt_adds
  | succeedTranscription a t new =>
    exact perform_traceless succeedTranscription_transacts (succeedTranscription_adds own)
  | retryTranscription a x t code message =>
    exact perform_traceless retryTranscription_transacts (retryTranscription_adds own)
  | failTranscription a x t code message =>
    exact perform_traceless failTranscription_transacts (failTranscription_adds own)
  | storeTranscript new => exact perform_traceless storeTranscript_transacts storeTranscript_adds
  | markBacklogged x t => exact perform_traceless updateRecordingStatus_transacts markBacklogged_adds
  | routeToSink new => exact perform_traceless routeToSink_transacts routeToSink_adds
  | selectSink new => exact perform_traceless selectSink_transacts selectSink_adds
  | manualRoute input => exact perform_traceless manualRoute_transacts manualRoute_adds
  | startDeliveryAttempt a x now =>
    exact perform_traceless startDeliveryAttempt_transacts startDeliveryAttempt_adds
  | succeedDelivery a x t code =>
    exact perform_traceless succeedDelivery_transacts (succeedDelivery_adds own)
  | retryDelivery a x t code message =>
    exact perform_traceless retryDelivery_transacts (retryDelivery_adds own)
  | failDelivery a x t code message =>
    exact perform_traceless failDelivery_transacts (failDelivery_adds own)
  | markDeliveryDelivered x t => exact perform_traceless completeDelivery_transacts completeDelivery_adds
  | markDeliveryFailed x t error =>
    exact perform_traceless completeDelivery_transacts completeDelivery_adds
  | manualRetryTranscription input =>
    exact perform_traceless manualRetryTranscription_transacts manualRetryTranscription_adds
  | manualRetryDelivery input =>
    exact perform_traceless manualRetryDelivery_transacts manualRetryDelivery_adds
  | recoverAbandonedAttempts now => exact absurd rfl (one now)

/-- A Recording delivered by its first attempt. -/
def deliveredOnce : Store := Operation.applyAll [.createRecording firstUpload,
  .claimReceivedForTranscription 0, .storeTranscript ⟨"r1", "soniox", "hello", "", none, none, 0⟩,
  .selectSink ⟨"d1", "r1", "notes", 0, none⟩, .startDeliveryAttempt "a1" "d1" 0,
  .succeedDelivery "a1" "d1" 1 (some 200)]

/-- Failing the finished attempt later rewrites three rows before the guard refuses. -/
theorem late_failure_leaves_no_trace :
    (Operation.failDelivery "a1" "d1" 2 none "late").perform deliveredOnce =
      (deliveredOnce, .refused (.invalidTransition .delivered .deliveryFailed)) := by
  have ht := leaves_no_trace deliveredOnce (.failDelivery "a1" "d1" 2 none "late")
    (show ∀ b ∈ deliveredOnce.deliveryAttempts.rows, b.id = "a1" → b.parentId = "d1" by
      decide +kernel)
    (fun _ h => by cases h)
  have ho : ((Operation.failDelivery "a1" "d1" 2 none "late").perform deliveredOnce).2 =
      .refused (.invalidTransition .delivered .deliveryFailed) := by
    decide +kernel
  unfold SqliteStore.LeavesNoTrace at ht
  rw [ho] at ht
  exact Prod.ext ht ho

end Telegraph
