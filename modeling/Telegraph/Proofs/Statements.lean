import Telegraph.Lib.Footprint
import Telegraph.SqliteStore

namespace Telegraph.SqliteStore
open Lib Program

/-! What each helper does to the view of its transaction, with everything it checked
on the way. -/

section Rules
variable {α : Type} {R : Store → Store → Prop} {s w : Store} {c : Connection Store}
  {f : Unit → Query α} {post : α → Connection Store → Prop} {x : String} {t : Int}

theorem within_guardedTransition {next : RecordingStatus}
    (h : ∀ r, w.recording x = some r → r.status.canTransitionTo next = true →
      R w (w.setStatus (·.id == x) next t) ∧
        (f ()).Within R ⟨s, some (w.setStatus (·.id == x) next t)⟩ post) :
    ((guardedTransition x next t).bind f).Within R ⟨s, some w⟩ post := by
  apply within_bind
  change (Program.bind (require ((w.recording x).map (·.status)) _) _).Within R _ _
  apply within_require
  intro current hc
  obtain ⟨r, hr, rfl⟩ := Option.map_eq_some_iff.mp hc
  split
  · next hcan =>
    obtain ⟨hs, hf⟩ := h r hr hcan
    exact within_modify hs hf
  · trivial

theorem within_setRecordingError {message : String}
    (hr : R w (w.setError (·.id == x) message t))
    (h : (f ()).Within R ⟨s, some (w.setError (·.id == x) message t)⟩ post) :
    ((setRecordingError x t message).bind f).Within R ⟨s, some w⟩ post := by
  apply within_bind
  exact within_modify hr h

theorem within_clearRecordingError (hr : R w (w.setLatestError (·.id == x) none))
    (h : (f ()).Within R ⟨s, some (w.setLatestError (·.id == x) none)⟩ post) :
    ((clearRecordingError x).bind f).Within R ⟨s, some w⟩ post := by
  apply within_bind
  exact within_modify hr h

theorem within_finishTranscriptionAttempt {status : AttemptStatus} {retryable : Bool}
    {code message : Option String}
    (hr : R w (w.finishTranscriptions (·.id == x) t status retryable (fun _ => code) message))
    (h : (f ()).Within R
      ⟨s, some (w.finishTranscriptions (·.id == x) t status retryable (fun _ => code) message)⟩ post) :
    ((finishTranscriptionAttempt x t status retryable code message).bind f).Within R
      ⟨s, some w⟩ post := by
  apply within_bind
  exact within_modify hr h

theorem within_finishDeliveryAttempt {status : AttemptStatus} {retryable : Bool}
    {code : Option Int} {message : Option String}
    (hr : R w (w.finishDeliveries (·.id == x) t status retryable (fun _ => code) message))
    (h : (f ()).Within R
      ⟨s, some (w.finishDeliveries (·.id == x) t status retryable (fun _ => code) message)⟩ post) :
    ((finishDeliveryAttempt x t status retryable code message).bind f).Within R
      ⟨s, some w⟩ post := by
  apply within_bind
  exact within_modify hr h

theorem within_insertTranscript {new : NewTranscript}
    (h : ∀ v, w.insertTranscript new = .ok v → R w v ∧ (f ()).Within R ⟨s, some v⟩ post) :
    ((insertTranscript new).bind f).Within R ⟨s, some w⟩ post :=
  within_attempt h

theorem within_insertDelivery {new : NewDelivery}
    (h : ∀ v, w.insertDelivery (deliveryRow new) = .ok v →
      R w v ∧ R v (v.setSink (·.id == new.recordingId) new.sinkName) ∧
      (f ()).Within R ⟨s, some (v.setSink (·.id == new.recordingId) new.sinkName)⟩ post) :
    ((insertDelivery new).bind f).Within R ⟨s, some w⟩ post := by
  apply within_bind
  apply within_attempt
  intro v hv
  obtain ⟨hr, hr', hf⟩ := h v hv
  exact ⟨hr, within_modify hr' hf⟩

theorem within_insertAuditEvent {e : AuditEvent}
    (h : ∀ v, w.insertAuditEvent e = .ok v → R w v ∧ (f ()).Within R ⟨s, some v⟩ post) :
    ((insertAuditEvent e).bind f).Within R ⟨s, some w⟩ post :=
  within_attempt h

theorem within_recordingIdForDelivery {f : String → Query α}
    (h : ∀ d, c.view.delivery x = some d → (f d.recordingId).Within R c post) :
    ((recordingIdForDelivery x).bind f).Within R c post := by
  apply within_bind
  change (require ((c.view.delivery x).map (·.recordingId)) _).Within R c _
  cases hd : c.view.delivery x with
  | none => trivial
  | some d => exact h d hd

theorem within_currentStatus {f : RecordingStatus → Query α}
    (h : ∀ r, c.view.recording x = some r → (f r.status).Within R c post) :
    ((currentStatus x).bind f).Within R c post := by
  apply within_bind
  change (require ((c.view.recording x).map (·.status)) _).Within R c _
  cases hr : c.view.recording x with
  | none => trivial
  | some r => exact h r hr

theorem within_requireDelivery {f : Delivery → Query α}
    (h : ∀ row, c.view.delivery x = some row → (f row.toDelivery).Within R c post) :
    ((requireDelivery x).bind f).Within R c post := by
  apply within_bind
  change (require ((c.view.delivery x).map (·.toDelivery)) _).Within R c _
  cases hd : c.view.delivery x with
  | none => trivial
  | some row => exact h row hd

theorem within_requireRecording {f : Recording → Query α}
    (h : ∀ row, c.view.recording x = some row → (f row.toRecording).Within R c post) :
    ((requireRecording x).bind f).Within R c post := by
  apply within_bind
  change (require ((c.view.recording x).map (·.toRecording)) _).Within R c _
  cases hr : c.view.recording x with
  | none => trivial
  | some row => exact h row hr

theorem within_requireTranscript {f : Transcript → Query α}
    (h : ∀ row, c.view.transcript x = some row → (f row).Within R c post) :
    ((requireTranscript x).bind f).Within R c post := by
  apply within_bind
  change (require (c.view.transcript x) _).Within R c _
  cases ht : c.view.transcript x with
  | none => trivial
  | some row => exact h row ht

theorem within_commit {f : Unit → Query α} (h : (f ()).Within R ⟨w, none⟩ post) :
    ((commitTx : Query Unit).bind f).Within R ⟨s, some w⟩ post := h

theorem within_begin {f : Unit → Query α} (h : (f ()).Within R ⟨s, some s⟩ post) :
    ((beginTx : Query Unit).bind f).Within R ⟨s, none⟩ post := h

end Rules

section Readback
variable {R : Store → Store → Prop} {c : Connection Store} {x : String}

/-- The last read of a method returns the row it names and changes nothing. -/
theorem within_requireDelivery_last {post : Delivery → Connection Store → Prop}
    (h : ∀ row, c.view.delivery x = some row → post row.toDelivery c) :
    (requireDelivery x).Within R c post := by
  change (require ((c.view.delivery x).map (·.toDelivery)) _).Within R c _
  cases hd : c.view.delivery x with
  | none => trivial
  | some row => exact h row hd

theorem within_requireRecording_last {post : Recording → Connection Store → Prop}
    (h : ∀ row, c.view.recording x = some row → post row.toRecording c) :
    (requireRecording x).Within R c post := by
  change (require ((c.view.recording x).map (·.toRecording)) _).Within R c _
  cases hr : c.view.recording x with
  | none => trivial
  | some row => exact h row hr

theorem within_requireTranscript_last {post : Transcript → Connection Store → Prop}
    (h : ∀ row, c.view.transcript x = some row → post row c) :
    (requireTranscript x).Within R c post := by
  change (require (c.view.transcript x) _).Within R c _
  cases ht : c.view.transcript x with
  | none => trivial
  | some row => exact h row ht

end Readback
end Telegraph.SqliteStore
