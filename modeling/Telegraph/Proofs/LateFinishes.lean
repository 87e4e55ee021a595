import Telegraph.Proofs.NoTrace

namespace Telegraph
open Lib Program SqliteStore

/-- The calls that finish an attempt. -/
inductive Finishing where
  | succeedTranscription (attemptId : String) (finishedAt : Int) (transcript : NewTranscript)
  | retryTranscription (attemptId recordingId : String) (finishedAt : Int) (code message : String)
  | failTranscription (attemptId recordingId : String) (finishedAt : Int) (code message : String)
  | succeedDelivery (attemptId deliveryId : String) (finishedAt : Int) (httpStatus : Option Int)
  | retryDelivery (attemptId deliveryId : String) (finishedAt : Int) (httpStatus : Option Int)
      (message : String)
  | failDelivery (attemptId deliveryId : String) (finishedAt : Int) (httpStatus : Option Int)
      (message : String)

namespace Finishing

def operation : Finishing → Operation
  | succeedTranscription a t new => .succeedTranscription a t new
  | retryTranscription a x t code message => .retryTranscription a x t code message
  | failTranscription a x t code message => .failTranscription a x t code message
  | succeedDelivery a x t code => .succeedDelivery a x t code
  | retryDelivery a x t code message => .retryDelivery a x t code message
  | failDelivery a x t code message => .failDelivery a x t code message

/-- The attempt id is that of an unfinished attempt of the given parent. -/
def Unfinished {δ : Type} (attempts : AttemptTable δ) (attemptId parentId : String) : Prop :=
  ∃ a ∈ attempts.rows, a.id = attemptId ∧ a.parentId = parentId ∧ a.finishedAt = none

/-- The call names an attempt in flight of the Recording or Delivery it is about. -/
def Names (s : Store) : Finishing → Prop
  | succeedTranscription a _ new => Unfinished s.transcriptionAttempts a new.recordingId
  | retryTranscription a x _ _ _ | failTranscription a x _ _ _ =>
    Unfinished s.transcriptionAttempts a x
  | succeedDelivery a x _ _ | retryDelivery a x _ _ _ | failDelivery a x _ _ _ =>
    Unfinished s.deliveryAttempts a x

/-- The Recording's or Delivery's own state stands in the way. -/
def Refused (s : Store) : Finishing → Prop
  | succeedTranscription _ _ new =>
    ¬∃ r, s.recording new.recordingId = some r ∧ r.status = .transcribing ∧
      s.transcript new.recordingId = none
  | retryTranscription _ _ _ _ _ => False
  | failTranscription _ x _ _ _ => ¬∃ r, s.recording x = some r ∧ r.status = .transcribing
  | succeedDelivery _ x _ _ | failDelivery _ x _ _ _ =>
    ¬∃ d r, s.delivery x = some d ∧ s.recording d.recordingId = some r ∧ r.status = .delivering
  | retryDelivery _ x _ _ _ => s.delivery x = none

end Finishing

namespace SqliteStore
variable {α : Type} {q : Query α} {lost : α → Bool} {s : Store} {ok : α → Store → Prop} {P : Prop}

/-- A call is refused exactly in the states its contract gives for it. -/
theorem perform_refused_iff (ht : q.Transacts s ok fun _ => P) (hok : ∀ a s', ok a s' → ¬P) :
    (∃ e, perform q lost s = (s, .refused e)) ↔ P := by
  rcases ht.run_cases with ⟨a, s', hr, ha⟩ | ⟨e, hr, hp⟩
  · have hnot := hok a s' ha
    have hdone : perform q lost s = (s', if lost a then .lost else .committed) := by
      simp only [perform, hr]
    rw [hdone]
    refine ⟨fun ⟨e, he⟩ => ?_, fun hp => absurd hp hnot⟩
    have hend := congrArg Prod.snd he
    cases hl : lost a <;> simp [hl] at hend
  · have hdone : perform q lost s = (s, .refused e) := by simp only [perform, hr]
    exact ⟨fun _ => hp, fun _ => ⟨e, hdone⟩⟩

end SqliteStore

namespace Finishing

/-- A finishing call is refused for its parent's state and for nothing else. -/
theorem refused_iff (s : Store) (call : Finishing) :
    (∃ e, call.operation.perform s = (s, .refused e)) ↔ call.Refused s := by
  cases call with
  | succeedTranscription a t new =>
    apply perform_refused_iff succeedTranscription_transacts
    rintro _ s' ⟨r, hr, hst, hn, -⟩ hnot
    exact hnot ⟨r, hr, hst, hn⟩
  | retryTranscription a x t code message =>
    change (∃ e, SqliteStore.perform (SqliteStore.retryTranscription a x t code message)
      (fun _ => false) s = (s, .refused e)) ↔ False
    apply perform_refused_iff retryTranscription_transacts
    exact fun _ _ _ => id
  | failTranscription a x t code message =>
    apply perform_refused_iff failTranscription_transacts
    rintro _ s' ⟨r, g, -, hr, hst, -⟩ hnot
    exact hnot ⟨r, hr, hst⟩
  | succeedDelivery a x t code =>
    apply perform_refused_iff succeedDelivery_transacts
    rintro _ s' ⟨d, r, hd, hr, hc, -⟩ hnot
    exact hnot ⟨d, r, hd, hr, RecordingStatus.to_delivered.mp hc⟩
  | retryDelivery a x t code message =>
    apply perform_refused_iff retryDelivery_transacts
    rintro _ s' ⟨d, g, -, hd, -⟩ hnone
    rw [hd] at hnone
    cases hnone
  | failDelivery a x t code message =>
    apply perform_refused_iff failDelivery_transacts
    rintro _ s' ⟨d, r, hd, hr, hc, -⟩ hnot
    exact hnot ⟨d, r, hd, hr, RecordingStatus.to_deliveryFailed.mp hc⟩

/-- A call that names no attempt in flight is turned away exactly when its parent's state
turns it away: nothing looks at the attempt. -/
theorem turned_away_iff (s : Store) (call : Finishing) :
    (¬call.Names s → ∃ e, call.operation.perform s = (s, .refused e)) ↔
      call.Names s ∨ call.Refused s := by
  rw [refused_iff, or_iff_not_imp_left]

/-- An upload whose only attempt was cut off and closed by recovery. -/
def abandonedOnce : Store := Operation.applyAll [.createRecording firstUpload,
  .claimReceivedForTranscription 0, .startTranscriptionAttempt "a1" "r1" 0,
  .recoverAbandonedAttempts 1]

/-- The late failure of an attempt that recovery closed rewrites its row. -/
theorem late_failure_rewrites :
    ¬(retryTranscription "a1" "r1" 2 "timeout" "late").Names abandonedOnce ∧
      (abandonedOnce.transcriptionAttempts.rows.map fun a => (a.finishedAt, a.detail)) =
        [(some 1, some "abandoned")] ∧
      ((Operation.retryTranscription "a1" "r1" 2 "timeout" "late").perform abandonedOnce).2 =
        .committed ∧
      (((Operation.retryTranscription "a1" "r1" 2 "timeout" "late").perform
        abandonedOnce).1.transcriptionAttempts.rows.map fun a => (a.finishedAt, a.detail)) =
        [(some 2, some "timeout")] := by
  refine ⟨?_, by decide +kernel, by decide +kernel, by decide +kernel⟩
  have hclosed : ∀ a ∈ abandonedOnce.transcriptionAttempts.rows, a.finishedAt ≠ none := by
    decide +kernel
  rintro ⟨a, ha, -, -, hopen⟩
  exact hclosed a ha hopen

end Finishing
end Telegraph
