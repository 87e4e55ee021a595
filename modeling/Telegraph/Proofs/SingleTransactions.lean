import Telegraph.Operation
import Telegraph.Proofs.NothingStranded
import Telegraph.Transactions

namespace Telegraph
open Lib Program SqliteStore

/-! Every action of a tick is one transaction or one statement; every request is one
transaction and then reads. -/

theorem Lib.Table.update_of_count {ρ : Type} {clash : ρ → ρ → Bool} {t : Table ρ clash} {p : ρ → Bool}
    {f : ρ → ρ} {h : Table.KeepsKeys clash f} (hc : t.count p = 0) : t.update p f h = t := by
  refine Table.update_eq_self fun r hr => ?_
  have hnil := List.filter_eq_nil_iff.mp (List.length_eq_zero_iff.mp hc)
  simpa using hnil r hr

namespace SqliteStore
variable {id recordingId deliveryId attemptId : String} {t : Int} {message code : String}

section Statements

theorem updateRecordings_plain {p : RecordingRow → Bool} {f : RecordingRow → RecordingRow}
    {h : Table.KeepsKeys RecordingRow.clash f} :
    Plain (modify (·.updateRecordings p f h) (·.recordings.count p) : Query Nat) :=
  plain_modify fun s hs => congrArg (fun u => { s with recordings := u }) (Table.update_of_count hs)

theorem updateDeliveries_plain {p : DeliveryRow → Bool} {f : DeliveryRow → DeliveryRow}
    {h : Table.KeepsKeys DeliveryRow.clash f} :
    Plain (modify (·.updateDeliveries p f h) (·.deliveries.count p) : Query Nat) :=
  plain_modify fun s hs => congrArg (fun u => { s with deliveries := u }) (Table.update_of_count hs)

theorem finishTranscriptionAttempt_plain {status : AttemptStatus} {retryable : Bool}
    {errorCode errorMessage : Option String} :
    Plain (finishTranscriptionAttempt id t status retryable errorCode errorMessage) := by
  refine Plain.bind (plain_modify fun s hs => ?_) fun _ => trivial
  exact congrArg (fun u => { s with transcriptionAttempts := u }) (Table.update_of_count hs)

theorem finishDeliveryAttempt_plain {status : AttemptStatus} {retryable : Bool}
    {httpStatus : Option Int} {errorMessage : Option String} :
    Plain (finishDeliveryAttempt id t status retryable httpStatus errorMessage) := by
  refine Plain.bind (plain_modify fun s hs => ?_) fun _ => trivial
  exact congrArg (fun u => { s with deliveryAttempts := u }) (Table.update_of_count hs)

theorem guardedTransition_plain {next : RecordingStatus} : Plain (guardedTransition id next t) := by
  refine Plain.bind plain_query fun _ => Plain.bind plain_require fun current => ?_
  split
  · exact Plain.bind updateRecordings_plain fun _ => trivial
  · trivial

theorem setRecordingError_plain : Plain (setRecordingError recordingId t message) :=
  Plain.bind updateRecordings_plain fun _ => trivial

theorem clearRecordingError_plain : Plain (clearRecordingError recordingId) :=
  Plain.bind updateRecordings_plain fun _ => trivial

theorem currentStatus_plain : Plain (currentStatus recordingId) :=
  Plain.bind plain_query fun _ => plain_require

theorem recordingIdForDelivery_plain : Plain (recordingIdForDelivery deliveryId) :=
  Plain.bind plain_query fun _ => plain_require

theorem insertTranscript_plain {new : NewTranscript} : Plain (insertTranscript new) := plain_attempt

theorem insertDelivery_plain {new : NewDelivery} : Plain (insertDelivery new) :=
  Plain.bind plain_attempt fun _ => Plain.bind updateRecordings_plain fun _ => trivial

theorem insertAuditEvent_plain {e : AuditEvent} : Plain (insertAuditEvent e) := plain_attempt

theorem claimAttempt_plain {δ : Type} {attempts : Store → AttemptTable δ}
    {insert : Store → Attempt δ → Except StorageError Store} :
    Plain (claimAttempt attempts insert id recordingId t) := by
  refine Plain.bind plain_query fun inFlight => ?_
  split
  · trivial
  · exact Plain.bind plain_query fun _ => Plain.bind plain_attempt fun _ => trivial

theorem retryAnchor_plain : Plain (retryAnchor recordingId) := by
  refine Plain.bind plain_query fun _ => Plain.bind plain_require fun row => ?_
  split
  · trivial
  · exact Plain.bind plain_query fun _ => plain_require

theorem requireRecording_reads : Reads (requireRecording id) :=
  Reads.bind reads_query fun _ => reads_require

theorem requireTranscript_reads : Reads (requireTranscript recordingId) :=
  Reads.bind reads_query fun _ => reads_require

theorem requireDelivery_reads : Reads (requireDelivery id) :=
  Reads.bind reads_query fun _ => reads_require

theorem requireRecording_single : Single Ended (requireRecording id) :=
  fun _ => ended_require

theorem requireTranscript_single : Single Ended (requireTranscript recordingId) :=
  fun _ => ended_require

theorem requireDelivery_single : Single Ended (requireDelivery id) :=
  fun _ => ended_require

end Statements

section Ticks

theorem claimReceivedTx_single : Single Ended (claimReceivedTx t) := by
  refine single_begin (Plain.lastTx plain_query fun found => ?_)
  split
  · exact lastTx_drop trivial
  · exact Plain.lastTx guardedTransition_plain fun _ => lastTx_commit trivial

theorem startTranscriptionAttempt_single :
    Single Ended (startTranscriptionAttempt attemptId recordingId t) := by
  refine single_begin (Plain.lastTx claimAttempt_plain fun claimed => ?_)
  split
  · exact lastTx_drop trivial
  · exact Plain.lastTx retryAnchor_plain fun _ => lastTx_commit trivial

theorem succeedTranscriptionTx_single {new : NewTranscript} :
    Single Ended (succeedTranscriptionTx attemptId t new) :=
  single_begin <| Plain.lastTx finishTranscriptionAttempt_plain fun _ =>
    Plain.lastTx insertTranscript_plain fun _ => Plain.lastTx guardedTransition_plain fun _ =>
      show LastTx Ended commitTx from trivial

theorem retryTranscription_single :
    Single Ended (retryTranscription attemptId recordingId t code message) :=
  single_begin <| Plain.lastTx finishTranscriptionAttempt_plain fun _ =>
    Plain.lastTx setRecordingError_plain fun _ => show LastTx Ended commitTx from trivial

theorem failTranscriptionTx_single :
    Single Ended (failTranscriptionTx attemptId recordingId t code message) :=
  single_begin <| Plain.lastTx finishTranscriptionAttempt_plain fun _ =>
    Plain.lastTx setRecordingError_plain fun _ => Plain.lastTx guardedTransition_plain fun _ =>
      show LastTx Ended commitTx from trivial

theorem markBackloggedTx_single : Single Ended (markBackloggedTx recordingId t) :=
  single_begin <| Plain.lastTx guardedTransition_plain fun _ => show LastTx Ended commitTx from trivial

theorem routeToSinkTx_single {new : NewDelivery} : Single Ended (routeToSinkTx new) := by
  refine single_begin (Plain.lastTx updateRecordings_plain fun claimed => ?_)
  split
  · exact lastTx_drop trivial
  · exact Plain.lastTx insertDelivery_plain fun _ => lastTx_commit trivial

theorem startDeliveryAttempt_single :
    Single Ended (startDeliveryAttempt attemptId deliveryId t) := by
  refine single_begin (Plain.lastTx claimAttempt_plain fun claimed => ?_)
  split
  · exact lastTx_drop trivial
  · exact lastTx_commit trivial

theorem succeedDeliveryTx_single {httpStatus : Option Int} :
    Single Ended (succeedDeliveryTx attemptId deliveryId t httpStatus) :=
  single_begin <| Plain.lastTx recordingIdForDelivery_plain fun _ =>
    Plain.lastTx finishDeliveryAttempt_plain fun _ => Plain.lastTx updateDeliveries_plain fun _ =>
      Plain.lastTx guardedTransition_plain fun _ => show LastTx Ended commitTx from trivial

theorem retryDelivery_single {httpStatus : Option Int} :
    Single Ended (retryDelivery attemptId deliveryId t httpStatus message) :=
  single_begin <| Plain.lastTx recordingIdForDelivery_plain fun _ =>
    Plain.lastTx finishDeliveryAttempt_plain fun _ => Plain.lastTx updateDeliveries_plain fun _ =>
      Plain.lastTx setRecordingError_plain fun _ => show LastTx Ended commitTx from trivial

theorem failDeliveryTx_single {httpStatus : Option Int} :
    Single Ended (failDeliveryTx attemptId deliveryId t httpStatus message) :=
  single_begin <| Plain.lastTx recordingIdForDelivery_plain fun _ =>
    Plain.lastTx finishDeliveryAttempt_plain fun _ => Plain.lastTx updateDeliveries_plain fun _ =>
      Plain.lastTx setRecordingError_plain fun _ => Plain.lastTx guardedTransition_plain fun _ =>
        show LastTx Ended commitTx from trivial

end Ticks

section Requests

theorem createRecording_single {new : NewRecording} : Single Reads (createRecording new) := by
  refine ⟨fun s s' he => ?_, fun affected => ?_⟩
  · change s.insertRecording (newRow new) = .ok (s', 0) at he
    unfold Store.insertRecording at he
    cases hk : s.recordingByKey (newRow new).clientId (newRow new).clientRecordingId with
    | some r =>
      simp only [hk] at he
      cases he
      rfl
    | none =>
      simp only [hk] at he
      cases hi : s.recordings.insert (newRow new) <;> simp [hi] at he
  · exact Reads.bind (q := getRecordingByIdempotency _ _) reads_query fun _ =>
      Reads.bind reads_require fun _ => trivial

theorem manualRouteTx_single {input : ManualRoute} : Single Ended (manualRouteTx input) := by
  refine single_begin (Plain.lastTx currentStatus_plain fun status => ?_)
  split
  · trivial
  · exact Plain.lastTx insertDelivery_plain fun _ => Plain.lastTx guardedTransition_plain fun _ =>
      Plain.lastTx insertAuditEvent_plain fun _ => show LastTx Ended commitTx from trivial

theorem manualRoute_single {input : ManualRoute} : Single Reads (manualRoute input) :=
  manualRouteTx_single.bind (fun _ h => h.reads.bind fun _ => requireDelivery_reads)
    (fun _ => requireDelivery_reads.lastTx) fun _ => requireDelivery_reads.single fun _ => id

theorem manualRetryTranscription_single {input : ManualRetryTranscription} :
    Single Reads (manualRetryTranscription input) := by
  refine single_begin (Plain.lastTx currentStatus_plain fun status => ?_)
  split
  · trivial
  · exact Plain.lastTx guardedTransition_plain fun _ => Plain.lastTx clearRecordingError_plain fun _ =>
      Plain.lastTx updateRecordings_plain fun _ => Plain.lastTx insertAuditEvent_plain fun _ =>
        lastTx_commit requireRecording_reads

theorem manualRetryDelivery_single {input : ManualRetryDelivery} :
    Single Reads (manualRetryDelivery input) := by
  refine single_begin (Plain.lastTx currentStatus_plain fun status => ?_)
  split
  · trivial
  · exact Plain.lastTx plain_query fun _ => Plain.lastTx plain_require fun _ =>
      Plain.lastTx updateDeliveries_plain fun _ => Plain.lastTx guardedTransition_plain fun _ =>
        Plain.lastTx clearRecordingError_plain fun _ => Plain.lastTx insertAuditEvent_plain fun _ =>
          lastTx_commit requireDelivery_reads

end Requests
end SqliteStore
end Telegraph
