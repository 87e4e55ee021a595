import Telegraph.SqliteStore

namespace Telegraph
open SqliteStore

/-- The committed store operations, with their arguments. -/
inductive Operation where
  | createRecording (new : NewRecording)
  | claimReceivedForTranscription (now : Int)
  | startTranscriptionAttempt (attemptId recordingId : String) (now : Int)
  | succeedTranscription (attemptId : String) (finishedAt : Int) (transcript : NewTranscript)
  | retryTranscription (attemptId recordingId : String) (finishedAt : Int) (code message : String)
  | failTranscription (attemptId recordingId : String) (finishedAt : Int) (code message : String)
  | storeTranscript (new : NewTranscript)
  | markBacklogged (id : String) (at_ : Int)
  | routeToSink (new : NewDelivery)
  | selectSink (new : NewDelivery)
  | manualRoute (input : ManualRoute)
  | startDeliveryAttempt (attemptId deliveryId : String) (now : Int)
  | succeedDelivery (attemptId deliveryId : String) (finishedAt : Int) (httpStatus : Option Int)
  | retryDelivery (attemptId deliveryId : String) (finishedAt : Int) (httpStatus : Option Int)
      (message : String)
  | failDelivery (attemptId deliveryId : String) (finishedAt : Int) (httpStatus : Option Int)
      (message : String)
  | markDeliveryDelivered (deliveryId : String) (at_ : Int)
  | markDeliveryFailed (deliveryId : String) (at_ : Int) (error : String)
  | manualRetryTranscription (input : ManualRetryTranscription)
  | manualRetryDelivery (input : ManualRetryDelivery)
  | recoverAbandonedAttempts (now : Int)

namespace Operation

/-- The state one operation leaves, whether it returned or failed. -/
def apply (s : Store) : Operation → Store
  | createRecording new => ((SqliteStore.createRecording new).run s).1
  | claimReceivedForTranscription now =>
    ((SqliteStore.claimReceivedForTranscription now).run s).1
  | startTranscriptionAttempt a x now => ((SqliteStore.startTranscriptionAttempt a x now).run s).1
  | succeedTranscription a t new => ((SqliteStore.succeedTranscription a t new).run s).1
  | retryTranscription a x t code message =>
    ((SqliteStore.retryTranscription a x t code message).run s).1
  | failTranscription a x t code message =>
    ((SqliteStore.failTranscription a x t code message).run s).1
  | storeTranscript new => ((SqliteStore.storeTranscript new).run s).1
  | markBacklogged x t => ((SqliteStore.markBacklogged x t).run s).1
  | routeToSink new => ((SqliteStore.routeToSink new).run s).1
  | selectSink new => ((SqliteStore.selectSink new).run s).1
  | manualRoute input => ((SqliteStore.manualRoute input).run s).1
  | startDeliveryAttempt a x now => ((SqliteStore.startDeliveryAttempt a x now).run s).1
  | succeedDelivery a x t code => ((SqliteStore.succeedDelivery a x t code).run s).1
  | retryDelivery a x t code message => ((SqliteStore.retryDelivery a x t code message).run s).1
  | failDelivery a x t code message => ((SqliteStore.failDelivery a x t code message).run s).1
  | markDeliveryDelivered x t => ((SqliteStore.markDeliveryDelivered x t).run s).1
  | markDeliveryFailed x t error => ((SqliteStore.markDeliveryFailed x t error).run s).1
  | manualRetryTranscription input => ((SqliteStore.manualRetryTranscription input).run s).1
  | manualRetryDelivery input => ((SqliteStore.manualRetryDelivery input).run s).1
  | recoverAbandonedAttempts now => ((SqliteStore.recoverAbandonedAttempts now).run s).1

/-- The operations the worker loops make. -/
def ByWorker : Operation → Prop
  | claimReceivedForTranscription _ | startTranscriptionAttempt _ _ _ | succeedTranscription _ _ _
  | retryTranscription _ _ _ _ _ | failTranscription _ _ _ _ _ | markBacklogged _ _ | routeToSink _
  | startDeliveryAttempt _ _ _ | succeedDelivery _ _ _ _ | retryDelivery _ _ _ _ _
  | failDelivery _ _ _ _ _ => True
  | _ => False

/-- Any sequence of operations, from the empty database. -/
def applyAll (ops : List Operation) : Store := ops.foldl apply Store.empty

end Operation

namespace Store

def transcriptsOf (s : Store) (recordingId : String) : List Transcript :=
  s.transcripts.rows.filter (·.recordingId == recordingId)

def deliveriesOf (s : Store) (recordingId : String) : List DeliveryRow :=
  s.deliveries.rows.filter (·.recordingId == recordingId)

end Store

/-- The rows a Recording's status promises. -/
def Store.Lawful (s : Store) (r : RecordingRow) : Prop :=
  match r.status with
  | .received | .transcribing | .transcriptionFailed =>
    s.transcriptsOf r.id = [] ∧ s.deliveriesOf r.id = [] ∧ r.selectedSinkName = none
  | .routing | .backlogged =>
    (∃ t, s.transcriptsOf r.id = [t]) ∧ s.deliveriesOf r.id = [] ∧ r.selectedSinkName = none
  | .delivering | .delivered | .deliveryFailed =>
    (∃ t, s.transcriptsOf r.id = [t]) ∧ ∃ d, s.deliveriesOf r.id = [d] ∧
      recordingStatusOf d.status = r.status ∧ r.selectedSinkName = some d.sinkName

end Telegraph
