import Telegraph.Storage

namespace Telegraph

structure NewRecording where
  id : String
  clientId : String
  clientRecordingId : String
  originalFilename : Option String
  blobPath : Option String
  audioSizeBytes : Option Int
  audioDurationMs : Option Int
  sampleRateHz : Option Int
  channels : Option Int
  bitsPerSample : Option Int
  tags : Tags
  recordedAt : Option OffsetDateTime
  receivedAt : Int

structure RecordingCreation where
  recording : Recording
  created : Bool

/-- The fields of a Transcript, supplied by the caller. -/
abbrev NewTranscript := Transcript

structure NewDelivery where
  id : String
  recordingId : String
  sinkName : String
  selectedAt : Int
  retryDeadlineAt : Option Int

inductive RoutingOutcome where
  | selected (delivery : Delivery)
  | alreadyHandled

structure ManualRoute where
  recordingId : String
  sinkName : String
  deliveryId : String
  auditEventId : String
  selectedAt : Int
  retryDeadlineAt : Int
  actorId : Option String

structure ManualRetryTranscription where
  recordingId : String
  auditEventId : String
  at_ : Int
  actorId : Option String

structure ManualRetryDelivery where
  recordingId : String
  auditEventId : String
  at_ : Int
  retryDeadlineAt : Int
  actorId : Option String

structure TranscriptionAttemptStart where
  attemptNumber : Nat
  firstStartedAt : Int
deriving DecidableEq, Repr

structure TranscriptionRetryCandidate where
  recording : Recording
  lastAttemptNumber : Nat
  lastAttemptFinishedAt : Int
  retryWindowStartedAt : Option Int

structure DeliveryCandidate where
  delivery : Delivery
  recording : Recording
  transcript : Transcript
  lastAttemptNumber : Option Nat
  lastAttemptFinishedAt : Option Int
  retryWindowStartedAt : Option Int

structure RecoveryReport where
  transcriptionAttempts : Nat
  revertedRecordings : Nat
  deliveryAttempts : Nat
deriving DecidableEq, Repr

def RecoveryReport.hasChanges (r : RecoveryReport) : Bool :=
  decide (0 < r.transcriptionAttempts) || decide (0 < r.revertedRecordings) ||
    decide (0 < r.deliveryAttempts)

/-- One row of the Transcription retry query: id, last number, last finish, window. -/
structure TranscriptionRetryRow where
  recordingId : String
  lastAttemptNumber : Nat
  lastFinished : Int
  retryWindow : Option Int
deriving DecidableEq, Repr

structure DeliveryCandidateRow where
  deliveryId : String
  lastAttemptNumber : Option Nat
  lastFinished : Option Int
  retryWindow : Option Int
deriving DecidableEq, Repr

namespace Store

/-- `WHERE status = 'transcribing' AND EXISTS attempt AND NOT EXISTS in-flight attempt
ORDER BY received_at, created_at`. The projected columns are non-null for these rows. -/
def transcriptionRetryRows (s : Store) : List TranscriptionRetryRow :=
  ((s.recordings.rows.filter fun r => r.status == .transcribing &&
      !s.transcriptionAttempts.inFlight r.id).insertionSort OldestFirst).filterMap fun r =>
    (s.transcriptionAttempts.latest r.id).bind fun a => a.finishedAt.map fun f =>
      ⟨r.id, a.attemptNumber, f, r.retryWindowStartedAt⟩

/-- `WHERE status = 'delivering' AND NOT EXISTS in-flight attempt ORDER BY selected_at` -/
def deliveryCandidateRows (s : Store) : List DeliveryCandidateRow :=
  ((s.deliveries.rows.filter fun d => d.status == .delivering &&
      !s.deliveryAttempts.inFlight d.id).insertionSort EarliestSelected).map fun d =>
    ⟨d.id, s.deliveryAttempts.lastNumber d.id,
      (s.deliveryAttempts.latest d.id).bind (·.finishedAt), d.retryWindowStartedAt⟩

end Store

/-- The `Display` of one character inside a JSON string. -/
def jsonEscape (c : Char) : List Char :=
  let hex (n : Nat) : Char := Char.ofNat (if n < 10 then 48 + n else 87 + n)
  let backslash := Char.ofNat 92
  match c.toNat with
  | 34 => [backslash, c]
  | 92 => [backslash, c]
  | 8 => [backslash, 'b']
  | 9 => [backslash, 't']
  | 10 => [backslash, 'n']
  | 12 => [backslash, 'f']
  | 13 => [backslash, 'r']
  | n => if n < 32 then [backslash, 'u', '0', '0', hex (n / 16), hex (n % 16)] else [c]

/-- `json!({ "sink": name })` as text. -/
def sinkDetails (name : String) : String :=
  "\x7b\x22sink\x22:\x22" ++ String.ofList (name.toList.flatMap jsonEscape) ++ "\x22\x7d"

namespace SqliteStore
open Lib Program

def abandonedMessage : String := "attempt abandoned when the service stopped"

def requireRecording (id : String) : Query Recording := do
  require ((← query (·.recording id)).map (·.toRecording)) (.recordingNotFound id)

def requireTranscript (recordingId : String) : Query Transcript := do
  require (← query (·.transcript recordingId)) (.recordingNotFound recordingId)

def requireDelivery (id : String) : Query Delivery := do
  require ((← query (·.delivery id)).map (·.toDelivery)) (.deliveryNotFound id)

def currentStatus (recordingId : String) : Query RecordingStatus := do
  require ((← query (·.recording recordingId)).map (·.status)) (.recordingNotFound recordingId)

def guardedTransition (id : String) (next : RecordingStatus) (at_ : Int) : Query Unit := do
  let current ← require ((← query (·.recording id)).map (·.status)) (.recordingNotFound id)
  if current.canTransitionTo next then
    let _ ← modify (·.setStatus (·.id == id) next at_) (·.recordings.count (·.id == id))
  else
    fail (.invalidTransition current next)

def setRecordingError (recordingId : String) (at_ : Int) (message : String) : Query Unit := do
  let _ ← modify (·.setError (·.id == recordingId) message at_)
    (·.recordings.count (·.id == recordingId))

def clearRecordingError (recordingId : String) : Query Unit := do
  let _ ← modify (·.setLatestError (·.id == recordingId) none)
    (·.recordings.count (·.id == recordingId))

/-- Only the id is matched: nothing here checks that the attempt is in flight. -/
def finishTranscriptionAttempt (attemptId : String) (finishedAt : Int) (status : AttemptStatus)
    (retryable : Bool) (errorCode errorMessage : Option String) : Query Unit := do
  let _ ← modify
    (·.finishTranscriptions (·.id == attemptId) finishedAt status retryable (fun _ => errorCode)
      errorMessage)
    (·.transcriptionAttempts.count (·.id == attemptId))

def finishDeliveryAttempt (attemptId : String) (finishedAt : Int) (status : AttemptStatus)
    (retryable : Bool) (httpStatus : Option Int) (errorMessage : Option String) : Query Unit := do
  let _ ← modify
    (·.finishDeliveries (·.id == attemptId) finishedAt status retryable (fun _ => httpStatus)
      errorMessage)
    (·.deliveryAttempts.count (·.id == attemptId))

def insertTranscript (t : NewTranscript) : Query Unit := attempt (·.insertTranscript t)

def recordingIdForDelivery (deliveryId : String) : Query String := do
  require ((← query (·.delivery deliveryId)).map (·.recordingId)) (.deliveryNotFound deliveryId)

/-- The row `insert_delivery` writes. -/
def deliveryRow (new : NewDelivery) : DeliveryRow :=
  ⟨⟨new.id, new.recordingId, new.sinkName, .delivering, new.selectedAt, none, new.retryDeadlineAt,
    none⟩, none⟩

def insertDelivery (new : NewDelivery) : Query Unit := do
  attempt (·.insertDelivery (deliveryRow new))
  let _ ← modify (·.setSink (·.id == new.recordingId) new.sinkName)
    (·.recordings.count (·.id == new.recordingId))

def insertAuditEvent (e : AuditEvent) : Query Unit := attempt (·.insertAuditEvent e)

/-- Startup recovery: close every in-flight attempt and give back claims that
never recorded one. -/
def recoverAbandonedAttempts (now : Int) : Query RecoveryReport := do
  beginTx
  let _ ← modify
    (fun s => s.setError (fun r => s.transcriptionAttempts.inFlight r.id) abandonedMessage now)
    (fun s => s.recordings.count fun r => s.transcriptionAttempts.inFlight r.id)
  let transcriptionAttempts ← modify
    (·.finishTranscriptions (·.finishedAt.isNone) now .failed true (fun _ => some "abandoned")
      (some abandonedMessage))
    (·.transcriptionAttempts.count (·.finishedAt.isNone))
  -- After closing, so that Recordings with a closed attempt keep their claim.
  let revertedRecordings ← modify
    (fun s => s.setStatus (fun r => r.status == .transcribing &&
      (s.transcriptionAttempts.attemptsOf r.id).isEmpty) .received now)
    (fun s => s.recordings.count fun r => r.status == .transcribing &&
      (s.transcriptionAttempts.attemptsOf r.id).isEmpty)
  let _ ← modify
    (fun s => s.setError (fun r => s.deliveries.rows.any fun d => d.recordingId == r.id &&
      s.deliveryAttempts.inFlight d.id) abandonedMessage now)
    (fun s => s.recordings.count fun r => s.deliveries.rows.any fun d => d.recordingId == r.id &&
      s.deliveryAttempts.inFlight d.id)
  let deliveryAttempts ← modify
    (·.finishDeliveries (·.finishedAt.isNone) now .failed true (·.detail) (some abandonedMessage))
    (·.deliveryAttempts.count (·.finishedAt.isNone))
  commitTx
  pure ⟨transcriptionAttempts, revertedRecordings, deliveryAttempts⟩

def newRow (new : NewRecording) : RecordingRow :=
  ⟨⟨new.id, new.clientId, new.clientRecordingId, .received, new.originalFilename, new.blobPath,
    new.audioSizeBytes, new.audioDurationMs, new.sampleRateHz, new.channels, new.bitsPerSample,
    new.tags, new.recordedAt, new.receivedAt, none, none, new.receivedAt, new.receivedAt⟩, none⟩

/-- The `INSERT … ON CONFLICT DO NOTHING` of `create_recording`; it commits by itself. -/
def insertRecording (new : NewRecording) : Query Nat :=
  execute (·.insertRecording (newRow new)) done

def getRecordingByIdempotency (clientId clientRecordingId : String) : Query (Option Recording) :=
  query fun s => (s.recordingByKey clientId clientRecordingId).map (·.toRecording)

def createRecording (new : NewRecording) : Query RecordingCreation := do
  let affected ← insertRecording new
  let recording ← require (← getRecordingByIdempotency new.clientId new.clientRecordingId)
    (.recordingNotFound new.id)
  pure ⟨recording, affected == 1⟩

/-! Each method below that reads its result back is its transaction (`…Tx`)
followed by that read. -/

def updateRecordingStatusTx (id : String) (next : RecordingStatus) (at_ : Int) : Query Unit := do
  beginTx
  guardedTransition id next at_
  commitTx

def updateRecordingStatus (id : String) (next : RecordingStatus) (at_ : Int) : Query Recording := do
  updateRecordingStatusTx id next at_
  requireRecording id

def markBackloggedTx (id : String) (at_ : Int) : Query Unit :=
  updateRecordingStatusTx id .backlogged at_

def markBacklogged (id : String) (at_ : Int) : Query Recording :=
  updateRecordingStatus id .backlogged at_

def storeTranscript (new : NewTranscript) : Query Transcript := do
  beginTx
  insertTranscript new
  guardedTransition new.recordingId .routing new.createdAt
  commitTx
  requireTranscript new.recordingId

def selectSink (new : NewDelivery) : Query Delivery := do
  beginTx
  insertDelivery new
  guardedTransition new.recordingId .delivering new.selectedAt
  commitTx
  requireDelivery new.id

/-- The conditional claim, then the Delivery; `false` when the claim changed no row. -/
def routeToSinkTx (new : NewDelivery) : Query Bool := do
  beginTx
  let claimed ← modify
    (·.setStatus (fun r => r.id == new.recordingId && r.status == .routing) .delivering
      new.selectedAt)
    (·.recordings.count fun r => r.id == new.recordingId && r.status == .routing)
  if claimed == 0 then
    dropTx
    pure false
  else
    insertDelivery new
    commitTx
    pure true

def routeToSink (new : NewDelivery) : Query RoutingOutcome := do
  if ← routeToSinkTx new then
    pure (.selected (← requireDelivery new.id))
  else
    pure .alreadyHandled

/-- `manual_route` up to its commit; the read of the new Delivery follows it. -/
def manualRouteTx (input : ManualRoute) : Query Unit := do
  beginTx
  let status ← currentStatus input.recordingId
  if status != .backlogged then
    fail (.recordingNotBacklogged input.recordingId status)
  else
    insertDelivery ⟨input.deliveryId, input.recordingId, input.sinkName, input.selectedAt,
      some input.retryDeadlineAt⟩
    guardedTransition input.recordingId .delivering input.selectedAt
    insertAuditEvent ⟨input.auditEventId, input.selectedAt, "operator", input.actorId,
      "manual_routing", some input.recordingId, sinkDetails input.sinkName⟩
    commitTx

def manualRoute (input : ManualRoute) : Query Delivery := do
  manualRouteTx input
  requireDelivery input.deliveryId

def manualRetryTranscription (input : ManualRetryTranscription) : Query Recording := do
  beginTx
  let status ← currentStatus input.recordingId
  if status != .transcriptionFailed then
    fail (.recordingNotRetryable input.recordingId status "transcription")
  else
    guardedTransition input.recordingId .transcribing input.at_
    clearRecordingError input.recordingId
    let _ ← modify (·.setWindow (·.id == input.recordingId) input.at_)
      (·.recordings.count (·.id == input.recordingId))
    insertAuditEvent ⟨input.auditEventId, input.at_, "operator", input.actorId,
      "manual_retry_transcription", some input.recordingId, "\x7b\x7d"⟩
    commitTx
    requireRecording input.recordingId

/-- A failed Delivery opened again by the Operator. -/
def reopened (input : ManualRetryDelivery) (d : DeliveryRow) : DeliveryRow :=
  { d with
    status := .delivering
    completedAt := none
    retryDeadlineAt := some input.retryDeadlineAt
    latestError := none
    retryWindowStartedAt := some input.at_ }

def manualRetryDelivery (input : ManualRetryDelivery) : Query Delivery := do
  beginTx
  let status ← currentStatus input.recordingId
  if status != .deliveryFailed then
    fail (.recordingNotRetryable input.recordingId status "delivery")
  else
    let deliveryId ← require ((← query (·.deliveryFor input.recordingId)).map (·.id))
      (.deliveryNotFound input.recordingId)
    let _ ← modify (·.updateDeliveries (·.id == deliveryId) (reopened input) fun _ _ => ⟨rfl, rfl⟩)
      (·.deliveries.count (·.id == deliveryId))
    guardedTransition input.recordingId .delivering input.at_
    clearRecordingError input.recordingId
    insertAuditEvent ⟨input.auditEventId, input.at_, "operator", input.actorId,
      "manual_retry_delivery", some input.recordingId, "\x7b\x7d"⟩
    commitTx
    requireDelivery deliveryId

def recordingStatusOf : DeliveryStatus → RecordingStatus
  | .delivered => .delivered
  | .deliveryFailed => .deliveryFailed
  | .delivering => .delivering

def completeDelivery (deliveryId : String) (status : DeliveryStatus) (at_ : Int)
    (error : Option String) : Query Delivery := do
  beginTx
  let recordingId ← recordingIdForDelivery deliveryId
  let _ ← modify
    (·.updateDeliveries (·.id == deliveryId) (fun d => (d.completed status at_).withError error)
      fun _ _ => ⟨rfl, rfl⟩)
    (·.deliveries.count (·.id == deliveryId))
  match error with
  | some message =>
    let _ ← modify (·.setLatestError (·.id == recordingId) (some message))
      (·.recordings.count (·.id == recordingId))
  | none => pure ()
  guardedTransition recordingId (recordingStatusOf status) at_
  commitTx
  requireDelivery deliveryId

def markDeliveryDelivered (deliveryId : String) (at_ : Int) : Query Delivery :=
  completeDelivery deliveryId .delivered at_ none

def markDeliveryFailed (deliveryId : String) (at_ : Int) (error : String) : Query Delivery :=
  completeDelivery deliveryId .deliveryFailed at_ (some error)

/-- Claim the oldest `received` Recording; the id of the row claimed. -/
def claimReceivedTx (now : Int) : Query (Option String) := do
  beginTx
  match ← query (·.oldestWithStatus .received) with
  | none =>
    dropTx
    pure none
  | some id =>
    guardedTransition id .transcribing now
    commitTx
    pure (some id)

def claimReceivedForTranscription (now : Int) : Query (Option Recording) := do
  match ← claimReceivedTx now with
  | none => pure none
  | some id => pure (some (← requireRecording id))

def transcriptionCandidate (row : TranscriptionRetryRow) (recording : Recording) :
    TranscriptionRetryCandidate :=
  ⟨recording, row.lastAttemptNumber, row.lastFinished, row.retryWindow⟩

def transcriptionRetryCandidates : Query (List TranscriptionRetryCandidate) := do
  let rows ← query (·.transcriptionRetryRows)
  collect (fun row => do pure (transcriptionCandidate row (← requireRecording row.recordingId))) rows

/-- The three statements both attempt claims open with. -/
def claimAttempt {δ : Type} (attempts : Store → AttemptTable δ)
    (insert : Store → Attempt δ → Except StorageError Store) (attemptId parent : String)
    (now : Int) : Query (Option Nat) := do
  if ← query fun s => (attempts s).inFlight parent then
    pure none
  else
    let number ← query fun s => ((attempts s).lastNumber parent).getD 0 + 1
    attempt (insert · (AttemptTable.started attemptId parent number now))
    pure (some number)

/-- The anchor of the retry deadline: the manual retry if there was one, else the
first attempt ever. -/
def retryAnchor (recordingId : String) : Query Int := do
  let row ← require (← query (·.recording recordingId)) (.database .failed)
  match row.retryWindowStartedAt with
  | some window => pure window
  | none => require (← query (·.transcriptionAttempts.firstStarted recordingId)) (.database .failed)

def startTranscriptionAttempt (attemptId recordingId : String) (now : Int) :
    Query (Option TranscriptionAttemptStart) := do
  beginTx
  match ← claimAttempt (·.transcriptionAttempts) Store.insertTranscriptionAttempt attemptId
      recordingId now with
  | none =>
    dropTx
    pure none
  | some attemptNumber =>
    let firstStarted ← retryAnchor recordingId
    commitTx
    pure (some ⟨attemptNumber, firstStarted⟩)

def succeedTranscriptionTx (attemptId : String) (finishedAt : Int) (transcript : NewTranscript) :
    Query Unit := do
  beginTx
  finishTranscriptionAttempt attemptId finishedAt .succeeded false none none
  insertTranscript transcript
  guardedTransition transcript.recordingId .routing finishedAt
  commitTx

def succeedTranscription (attemptId : String) (finishedAt : Int) (transcript : NewTranscript) :
    Query Transcript := do
  succeedTranscriptionTx attemptId finishedAt transcript
  requireTranscript transcript.recordingId

def retryTranscription (attemptId recordingId : String) (finishedAt : Int)
    (code message : String) : Query Unit := do
  beginTx
  finishTranscriptionAttempt attemptId finishedAt .failed true (some code) (some message)
  setRecordingError recordingId finishedAt message
  commitTx

def failTranscriptionTx (attemptId recordingId : String) (finishedAt : Int)
    (code message : String) : Query Unit := do
  beginTx
  finishTranscriptionAttempt attemptId finishedAt .failed false (some code) (some message)
  setRecordingError recordingId finishedAt message
  guardedTransition recordingId .transcriptionFailed finishedAt
  commitTx

def failTranscription (attemptId recordingId : String) (finishedAt : Int)
    (code message : String) : Query Recording := do
  failTranscriptionTx attemptId recordingId finishedAt code message
  requireRecording recordingId

def claimRoutingCandidate : Query (Option Recording) := do
  match ← query (·.oldestWithStatus .routing) with
  | some id => pure (some (← requireRecording id))
  | none => pure none

def deliveryCandidate (row : DeliveryCandidateRow) (delivery : Delivery) (recording : Recording)
    (transcript : Transcript) : DeliveryCandidate :=
  ⟨delivery, recording, transcript, row.lastAttemptNumber, row.lastFinished, row.retryWindow⟩

def deliveryCandidates : Query (List DeliveryCandidate) := do
  let rows ← query (·.deliveryCandidateRows)
  collect (fun row => do
    let delivery ← requireDelivery row.deliveryId
    let recording ← requireRecording delivery.recordingId
    let transcript ← requireTranscript delivery.recordingId
    pure (deliveryCandidate row delivery recording transcript)) rows

def startDeliveryAttempt (attemptId deliveryId : String) (now : Int) : Query (Option Nat) := do
  beginTx
  match ← claimAttempt (·.deliveryAttempts) Store.insertDeliveryAttempt attemptId deliveryId now with
  | none =>
    dropTx
    pure none
  | some attemptNumber =>
    commitTx
    pure (some attemptNumber)

def succeedDeliveryTx (attemptId deliveryId : String) (finishedAt : Int)
    (httpStatus : Option Int) : Query Unit := do
  beginTx
  let recordingId ← recordingIdForDelivery deliveryId
  finishDeliveryAttempt attemptId finishedAt .succeeded false httpStatus none
  let _ ← modify
    (·.updateDeliveries (·.id == deliveryId) (·.completed .delivered finishedAt)
      fun _ _ => ⟨rfl, rfl⟩)
    (·.deliveries.count (·.id == deliveryId))
  guardedTransition recordingId .delivered finishedAt
  commitTx

def succeedDelivery (attemptId deliveryId : String) (finishedAt : Int)
    (httpStatus : Option Int) : Query Delivery := do
  succeedDeliveryTx attemptId deliveryId finishedAt httpStatus
  requireDelivery deliveryId

def retryDelivery (attemptId deliveryId : String) (finishedAt : Int) (httpStatus : Option Int)
    (message : String) : Query Unit := do
  beginTx
  let recordingId ← recordingIdForDelivery deliveryId
  finishDeliveryAttempt attemptId finishedAt .failed true httpStatus (some message)
  let _ ← modify
    (·.updateDeliveries (·.id == deliveryId) (·.withError (some message)) fun _ _ => ⟨rfl, rfl⟩)
    (·.deliveries.count (·.id == deliveryId))
  setRecordingError recordingId finishedAt message
  commitTx

def failDeliveryTx (attemptId deliveryId : String) (finishedAt : Int) (httpStatus : Option Int)
    (message : String) : Query Unit := do
  beginTx
  let recordingId ← recordingIdForDelivery deliveryId
  finishDeliveryAttempt attemptId finishedAt .failed false httpStatus (some message)
  let _ ← modify
    (·.updateDeliveries (·.id == deliveryId)
      (fun d => (d.completed .deliveryFailed finishedAt).withError (some message))
      fun _ _ => ⟨rfl, rfl⟩)
    (·.deliveries.count (·.id == deliveryId))
  setRecordingError recordingId finishedAt message
  guardedTransition recordingId .deliveryFailed finishedAt
  commitTx

def failDelivery (attemptId deliveryId : String) (finishedAt : Int) (httpStatus : Option Int)
    (message : String) : Query Delivery := do
  failDeliveryTx attemptId deliveryId finishedAt httpStatus message
  requireDelivery deliveryId

end SqliteStore
end Telegraph
