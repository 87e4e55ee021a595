import Telegraph.Backoff
import Telegraph.SqliteStore

namespace Telegraph
open Lib Program SqliteStore

/-- Whether a tick did a unit of work or found nothing ready. -/
inductive WorkOutcome where
  | worked
  | idle
deriving DecidableEq, Repr

/-- How an integration reports a failure. -/
inductive WorkerFailure where
  | retryable (code message : String)
  | terminal (code message : String)
deriving DecidableEq, Repr

structure TranscriptionOutput where
  provider : String
  text : String
  rawJson : String
  providerFileId : Option String
  providerTranscriptionId : Option String
deriving DecidableEq, Repr

inductive RoutingDecision where
  | sink (name : String)
  | backlog

/-- The unit of work an attempt belongs to. -/
inductive Item where
  | transcription (recordingId : String)
  | delivery (deliveryId : String)
deriving DecidableEq, Repr

/-- What a run shows of the attempts: when their row is committed, when the
integration is called and answers, how they end, when an Operator reopens the work. -/
inductive Event where
  | started (item : Item) (attemptId : String) (t : Int)
  | called (item : Item) (attemptId : String)
  | answered (item : Item) (attemptId : String) (ok : Bool)
  | finished (item : Item) (attemptId : String) (t : Int) (how : Lib.Retry.Finish)
  | reopened (item : Item) (t : Int)
deriving DecidableEq, Repr

/-- What one step of a tick takes from outside: the clock, a fresh id, the
integration's answer. -/
structure Supply (α : Type) where
  now : Int
  id : String
  answer : α

/-- One step of a tick: local, or one store transaction, whose failure the tick
may tolerate. -/
inductive Action (κ : Type) where
  | local (next : κ) (events : List Event)
  | store (tx : Query (κ × List Event)) (tolerate : StorageError → Option κ)

namespace Action
variable {κ : Type}

def run (a : Action κ) (s : Store) : Store × Except StorageError (κ × List Event) :=
  match a with
  | .local next events => (s, .ok (next, events))
  | .store tx tolerate =>
    match tx.run s with
    | (s', .ok r) => (s', .ok r)
    | (s', .error e) => match tolerate e with
      | some next => (s', .ok (next, []))
      | none => (s', .error e)

end Action

/-- A transaction whose failure ends the tick. -/
def transact {κ : Type} (tx : Query (κ × List Event)) : Action κ := .store tx fun _ => none

namespace Transcription

/-- Where a tick of `transcription::tick_once` stands. `claimed` also remembers the
last attempt number the candidate showed; the tick itself does not use it. -/
inductive Pc where
  | ready (last : Option WorkOutcome)
  | began (startedAt : Int)
  | confirming (startedAt : Int) (id : String)
  | unclaimed (startedAt : Int)
  | loading (startedAt : Int) (rows : List TranscriptionRetryRow)
      (candidates : List TranscriptionRetryCandidate)
  | claimed (startedAt : Int) (recording : Recording) (seen : Nat)
  | started (recording : Recording) (attemptId : String) (start : TranscriptionAttemptStart)
  | calling (recording : Recording) (attemptId : String) (start : TranscriptionAttemptStart)
  | answered (recording : Recording) (attemptId : String) (start : TranscriptionAttemptStart)
      (finishedAt : Int) (result : Except WorkerFailure TranscriptionOutput)
  | confirmingTranscript (recordingId : String)
  | confirmingFailure (recordingId : String)

/-- The test `pick_due_retry` makes of each candidate. -/
def isDue (now : Int) (c : TranscriptionRetryCandidate) : Bool :=
  let manualRetry := c.retryWindowStartedAt.any fun window =>
    decide (c.lastAttemptFinishedAt < window)
  let due := Retry.nextRetryAt c.lastAttemptFinishedAt c.lastAttemptNumber
  manualRetry || decide (due ≤ now)

def pickDueRetry (now : Int) (candidates : List TranscriptionRetryCandidate) :
    Option TranscriptionRetryCandidate :=
  candidates.find? (isDue now)

def newTranscript (recording : Recording) (output : TranscriptionOutput) (finishedAt : Int) :
    NewTranscript :=
  ⟨recording.id, output.provider, output.text, output.rawJson, output.providerFileId,
    output.providerTranscriptionId, finishedAt⟩

/-- The transaction that records how the attempt ended. -/
def record (recording : Recording) (attemptId : String) (start : TranscriptionAttemptStart)
    (finishedAt : Int) : Except WorkerFailure TranscriptionOutput → Query (Pc × List Event)
  | .ok output => do
    succeedTranscriptionTx attemptId finishedAt (newTranscript recording output finishedAt)
    pure (.confirmingTranscript recording.id,
      [.finished (.transcription recording.id) attemptId finishedAt .succeeded])
  | .error (.retryable code message) => do
    let deadline := Retry.transcriptionDeadline start.firstStartedAt recording.audioDurationMs
    if deadline ≤ finishedAt then
      failTranscriptionTx attemptId recording.id finishedAt code message
      pure (.confirmingFailure recording.id,
        [.finished (.transcription recording.id) attemptId finishedAt .terminal])
    else
      retryTranscription attemptId recording.id finishedAt code message
      pure (.ready (some .worked),
        [.finished (.transcription recording.id) attemptId finishedAt .retryable])
  | .error (.terminal code message) => do
    failTranscriptionTx attemptId recording.id finishedAt code message
    pure (.confirmingFailure recording.id,
      [.finished (.transcription recording.id) attemptId finishedAt .terminal])

def action (supply : Supply (Except WorkerFailure TranscriptionOutput)) : Pc → Action Pc
  | .ready _ => .local (.began supply.now) []
  | .began t => transact do
    match ← claimReceivedTx t with
    | some id => pure (.confirming t id, [])
    | none => pure (.unclaimed t, [])
  | .confirming t id => transact do
    pure (.claimed t (← requireRecording id) 0, [])
  | .unclaimed t => transact do
    pure (.loading t (← query (·.transcriptionRetryRows)) [], [])
  | .loading t (row :: rows) candidates => transact do
    let recording ← requireRecording row.recordingId
    pure (.loading t rows (candidates ++ [transcriptionCandidate row recording]), [])
  | .loading t [] candidates =>
    match pickDueRetry t candidates with
    | some c => .local (.claimed t c.recording c.lastAttemptNumber) []
    | none => .local (.ready (some .idle)) []
  | .claimed t recording _ => transact do
    match ← startTranscriptionAttempt supply.id recording.id t with
    | some start =>
      pure (.started recording supply.id start, [.started (.transcription recording.id) supply.id t])
    -- Another worker claimed it first.
    | none => pure (.ready (some .idle), [])
  | .started recording attemptId start =>
    .local (.calling recording attemptId start) [.called (.transcription recording.id) attemptId]
  | .calling recording attemptId start =>
    .local (.answered recording attemptId start supply.now supply.answer)
      [.answered (.transcription recording.id) attemptId supply.answer.isOk]
  | .answered recording attemptId start t result =>
    transact (record recording attemptId start t result)
  | .confirmingTranscript id => transact do
    let _ ← requireTranscript id
    pure (.ready (some .worked), [])
  | .confirmingFailure id => transact do
    let _ ← requireRecording id
    pure (.ready (some .worked), [])

/-- The tick stands before a transaction that reads and then writes. -/
def Pc.readsFirst : Pc → Bool
  | .began _ | .claimed _ _ _ => true
  | _ => false

end Transcription

namespace Routing

/-- Where a tick of `routing::tick_once` stands. -/
inductive Pc where
  | ready (last : Option WorkOutcome)
  | began (now : Int)
  | confirming (now : Int) (id : String)
  | deciding (now : Int) (recording : Recording)
  | backlogging (now : Int) (recordingId : String)
  | selecting (now : Int) (recordingId sinkName : String)
  | confirmingBacklog (recordingId : String)
  | confirmingDelivery (deliveryId : String)

def newDelivery (id recordingId sinkName : String) (now : Int) : NewDelivery :=
  ⟨id, recordingId, sinkName, now, some (now + Retry.deliveryWindow)⟩

def action (route : Recording → RoutingDecision) (supply : Supply Unit) : Pc → Action Pc
  | .ready _ => .local (.began supply.now) []
  | .began now => transact do
    match ← query (·.oldestWithStatus .routing) with
    | some id => pure (.confirming now id, [])
    | none => pure (.ready (some .idle), [])
  | .confirming now id => transact do
    pure (.deciding now (← requireRecording id), [])
  | .deciding now recording =>
    match route recording with
    | .backlog => .local (.backlogging now recording.id) []
    | .sink name => .local (.selecting now recording.id name) []
  | .backlogging now id => .store
    (do
      markBackloggedTx id now
      pure (.confirmingBacklog id, []))
    fun e => match e with
      | .invalidTransition _ _ => some (.ready (some .worked))
      | _ => none
  | .selecting now recordingId sinkName => transact do
    if ← routeToSinkTx (newDelivery supply.id recordingId sinkName now) then
      pure (.confirmingDelivery supply.id, [])
    else
      pure (.ready (some .worked), [])
  | .confirmingBacklog id => transact do
    let _ ← requireRecording id
    pure (.ready (some .worked), [])
  | .confirmingDelivery id => transact do
    let _ ← requireDelivery id
    pure (.ready (some .worked), [])

/-- The tick stands before a transaction that reads and then writes. -/
def Pc.readsFirst : Pc → Bool
  | .backlogging _ _ => true
  | _ => false

end Routing

namespace Delivering

/-- Where a tick of `delivery::tick_once` stands; each candidate takes three reads. -/
inductive Pc where
  | ready (last : Option WorkOutcome)
  | began (startedAt : Int)
  | loading (startedAt : Int) (rows : List DeliveryCandidateRow) (candidates : List DeliveryCandidate)
  | loadingRecording (startedAt : Int) (row : DeliveryCandidateRow)
      (rows : List DeliveryCandidateRow) (candidates : List DeliveryCandidate) (delivery : Delivery)
  | loadingTranscript (startedAt : Int) (row : DeliveryCandidateRow)
      (rows : List DeliveryCandidateRow) (candidates : List DeliveryCandidate) (delivery : Delivery)
      (recording : Recording)
  | claimed (startedAt : Int) (candidate : DeliveryCandidate)
  | started (candidate : DeliveryCandidate) (attemptId : String)
  | calling (candidate : DeliveryCandidate) (attemptId : String)
  | answered (candidate : DeliveryCandidate) (attemptId : String) (finishedAt : Int)
      (result : Except WorkerFailure Unit)
  | confirming (deliveryId : String)

/-- The test `pick_due_delivery` makes of each candidate. Without an attempt on
record the first one is due since the Sink was selected. -/
def isDue (now : Int) (c : DeliveryCandidate) : Bool :=
  let manualRetry := c.retryWindowStartedAt.any fun window =>
    c.lastAttemptFinishedAt.all fun finishedAt => decide (finishedAt < window)
  let due := match c.lastAttemptNumber, c.lastAttemptFinishedAt with
    | some number, some finishedAt => Retry.nextRetryAt finishedAt number
    | _, _ => c.delivery.selectedAt
  manualRetry || decide (due ≤ now)

def pickDueDelivery (now : Int) (candidates : List DeliveryCandidate) : Option DeliveryCandidate :=
  candidates.find? (isDue now)

/-- The transaction that records how the attempt ended. -/
def record (candidate : DeliveryCandidate) (attemptId : String) (finishedAt : Int) :
    Except WorkerFailure Unit → Query (Pc × List Event)
  | .ok () => do
    succeedDeliveryTx attemptId candidate.delivery.id finishedAt none
    pure (.confirming candidate.delivery.id,
      [.finished (.delivery candidate.delivery.id) attemptId finishedAt .succeeded])
  | .error (.retryable _ message) => do
    let expired := candidate.delivery.retryDeadlineAt.any fun deadline =>
      decide (deadline ≤ finishedAt)
    if expired then
      failDeliveryTx attemptId candidate.delivery.id finishedAt none message
      pure (.confirming candidate.delivery.id,
        [.finished (.delivery candidate.delivery.id) attemptId finishedAt .terminal])
    else
      retryDelivery attemptId candidate.delivery.id finishedAt none message
      pure (.ready (some .worked),
        [.finished (.delivery candidate.delivery.id) attemptId finishedAt .retryable])
  | .error (.terminal _ message) => do
    failDeliveryTx attemptId candidate.delivery.id finishedAt none message
    pure (.confirming candidate.delivery.id,
      [.finished (.delivery candidate.delivery.id) attemptId finishedAt .terminal])

def action (supply : Supply (Except WorkerFailure Unit)) : Pc → Action Pc
  | .ready _ => .local (.began supply.now) []
  | .began t => transact do
    pure (.loading t (← query (·.deliveryCandidateRows)) [], [])
  | .loading t (row :: rows) candidates => transact do
    pure (.loadingRecording t row rows candidates (← requireDelivery row.deliveryId), [])
  | .loadingRecording t row rows candidates delivery => transact do
    let recording ← requireRecording delivery.recordingId
    pure (.loadingTranscript t row rows candidates delivery recording, [])
  | .loadingTranscript t row rows candidates delivery recording => transact do
    let transcript ← requireTranscript delivery.recordingId
    pure (.loading t rows (candidates ++ [deliveryCandidate row delivery recording transcript]), [])
  | .loading t [] candidates =>
    match pickDueDelivery t candidates with
    | some c => .local (.claimed t c) []
    | none => .local (.ready (some .idle)) []
  | .claimed t candidate => transact do
    match ← startDeliveryAttempt supply.id candidate.delivery.id t with
    | some _ =>
      pure (.started candidate supply.id, [.started (.delivery candidate.delivery.id) supply.id t])
    -- Another worker claimed it first.
    | none => pure (.ready (some .idle), [])
  | .started candidate attemptId =>
    .local (.calling candidate attemptId) [.called (.delivery candidate.delivery.id) attemptId]
  | .calling candidate attemptId =>
    .local (.answered candidate attemptId supply.now supply.answer)
      [.answered (.delivery candidate.delivery.id) attemptId supply.answer.isOk]
  | .answered candidate attemptId t result => transact (record candidate attemptId t result)
  | .confirming id => transact do
    -- A terminal failure reads the Delivery back too.
    let _ ← requireDelivery id
    pure (.ready (some .worked), [])

/-- The tick stands before a transaction that reads and then writes. -/
def Pc.readsFirst : Pc → Bool
  | .claimed _ _ | .answered _ _ _ _ => true
  | _ => false

end Delivering
end Telegraph
