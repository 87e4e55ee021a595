import Telegraph.Proofs.Lifecycle
import Telegraph.Board
import Telegraph.Service

namespace Telegraph
open Lib.Retry

/-- Where Transcription stands with a Recording of this status. -/
def RecordingStatus.transcription : RecordingStatus → Phase
  | received => .waiting
  | transcribing => .active
  | transcriptionFailed => .failed
  | _ => .done

def DeliveryStatus.phase : DeliveryStatus → Phase
  | delivering => .active
  | delivered => .done
  | deliveryFailed => .failed

namespace View

/-- Where Transcription of a Recording stands and when an Operator reopened it; it
waits from the upload on. -/
def transcriptionStage (v : View) (x : String) : Phase × Option Int :=
  match v.recording x with
  | some r => (r.status.transcription, r.retryWindowStartedAt)
  | none => (.waiting, none)

def transcriptionLedger (v : View) (x : String) : Ledger String :=
  ⟨v.transcriptionAttempts x, (v.transcriptionStage x).1, none, (v.transcriptionStage x).2⟩

/-- Where a Delivery stands, when its Sink was selected and when an Operator reopened
it; it waits until its Sink is selected. -/
def deliveryStage (v : View) (x : String) : Phase × Option Int × Option Int :=
  match v.delivery x with
  | some d => (d.status.phase, some d.selectedAt, d.retryWindowStartedAt)
  | none => (.waiting, none, none)

def deliveryLedger (v : View) (x : String) : Ledger Int :=
  ⟨v.deliveryAttempts x, (v.deliveryStage x).1, (v.deliveryStage x).2.1, (v.deliveryStage x).2.2⟩

/-- Every Delivery's deadline is a full window after its Sink was selected or, if
an Operator reopened it, after that. -/
def Deadlines (v : View) : Prop :=
  ∀ x d, v.delivery x = some d → d.retryDeadlineAt =
    some (d.retryWindowStartedAt.getD d.selectedAt + Retry.deliveryWindow)

end View

namespace Event

def move (item : Item) : Event → Option Move
  | started i _ t => if i = item then some (.started t) else none
  | finished i _ t how => if i = item then some (.finished t how) else none
  | reopened i t => if i = item then some (.reopened t) else none
  | called _ _ => none
  | answered _ _ _ => none

end Event

/-- What happened to one piece of work in a run. -/
def history (item : Item) (trace : List Event) : List Move := trace.filterMap (Event.move item)

/-- A candidate row tells the last attempt and the window of a ledger. -/
def Ledger.Shows {δ : Type} (l : Ledger δ) (number : Nat) (finishedAt : Int) (window : Option Int) :
    Prop :=
  ∃ before a, l.rows = before ++ [a] ∧ a.finishedAt = some finishedAt ∧ number = l.rows.length ∧
    window = l.window

def DeliveryCandidateRow.Shows (row : DeliveryCandidateRow) (l : Ledger Int) : Prop :=
  (l.rows = [] ∧ row.lastAttemptNumber = none ∧ row.lastFinished = none ∧ row.retryWindow = l.window) ∨
    ∃ n f, row.lastAttemptNumber = some n ∧ row.lastFinished = some f ∧ l.Shows n f row.retryWindow

def DeliveryCandidate.row (c : DeliveryCandidate) : DeliveryCandidateRow :=
  ⟨c.delivery.id, c.lastAttemptNumber, c.lastAttemptFinishedAt, c.retryWindowStartedAt⟩

/-- Where a Transcription tick stands, as its slot on the board. -/
inductive Transcription.Pc.Stands : Pc → Slot String → Prop where
  | ready (last : Option WorkOutcome) : Stands (.ready last) .free
  | began (t : Int) : Stands (.began t) (.looking t [])
  | confirming (t : Int) (x : String) : Stands (.confirming t x) (.claimed t x)
  | unclaimed (t : Int) : Stands (.unclaimed t) (.looking t [])
  | loading (t : Int) (rows : List TranscriptionRetryRow)
      (candidates : List TranscriptionRetryCandidate) (seen : List (String × Ledger String)) :
      (∀ row ∈ rows, ∃ l, (row.recordingId, l) ∈ seen ∧
        l.Shows row.lastAttemptNumber row.lastFinished row.retryWindow) →
      (∀ c ∈ candidates, ∃ l, (c.recording.id, l) ∈ seen ∧
        l.Shows c.lastAttemptNumber c.lastAttemptFinishedAt c.retryWindowStartedAt) →
      Stands (.loading t rows candidates) (.looking t seen)
  | first (t : Int) (recording : Recording) :
      Stands (.claimed t recording 0) (.claimed t recording.id)
  | retry (t : Int) (recording : Recording) (l : Ledger String)
      (seen : List (String × Ledger String)) : (recording.id, l) ∈ seen →
      l.track.Due Retry.policy t → Stands (.claimed t recording l.rows.length) (.looking t seen)
  | started (recording : Recording) (attemptId : String) (start : TranscriptionAttemptStart) :
      Stands (.started recording attemptId start) (.busy recording.id attemptId start.firstStartedAt)
  | calling (recording : Recording) (attemptId : String) (start : TranscriptionAttemptStart) :
      Stands (.calling recording attemptId start) (.busy recording.id attemptId start.firstStartedAt)
  | answered (recording : Recording) (attemptId : String) (start : TranscriptionAttemptStart)
      (t : Int) (result : Except WorkerFailure TranscriptionOutput) :
      Stands (.answered recording attemptId start t result)
        (.ended recording.id attemptId start.firstStartedAt t)
  | confirmingTranscript (x : String) : Stands (.confirmingTranscript x) .free
  | confirmingFailure (x : String) : Stands (.confirmingFailure x) .free

/-- The deadline the Delivery was read with is the ledger's, unless an attempt
was started since. -/
def Board.Fits {ι : Type} (b : Board ι Int) (l : Ledger Int) (d : Delivery) : Prop :=
  (b.items d.id).rows.length = l.rows.length → ∃ o, l.track.anchor = some o ∧
    d.retryDeadlineAt = some (o + Retry.deliveryWindow)

/-- A candidate shows a ledger the tick has seen. -/
def Board.Presents {ι : Type} (b : Board ι Int) (seen : List (String × Ledger Int))
    (c : DeliveryCandidate) : Prop :=
  ∃ l, (c.delivery.id, l) ∈ seen ∧ c.row.Shows l ∧ b.Fits l c.delivery

/-- Where a Delivery tick stands, as its slot on the board. -/
inductive Delivering.Pc.Stands {ι : Type} (b : Board ι Int) : Pc → Slot Int → Prop where
  | ready (last : Option WorkOutcome) : Stands b (.ready last) .free
  | began (t : Int) : Stands b (.began t) (.looking t [])
  | loading (t : Int) (rows : List DeliveryCandidateRow) (candidates : List DeliveryCandidate)
      (seen : List (String × Ledger Int)) :
      (∀ row ∈ rows, ∃ l, (row.deliveryId, l) ∈ seen ∧ row.Shows l) →
      (∀ c ∈ candidates, b.Presents seen c) → Stands b (.loading t rows candidates) (.looking t seen)
  | loadingRecording (t : Int) (row : DeliveryCandidateRow) (rows : List DeliveryCandidateRow)
      (candidates : List DeliveryCandidate) (delivery : Delivery)
      (seen : List (String × Ledger Int)) :
      (∀ row ∈ rows, ∃ l, (row.deliveryId, l) ∈ seen ∧ row.Shows l) →
      (∀ c ∈ candidates, b.Presents seen c) →
      (∃ l, (delivery.id, l) ∈ seen ∧ row.Shows l ∧ b.Fits l delivery) →
      Stands b (.loadingRecording t row rows candidates delivery) (.looking t seen)
  | loadingTranscript (t : Int) (row : DeliveryCandidateRow) (rows : List DeliveryCandidateRow)
      (candidates : List DeliveryCandidate) (delivery : Delivery) (recording : Recording)
      (seen : List (String × Ledger Int)) :
      (∀ row ∈ rows, ∃ l, (row.deliveryId, l) ∈ seen ∧ row.Shows l) →
      (∀ c ∈ candidates, b.Presents seen c) →
      (∃ l, (delivery.id, l) ∈ seen ∧ row.Shows l ∧ b.Fits l delivery) →
      Stands b (.loadingTranscript t row rows candidates delivery recording) (.looking t seen)
  | claimed (t : Int) (candidate : DeliveryCandidate) (seen : List (String × Ledger Int)) :
      isDue t candidate = true → b.Presents seen candidate →
      Stands b (.claimed t candidate) (.looking t seen)
  | started (candidate : DeliveryCandidate) (attemptId : String) (o : Int) :
      candidate.delivery.retryDeadlineAt = some (o + Retry.deliveryWindow) →
      Stands b (.started candidate attemptId) (.busy candidate.delivery.id attemptId o)
  | calling (candidate : DeliveryCandidate) (attemptId : String) (o : Int) :
      candidate.delivery.retryDeadlineAt = some (o + Retry.deliveryWindow) →
      Stands b (.calling candidate attemptId) (.busy candidate.delivery.id attemptId o)
  | answered (candidate : DeliveryCandidate) (attemptId : String) (o t : Int)
      (result : Except WorkerFailure Unit) :
      candidate.delivery.retryDeadlineAt = some (o + Retry.deliveryWindow) →
      Stands b (.answered candidate attemptId t result) (.ended candidate.delivery.id attemptId o t)
  | confirming (x : String) : Stands b (.confirming x) .free

/-- The time a routing tick holds was read by `clock`. -/
def Routing.Pc.ReadBy (clock : Int) : Pc → Prop
  | .began now | .confirming now _ | .deciding now _ | .backlogging now _ | .selecting now _ _ =>
    now ≤ clock
  | _ => True

namespace Service
variable {ι : Type}

/-- At the commit of an attempt the work's last attempt is the one the candidate
showed, or is in flight. -/
def Undisturbed (c : Service ι) : Input ι → Prop
  | .transcribe i _ _ => match c.transcribers i with
    | .claimed _ recording seen =>
      c.store.transcriptionAttempts.inFlight recording.id = true ∨
        (c.store.transcriptionAttempts.lastNumber recording.id).getD 0 = seen
    | _ => True
  | .deliver i _ _ => match c.deliverers i with
    | .claimed _ candidate =>
      c.store.deliveryAttempts.inFlight candidate.delivery.id = true ∨
        c.store.deliveryAttempts.lastNumber candidate.delivery.id = candidate.lastAttemptNumber
    | _ => True
  | _ => True

/-- The service plays its part on both boards: one for Transcription, one for Delivery. -/
structure Refines (c : Service ι) (b : Board ι String) (d : Board ι Int) : Prop where
  lifecycle : c.store.view.Lifecycle
  deadlines : c.store.view.Deadlines
  transcriptions : c.store.view.transcriptionLedger = b.items
  deliveries : c.store.view.deliveryLedger = d.items
  transcription_clock : b.clock = c.clock
  delivery_clock : d.clock = c.clock
  transcription_running : b.running = c.running
  delivery_running : d.running = c.running
  transcribers : ∀ i, (c.transcribers i).Stands (b.slots i)
  deliverers : ∀ i, (c.deliverers i).Stands d (d.slots i)
  routers : ∀ i, (c.routers i).ReadBy c.clock

/-- What a step leads to is a step on each board. -/
def Matches [DecidableEq ι] (b : Board ι String) (d : Board ι Int)
    (r : Service ι × List Event) : Prop :=
  ∃ b' d', b.Step Retry.policy (fun x => history (.transcription x) r.2) b' ∧
    d.Step Retry.policy (fun x => history (.delivery x) r.2) d' ∧ r.1.Refines b' d'

end Service
end Telegraph
