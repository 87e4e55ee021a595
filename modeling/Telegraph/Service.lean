import Telegraph.Operation
import Telegraph.Timestamp
import Telegraph.Workers

namespace Telegraph
open Lib SqliteStore Function

/-- The three worker loops. -/
inductive Loop where
  | transcription
  | routing
  | delivery
deriving DecidableEq, Repr

/-- The running process over its database: `ι` numbers the worker loops of each
kind. The database outlives the process. -/
structure Service (ι : Type) where
  store : Store
  clock : Int
  running : Bool
  transcribers : ι → Transcription.Pc
  routers : ι → Routing.Pc
  deliverers : ι → Delivering.Pc

/-- One store transaction or local step of a worker, one committed request of a
client or the Operator, the loss of the process, or its startup; or the database is
busy with another connection's write and refuses the first write of a worker's
transaction that has read before it. -/
inductive Input (ι : Type) where
  | transcribe (i : ι) (id : String) (answer : Except WorkerFailure TranscriptionOutput)
  | route (i : ι) (id : String)
  | deliver (i : ι) (id : String) (answer : Except WorkerFailure Unit)
  | upload (new : NewRecording)
  | manualRoute (input : ManualRoute)
  | manualRetryTranscription (input : ManualRetryTranscription)
  | manualRetryDelivery (input : ManualRetryDelivery)
  | refuse (l : Loop) (i : ι)
  | crash
  | recover

/-- The operation a step that is no worker's makes. -/
def Input.operation {ι : Type} (now : Int) : Input ι → Option Operation
  | .upload new => some (.createRecording new)
  | .manualRoute input => some (.manualRoute input)
  | .manualRetryTranscription input => some (.manualRetryTranscription input)
  | .manualRetryDelivery input => some (.manualRetryDelivery input)
  | .recover => some (.recoverAbandonedAttempts now)
  | _ => none

/-- What an Operator asks in a step: of which Recording, in which status. -/
def Input.asks {ι : Type} : Input ι → Option (String × RecordingStatus × Operation)
  | .manualRoute input => some (input.recordingId, .backlogged, .manualRoute input)
  | .manualRetryTranscription input =>
    some (input.recordingId, .transcriptionFailed, .manualRetryTranscription input)
  | .manualRetryDelivery input =>
    some (input.recordingId, .deliveryFailed, .manualRetryDelivery input)
  | _ => none

namespace Service
variable {ι : Type}

def initial : Service ι :=
  ⟨Store.empty, Timestamp.yearZero, false, fun _ => .ready none, fun _ => .ready none,
    fun _ => .ready none⟩

/-- The process is gone, and every tick with it. -/
def stopped (c : Service ι) : Service ι :=
  { c with
    running := false
    transcribers := fun _ => .ready none
    routers := fun _ => .ready none
    deliverers := fun _ => .ready none }

/-- The tick of worker `i` of a loop stands before a transaction that reads and then writes. -/
def readsFirst (c : Service ι) (l : Loop) (i : ι) : Bool :=
  match l with
  | .transcription => (c.transcribers i).readsFirst
  | .routing => (c.routers i).readsFirst
  | .delivery => (c.deliverers i).readsFirst

/-- A request's times are clock readings taken before it commits, and the monitor
always asks for a full Delivery window. -/
def Admits (c : Service ι) (now : Int) : Input ι → Prop
  | .manualRoute input => c.running = true ∧ input.selectedAt ≤ now ∧
      Timestamp.InYears input.selectedAt ∧
      input.retryDeadlineAt = input.selectedAt + Retry.deliveryWindow
  | .manualRetryTranscription input => c.running = true ∧ input.at_ ≤ now ∧
      Timestamp.InYears input.at_
  | .manualRetryDelivery input => c.running = true ∧ input.at_ ≤ now ∧
      Timestamp.InYears input.at_ ∧
      input.retryDeadlineAt = input.at_ + Retry.deliveryWindow
  | .refuse l i => c.running = true ∧ c.readsFirst l i = true
  | .crash => True
  | .recover => c.running = false
  | _ => c.running = true

instance (c : Service ι) (now : Int) (input : Input ι) : Decidable (c.Admits now input) := by
  cases input <;> unfold Admits <;> infer_instance

/-- The attempts recovery closes. -/
def abandonments {δ : Type} (item : String → Item) (t : AttemptTable δ) (now : Int) : List Event :=
  (t.rows.filter (·.finishedAt.isNone)).map fun a =>
    .finished (item a.parentId) a.id now .abandoned

def onTranscriber [DecidableEq ι] (c : Service ι) (i : ι) (pc : Transcription.Pc) : Service ι :=
  { c with transcribers := update c.transcribers i pc }

def onRouter [DecidableEq ι] (c : Service ι) (i : ι) (pc : Routing.Pc) : Service ι :=
  { c with routers := update c.routers i pc }

def onDeliverer [DecidableEq ι] (c : Service ι) (i : ι) (pc : Delivering.Pc) : Service ι :=
  { c with deliverers := update c.deliverers i pc }

/-- A worker error ends the process; any other step moves the worker on. -/
def settle {κ : Type} (c : Service ι) (place : Service ι → κ → Service ι)
    (r : Store × Except StorageError (κ × List Event)) : Service ι × List Event :=
  match r with
  | (s, .ok (next, events)) => (place { c with store := s } next, events)
  | (s, .error _) => (stopped { c with store := s }, [])

/-- What a request that commits shows; a refused one shows nothing. -/
def answer {α : Type} (c : Service ι) (events : α → List Event)
    (r : Store × Except StorageError α) : Service ι × List Event :=
  match r with
  | (s, .ok a) => ({ c with store := s }, events a)
  | (s, .error _) => ({ c with store := s }, [])

section Steps
variable [DecidableEq ι] (route : Recording → RoutingDecision)

def apply (c : Service ι) (now : Int) : Input ι → Service ι × List Event
  | .transcribe i id reply =>
    c.settle (onTranscriber · i) ((Transcription.action ⟨now, id, reply⟩ (c.transcribers i)).run c.store)
  | .route i id =>
    c.settle (onRouter · i) ((Routing.action route ⟨now, id, ()⟩ (c.routers i)).run c.store)
  | .deliver i id reply =>
    c.settle (onDeliverer · i) ((Delivering.action ⟨now, id, reply⟩ (c.deliverers i)).run c.store)
  | .upload new => c.answer (fun _ => []) ((insertRecording new).run c.store)
  | .manualRoute input => c.answer (fun _ => []) ((SqliteStore.manualRoute input).run c.store)
  | .manualRetryTranscription input =>
    c.answer (fun recording => [.reopened (.transcription recording.id) input.at_])
      ((SqliteStore.manualRetryTranscription input).run c.store)
  | .manualRetryDelivery input =>
    c.answer (fun delivery => [.reopened (.delivery delivery.id) input.at_])
      ((SqliteStore.manualRetryDelivery input).run c.store)
  -- The refused transaction is rolled back and its error ends the process.
  | .refuse _ _ => (c.stopped, [])
  | .crash => (c.stopped, [])
  | .recover =>
    ({ c with store := ((recoverAbandonedAttempts now).run c.store).1, running := true },
      abandonments .transcription c.store.transcriptionAttempts now ++
        abandonments .delivery c.store.deliveryAttempts now)

/-- One step at time `now`, which never runs backwards and stays in the years the
database has text for. -/
def step (c : Service ι) (now : Int) (input : Input ι) : Option (Service ι × List Event) :=
  if c.clock ≤ now ∧ Timestamp.InYears now ∧ c.Admits now input then
    some (apply route { c with clock := now } now input)
  else none

/-- The runs from `c₀` whose every step meets `P`, with what they show. -/
inductive Runs (P : Service ι → Input ι → Prop) (c₀ : Service ι) : List Event → Service ι → Prop where
  | start : Runs P c₀ [] c₀
  | step {trace events : List Event} {c c' : Service ι} (now : Int) (input : Input ι) :
      Runs P c₀ trace c → P c input → c.step route now input = some (c', events) →
      Runs P c₀ (trace ++ events) c'

/-- Every run of the service over a new database. -/
abbrev Run (trace : List Event) (c : Service ι) : Prop :=
  Runs route (fun _ _ => True) initial trace c

/-- A run given by its inputs. -/
def play (c : Service ι) : List (Int × Input ι) → Option (Service ι × List Event)
  | [] => some (c, [])
  | (now, input) :: rest => do
    let (c', events) ← c.step route now input
    let (last, later) ← play c' rest
    pure (last, events ++ later)

variable {route}

theorem Runs.play {c₀ c c' : Service ι} {trace later : List Event} {inputs : List (Int × Input ι)}
    (hr : Runs route (fun _ _ => True) c₀ trace c) (hp : c.play route inputs = some (c', later)) :
    Runs route (fun _ _ => True) c₀ (trace ++ later) c' := by
  induction inputs generalizing c trace later with
  | nil =>
    cases hp
    rw [List.append_nil]
    exact hr
  | cons first rest ih =>
    obtain ⟨⟨c₁, events⟩, hs, hrest⟩ := Option.bind_eq_some_iff.mp hp
    obtain ⟨⟨last, tail⟩, ht, he⟩ := Option.bind_eq_some_iff.mp hrest
    cases he
    rw [← List.append_assoc]
    exact ih (.step first.1 first.2 hr trivial hs) ht

theorem run_of_play {c : Service ι} {trace : List Event} {inputs : List (Int × Input ι)}
    (hp : initial.play route inputs = some (c, trace)) : Run route trace c :=
  Runs.start.play hp

end Steps
end Service

/-- One worker of each kind, as the process starts them. -/
abbrev Process := Service Unit

end Telegraph
