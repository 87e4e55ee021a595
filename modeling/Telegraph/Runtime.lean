import Telegraph.Lib.History
import Telegraph.Service
import Telegraph.Webhook

namespace Telegraph
open Lib Function

/-- `WORKER_IDLE_INTERVAL` -/
def workerIdleInterval : Int := Duration.seconds 5

/-- `SHUTDOWN_GRACE` -/
def shutdownGrace : Int := Duration.seconds 20

inductive SonioxBuildError where
  | missingApiKey (envName : String)
  | blankApiKey (envName : String)
deriving DecidableEq, Repr

def readApiKey (env : String → Option String) (envName : String) : Except SonioxBuildError String :=
  match env envName with
  | none => .error (.missingApiKey envName)
  | some value => if (trim value).isEmpty then .error (.blankApiKey envName) else .ok (trim value)

/-- What `run` may return; the errors of the configuration come before it. -/
inductive RuntimeError where
  | storage (e : StorageError)
  | blob (e : String)
  | soniox (e : SonioxBuildError)
  | webhook (e : WebhookBuildError)
  | bind (listen source : String)
  | serve (e : String)
deriving DecidableEq, Repr

/-- What starting up takes from outside: how the database, the data directory and the
address open, the environment, and what of the configuration it reads. -/
structure Startup where
  connect : Except StorageError Unit
  blobs : Except String Unit
  env : String → Option String
  apiKeyEnv : String
  sinks : List Sink
  listen : String
  bound : Except String Unit

namespace Startup

/-- Before the recovery. -/
def opened (s : Startup) : Except RuntimeError Unit := do
  s.connect.mapError .storage
  s.blobs.mapError .blob

/-- After it: the secrets, so that a missing one fails before the address is bound. -/
def prepared (s : Startup) : Except RuntimeError Unit := do
  let _ ← (readApiKey s.env s.apiKeyEnv).mapError .soniox
  let _ ← (WebhookSinkClient.fromConfig s.env s.sinks).mapError .webhook
  s.bound.mapError (.bind s.listen)

end Startup

/-- Where `run_worker_loop` stands: before it reads the flag at the top, in a tick, in
the wait of an idle loop, or back with `Ok`. -/
inductive LoopPc where
  | top
  | ticking
  | waiting (since : Int)
  | returned
deriving DecidableEq, Repr

/-- A step of one worker, with what it takes from outside. -/
inductive Work where
  | transcribe (id : String) (answer : Except WorkerFailure TranscriptionOutput)
  | route (id : String)
  | deliver (id : String) (answer : Except WorkerFailure Unit)

namespace Work

def loop : Work → Loop
  | transcribe _ _ => .transcription
  | route _ => .routing
  | deliver _ _ => .delivery

def input : Work → Input Unit
  | transcribe id answer => .transcribe () id answer
  | route id => .route () id
  | deliver id answer => .deliver () id answer

end Work

namespace Service

/-- What the tick returned, once its worker is between two ticks. -/
def outcome (c : Process) : Loop → Option WorkOutcome
  | .transcription => match c.transcribers () with
    | .ready last => last
    | _ => none
  | .routing => match c.routers () with
    | .ready last => last
    | _ => none
  | .delivery => match c.deliverers () with
    | .ready last => last
    | _ => none

def thrown {α : Type} : Except StorageError α → Option StorageError
  | .ok _ => none
  | .error e => some e

/-- The `Err` of a worker's step. -/
def failure (route : Recording → RoutingDecision) (c : Process) (now : Int) : Work → Option StorageError
  | .transcribe id answer =>
    thrown ((Transcription.action ⟨now, id, answer⟩ (c.transcribers ())).run c.store).2
  | .route id => thrown ((Routing.action route ⟨now, id, ()⟩ (c.routers ())).run c.store).2
  | .deliver id answer => thrown ((Delivering.action ⟨now, id, answer⟩ (c.deliverers ())).run c.store).2

end Service

/-- How `run` ended. -/
inductive Exit where
  | finished (result : Except RuntimeError Unit)
  | graceElapsed
deriving DecidableEq, Repr

/-- Not running, and how it ended if it did so by itself; before a signal; after one,
until a deadline. -/
inductive Phase where
  | down (last : Option Exit)
  | serving
  | stopping (deadline : Int)
deriving DecidableEq, Repr

/-- The process: its workers over the database, `shutdown` flag, loops and server. -/
structure Runtime where
  clock : Int
  service : Process
  shutdown : Bool
  loops : Loop → LoopPc
  served : Bool
  phase : Phase

/-- What happens next: the process starts, a loop is polled, the database refuses a
loop's transaction its first write, a client's or the Operator's request commits, the
server ends its graceful shutdown or fails, a signal arrives, `try_join!` has all its
results, the grace is over, or the process is killed. -/
inductive Happening where
  | start (s : Startup)
  | poll (w : Work)
  | refused (l : Loop)
  | upload (new : NewRecording)
  | manualRoute (input : ManualRoute)
  | manualRetryTranscription (input : ManualRetryTranscription)
  | manualRetryDelivery (input : ManualRetryDelivery)
  | served
  | serverFails (e : String)
  | signal
  | joined
  | graceElapsed
  | kill

def Happening.isStart : Happening → Bool
  | .start _ => true
  | _ => false

namespace Runtime

def initial : Runtime where
  clock := Timestamp.yearZero
  service := Service.initial
  shutdown := false
  loops := fun _ => .returned
  served := true
  phase := .down none

def up (c : Runtime) : Bool :=
  match c.phase with
  | .down _ => false
  | _ => true

/-- The process is gone, with every tick and connection. -/
def down (c : Runtime) (last : Option Exit) : Runtime :=
  { c with service := Service.stopped { c.service with clock := c.clock }, phase := .down last }

/-- Every loop is back with `Ok`. -/
def drained (c : Runtime) : Bool :=
  [Loop.transcription, .routing, .delivery].all fun l => c.loops l == .returned

def place (c : Runtime) (l : Loop) (pc : LoopPc) : Runtime := { c with loops := update c.loops l pc }

section Steps
variable (route : Recording → RoutingDecision)

/-- One step of the tick; at its end the flag is read before anything else. -/
def tick (c : Runtime) (w : Work) : Option Runtime :=
  (c.service.step route c.clock w.input).map fun r =>
    match c.service.failure route c.clock w with
    | some e => { c with service := r.1, phase := .down (some (.finished (.error (.storage e)))) }
    | none =>
      let c' := { c with service := r.1 }
      match r.1.outcome w.loop with
      | none => c'.place w.loop .ticking
      | some outcome =>
        if c.shutdown then c'.place w.loop .returned
        else match outcome with
          | .worked => c'.place w.loop .top
          | .idle => c'.place w.loop (.waiting c.clock)

def poll (c : Runtime) (w : Work) : Option Runtime :=
  match c.loops w.loop with
  | .top => if c.shutdown then some (c.place w.loop .returned) else c.tick route w
  | .ticking => c.tick route w
  | .waiting since =>
    if c.shutdown ∨ since + workerIdleInterval ≤ c.clock then some (c.place w.loop .top) else none
  | .returned => none

/-- The tick returns the refusal, which ends `run`. -/
def refuse (c : Runtime) (l : Loop) : Option Runtime :=
  if c.loops l = .ticking then
    (c.service.step route c.clock (.refuse l ())).map fun r =>
      { c with service := r.1, phase := .down (some (.finished (.error (.storage (.database .busy))))) }
  else none

/-- `run` up to its `select!`: what fails before the recovery leaves the database alone. -/
def startUp (c : Runtime) (s : Startup) : Option Runtime :=
  match s.opened with
  | .error e => some { c with phase := .down (some (.finished (.error e))) }
  | .ok () => (c.service.step route c.clock .recover).map fun r =>
    match s.prepared with
    | .error e => { c with service := r.1 }.down (some (.finished (.error e)))
    | .ok () => { c with
        service := r.1
        shutdown := false
        loops := fun _ => .top
        served := false
        phase := .serving }

/-- A request commits, on a connection that the server still serves. -/
def request (c : Runtime) (input : Input Unit) : Option Runtime :=
  if c.up && !c.served then (c.service.step route c.clock input).map fun r => { c with service := r.1 }
  else none

def advance (c : Runtime) : Happening → Option Runtime
  | .start s => if c.up then none else c.startUp route s
  | .poll w => if c.up then c.poll route w else none
  | .refused l => if c.up then c.refuse route l else none
  | .upload new => c.request route (.upload new)
  | .manualRoute input => c.request route (.manualRoute input)
  | .manualRetryTranscription input => c.request route (.manualRetryTranscription input)
  | .manualRetryDelivery input => c.request route (.manualRetryDelivery input)
  | .served => if c.up && c.shutdown && !c.served then some { c with served := true } else none
  | .serverFails e =>
    if c.up && !c.served then some (c.down (some (.finished (.error (.serve e))))) else none
  | .signal => match c.phase with
    | .serving => some { c with shutdown := true, phase := .stopping (c.clock + shutdownGrace) }
    | _ => none
  | .joined =>
    if c.up && c.served && c.drained then some (c.down (some (.finished (.ok ())))) else none
  | .graceElapsed => match c.phase with
    | .stopping deadline => if deadline ≤ c.clock then some (c.down (some .graceElapsed)) else none
    | _ => none
  | .kill => if c.up then some (c.down none) else none

/-- One step at time `now`. -/
def step (c : Runtime) (at_ : Int × Happening) : Option Runtime :=
  if c.clock ≤ at_.1 ∧ Timestamp.InYears at_.1 then advance route { c with clock := at_.1 } at_.2 else none

/-- Every run over a new database, through any number of starts. -/
abbrev Runs (turns : List (Turn Runtime (Int × Happening))) (c : Runtime) : Prop :=
  History (fun c l c' => c.step route l = some c') initial turns c

end Steps
end Runtime
end Telegraph
