import Telegraph.Lib.History
import Telegraph.Lib.Wal
import Telegraph.Workers

namespace Telegraph
open Lib Program SqliteStore Function

/-- `max_connections` -/
def maxConnections : Nat := 5

/-- A worker loop and its connection: between two steps of a tick, inside the
statements of one, or ended by the tick's error. -/
inductive Worker (κ : Type) where
  | resting (pc : κ)
  | running (tx : Query (κ × List Event)) (hold : Hold Store) (tolerate : StorageError → Option κ)
  | broken (e : StorageError)

/-- The tasks that use the pool: the three worker loops and the requests. -/
inductive Who (ι : Type) where
  | transcriber
  | router
  | deliverer
  | request (i : ι)
deriving DecidableEq

namespace Worker
variable {ι κ : Type}

/-- A step is over when its program has ended and holds no transaction. -/
def settle (tolerate : StorageError → Option κ) : Query (κ × List Event) → Hold Store → Worker κ
  | .done r, .idle => .resting r.1
  | .fail e, .idle => match tolerate e with
    | some pc => .resting pc
    | none => .broken e
  | tx, hold => .running tx hold tolerate

/-- The next statement of a worker, or the start of its next step. -/
def advance (me : Who ι) (db : Wal (Who ι) Store) (act : κ → Action κ) :
    Worker κ → Option (Wal (Who ι) Store × Worker κ)
  | .resting pc => match act pc with
    | .local next _ => some (db, .resting next)
    | .store tx tolerate => some (db, settle tolerate tx .idle)
  | .running tx hold tolerate =>
    (db.step maxConnections (.database .busy) me tx hold).map fun r =>
      (r.1, settle tolerate r.2.1 r.2.2)
  | .broken _ => none

/-- The worker's next statement is one the database refuses. -/
def Refused (db : Wal (Who ι) Store) : Worker κ → Prop
  | .running tx hold _ => tx.Refused db hold
  | _ => False

/-- The `Err` its tick returned. -/
def fault : Worker κ → Option StorageError
  | .broken e => some e
  | _ => none

def LockedOut (w : Worker κ) : Prop := w.fault = some (.database .busy)

end Worker

/-- What uploads and the Operator ask of the store. `elsewhere` writes some rows of the
tables of sessions or login failures, which no other program here reads. -/
inductive StoreRequest where
  | upload (new : NewRecording)
  | manualRoute (input : ManualRoute)
  | manualRetryTranscription (input : ManualRetryTranscription)
  | manualRetryDelivery (input : ManualRetryDelivery)
  | elsewhere (rows : Nat)

def StoreRequest.program : StoreRequest → Query Unit
  | upload new => do
    let _ ← createRecording new
  | manualRoute input => do
    let _ ← SqliteStore.manualRoute input
  | manualRetryTranscription input => do
    let _ ← SqliteStore.manualRetryTranscription input
  | manualRetryDelivery input => do
    let _ ← SqliteStore.manualRetryDelivery input
  | elsewhere rows => do
    let _ ← modify id fun _ => rows

/-- The process over its pool of connections, statement by statement. -/
structure Connections (ι : Type) where
  db : Wal (Who ι) Store
  transcriber : Worker Transcription.Pc
  router : Worker Routing.Pc
  deliverer : Worker Delivering.Pc
  requests : ι → Query Unit × Hold Store

/-- Who moves next, with what a step of its tick takes from outside. -/
inductive Pick (ι : Type) where
  | transcribe (supply : Supply (Except WorkerFailure TranscriptionOutput))
  | route (supply : Supply Unit)
  | deliver (supply : Supply (Except WorkerFailure Unit))
  | request (i : ι)

namespace Connections
variable {ι : Type}

/-- `try_join!`: the first loop to fail ends the process. -/
def exited (c : Connections ι) : Bool :=
  c.transcriber.fault.isSome || c.router.fault.isSome || c.deliverer.fault.isSome

/-- A worker picked here is about to be refused. -/
def Refuses (c : Connections ι) : Pick ι → Prop
  | .transcribe _ => c.transcriber.Refused c.db
  | .route _ => c.router.Refused c.db
  | .deliver _ => c.deliverer.Refused c.db
  | .request _ => False

/-- Some tick returned `Err` because the database was busy. -/
def LockedOut (c : Connections ι) : Prop :=
  c.transcriber.LockedOut ∨ c.router.LockedOut ∨ c.deliverer.LockedOut

/-- No transaction is open, each loop is before its first tick, and no request has
issued a statement. -/
structure AtStart (c : Connections ι) : Prop where
  unlocked : c.db.writer = none
  returned : c.db.lent = 0
  transcriber : c.transcriber = .resting (.ready none)
  router : c.router = .resting (.ready none)
  deliverer : c.deliverer = .resting (.ready none)
  requests : ∀ i, ∃ r : StoreRequest, c.requests i = (r.program, .idle)

section Steps
variable [DecidableEq ι] (route : Recording → RoutingDecision)

def advance (c : Connections ι) : Pick ι → Option (Connections ι)
  | .transcribe supply =>
    (c.transcriber.advance .transcriber c.db (Transcription.action supply)).map fun r =>
      { c with db := r.1, transcriber := r.2 }
  | .route supply =>
    (c.router.advance .router c.db (Routing.action route supply)).map fun r =>
      { c with db := r.1, router := r.2 }
  | .deliver supply =>
    (c.deliverer.advance .deliverer c.db (Delivering.action supply)).map fun r =>
      { c with db := r.1, deliverer := r.2 }
  | .request i =>
    (c.db.step maxConnections (.database .busy) (.request i) (c.requests i).1
      (c.requests i).2).map fun r => { c with db := r.1, requests := update c.requests i r.2 }

def step (c : Connections ι) (pick : Pick ι) : Option (Connections ι) :=
  if c.exited then none else c.advance route pick

/-- Every interleaving of the statements. -/
abbrev Runs (c₀ : Connections ι) (turns : List (Turn (Connections ι) (Pick ι)))
    (c : Connections ι) : Prop :=
  History (fun c pick c' => c.step route pick = some c') c₀ turns c

end Steps
end Connections
end Telegraph
