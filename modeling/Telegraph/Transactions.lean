import Telegraph.Contention
import Telegraph.Lib.Serial

namespace Telegraph
open Lib Program SqliteStore Function

/-- The process with every transaction taken in one step: its database, where each loop
stands or the error its tick returned, and what is left of each request. -/
structure Transactions (ι : Type) where
  store : Store
  transcriber : Except StorageError Transcription.Pc
  router : Except StorageError Routing.Pc
  deliverer : Except StorageError Delivering.Pc
  requests : ι → Query Unit

def Pick.who {ι : Type} : Pick ι → Who ι
  | .transcribe _ => .transcriber
  | .route _ => .router
  | .deliver _ => .deliverer
  | .request i => .request i

namespace Action
variable {κ : Type}

/-- What a failed transaction does to the tick. -/
def afterFailure (tolerate : StorageError → Option κ) (e : StorageError) : Except StorageError κ :=
  match tolerate e with
  | some next => .ok next
  | none => .error e

/-- One step of a loop: its action as a whole, or a transaction that reads first and is
refused its first write. -/
inductive Steps (a : Action κ) (s : Store) : Store → Except StorageError κ → Prop where
  | runs : Steps a s (a.run s).1 ((a.run s).2.map Prod.fst)
  | refused {next : Store → Query (κ × List Event)} {tolerate : StorageError → Option κ}
      (h : a = .store (.openTx (.select next)) tolerate) :
      Steps a s s (afterFailure tolerate (.database .busy))

end Action

namespace Transactions
variable {ι : Type}

/-- Before the first statement. -/
def before (c : Connections ι) : Transactions ι where
  store := c.db.committed
  transcriber := .ok (.ready none)
  router := .ok (.ready none)
  deliverer := .ok (.ready none)
  requests i := (c.requests i).1

section Steps
variable [DecidableEq ι] (route : Recording → RoutingDecision)

inductive Step (a : Transactions ι) : Who ι → Transactions ι → Prop where
  | transcribe {pc : Transcription.Pc} {s : Store} {w : Except StorageError Transcription.Pc}
      (supply : Supply (Except WorkerFailure TranscriptionOutput)) (at_ : a.transcriber = .ok pc)
      (h : (Transcription.action supply pc).Steps a.store s w) :
      Step a .transcriber { a with store := s, transcriber := w }
  | route {pc : Routing.Pc} {s : Store} {w : Except StorageError Routing.Pc} (supply : Supply Unit)
      (at_ : a.router = .ok pc) (h : (Routing.action route supply pc).Steps a.store s w) :
      Step a .router { a with store := s, router := w }
  | deliver {pc : Delivering.Pc} {s : Store} {w : Except StorageError Delivering.Pc}
      (supply : Supply (Except WorkerFailure Unit)) (at_ : a.deliverer = .ok pc)
      (h : (Delivering.action supply pc).Steps a.store s w) :
      Step a .deliverer { a with store := s, deliverer := w }
  | request {s : Store} {p : Query Unit} (i : ι)
      (h : (a.requests i).Serial (.database .busy) a.store s p) :
      Step a (.request i) { a with store := s, requests := update a.requests i p }

/-- The runs in which no two transactions overlap. -/
abbrev Runs (a₀ : Transactions ι) (moves : List (Turn (Transactions ι) (Who ι)))
    (a : Transactions ι) : Prop :=
  History (Step route) a₀ moves a

end Steps
end Transactions
end Telegraph
