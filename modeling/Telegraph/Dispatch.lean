import Telegraph.Lib.History
import Telegraph.Workers

namespace Telegraph
open Lib Program SqliteStore Function

/-- A caller of the router's side of the store: a routing worker, ticking over and over
until a tick fails, or one call of `manual_route`. -/
inductive Caller where
  | tick (pc : Routing.Pc)
  | failed (e : StorageError)
  | operator (input : ManualRoute)
  | reading (input : ManualRoute)
  | routed (delivery : Delivery)
  | refused (e : StorageError)

namespace Caller

/-- One transaction, or one local step, of a caller. -/
def advance (route : Recording → RoutingDecision) (supply : Supply Unit) (s : Store) :
    Caller → Option (Store × Caller)
  | tick pc => match (Routing.action route supply pc).run s with
    | (s', .ok (next, _)) => some (s', tick next)
    | (s', .error e) => some (s', failed e)
  | operator input => match (manualRouteTx input).run s with
    | (s', .ok _) => some (s', reading input)
    | (s', .error e) => some (s', refused e)
  | reading input => match (requireDelivery input.deliveryId).run s with
    | (s', .ok delivery) => some (s', routed delivery)
    | (s', .error e) => some (s', refused e)
  | failed _ => none
  | routed _ => none
  | refused _ => none

end Caller

/-- Callers numbered by `ι` over one store. -/
structure Dispatch (ι : Type) where
  store : Store
  callers : ι → Caller

namespace Dispatch
variable {ι : Type}

/-- Who moves, with the router it consults, the time it reads and the id it draws. -/
structure Choice (ι : Type) where
  caller : ι
  route : Recording → RoutingDecision
  supply : Supply Unit

section Steps
variable [DecidableEq ι]

def step (d : Dispatch ι) (m : Choice ι) : Option (Dispatch ι) :=
  ((d.callers m.caller).advance m.route m.supply d.store).map fun r =>
    ⟨r.1, update d.callers m.caller r.2⟩

/-- The runs from `d₀`: any interleaving, each tick with any router at any time. -/
abbrev Runs (d₀ : Dispatch ι) : List (Turn (Dispatch ι) (Choice ι)) → Dispatch ι → Prop :=
  History (fun d m d' => d.step m = some d') d₀

end Steps

/-- No tick and no call of `manual_route` is under way. -/
def AtStart (d : Dispatch ι) : Prop :=
  ∀ i, (∃ last, d.callers i = .tick (.ready last)) ∨ ∃ input, d.callers i = .operator input

end Dispatch
end Telegraph
