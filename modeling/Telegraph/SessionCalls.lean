import Telegraph.Lib.History
import Telegraph.Sessions

namespace Telegraph
open Lib Function

/-- A call on the sessions: the statement it comes to next, or what it returned. -/
inductive SessionCall where
  | startSession (username : String) (entropy : Bytes) (now : Int)
  | authenticate (sessionToken : String) (now : Int)
  | refreshing (sessionToken : String) (session : OperatorSession) (now : Int)
  | revokeSession (sessionHash : String) (at_ : Int)
  | started (result : Except StorageError StartedSession)
  | authenticated (result : Option AuthenticatedSession)
  | revoked (found : Bool)

namespace SessionCall
variable (sha256 : Bytes → Bytes)

/-- No statement of the call has run. -/
def IsNew : SessionCall → Prop
  | startSession _ _ _ => True
  | authenticate _ _ => True
  | revokeSession _ _ => True
  | _ => False

/-- One statement. `authenticate` reads the row first and refreshes it in a later step,
with what it read. -/
def advance (t : SessionTable) : SessionCall → Option (SessionTable × SessionCall)
  | startSession username entropy now => match AuthService.startSession sha256 username entropy now t with
    | .ok (t', session) => some (t', started (.ok session))
    | .error e => some (t, started (.error e))
  | authenticate token now => match AuthService.findActive sha256 token now t with
    | some session => some (t, refreshing token session now)
    | none => some (t, authenticated none)
  | refreshing token session now => match AuthService.refresh sha256 token session now t with
    | (t', result) => some (t', authenticated result)
  | revokeSession sessionHash at_ => match t.revokeSession sessionHash at_ with
    | (t', found) => some (t', revoked found)
  | started _ => none
  | authenticated _ => none
  | revoked _ => none

end SessionCall

/-- Calls numbered by `ι` over one table of sessions. -/
structure Visits (ι : Type) where
  sessions : SessionTable
  calls : ι → SessionCall

namespace Visits
variable {ι : Type} (sha256 : Bytes → Bytes)

section Steps
variable [DecidableEq ι]

def step (v : Visits ι) (i : ι) : Option (Visits ι) :=
  ((v.calls i).advance sha256 v.sessions).map fun r => ⟨r.1, update v.calls i r.2⟩

/-- The runs from `v₀`: any interleaving of the statements of its calls. -/
abbrev Runs (v₀ : Visits ι) : List (Turn (Visits ι) ι) → Visits ι → Prop :=
  History (fun v i v' => v.step sha256 i = some v') v₀

end Steps

/-- There is no session yet, and no call is under way. -/
def AtStart (v : Visits ι) : Prop := v.sessions = Table.empty ∧ ∀ i, (v.calls i).IsNew

end Visits
end Telegraph
