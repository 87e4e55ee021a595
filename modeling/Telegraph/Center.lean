import Telegraph.Lib.History
import Telegraph.Service
import Telegraph.Uploads

namespace Telegraph
open Lib

/-- The uploads: what each takes from outside and what it sends, and which start of the
service it reaches. -/
structure Traffic (ι : Type) where
  supply : ι → Supply Unit
  request : ι → Request
  reaches : ι → Nat

/-- The service on its data directory: the process over its database, the files, the
uploads, and how often it has started. -/
structure Center (ι : Type) where
  process : Process
  files : Files
  uploads : ι → Api.Upload Response
  starts : Nat

/-- What happens next: a call of an upload, answered or broken off; a step of the
workers, of the Operator, the end of the process or its start; or the beginning of a start
that fails once it has opened the data directory. An upload whose client has left makes no
call any more. -/
inductive Doing (ι : Type) where
  | upload (i : ι) (fault : Option Nat)
  | serve (now : Int) (input : Input Unit)
  | openData

namespace Center
variable {ι : Type}

/-- What the uploads share, and the uploads as a team on it. -/
def world (c : Center ι) : World := ⟨c.process.store, c.files⟩

def team (c : Center ι) : Uploads ι := ⟨c.uploads, c.world⟩

def withTeam (c : Center ι) (t : Uploads ι) : Center ι :=
  { c with
    process := { c.process with store := t.shared.store }
    files := t.shared.files
    uploads := t.tasks }

section Steps
variable (config : AppConfig) (parsers : Parsers) (traffic : Traffic ι) (route : Recording → RoutingDecision)

/-- A new database and an empty data directory; every request is still to come. -/
def initial : Center ι :=
  ⟨Service.initial, fun _ => none,
    fun i => Api.uploadRecording config parsers (traffic.supply i) (traffic.request i), 0⟩

/-- The requests of one start get no further in the next, which begins by cleaning the
data directory and then recovers. -/
def step [DecidableEq ι] (c : Center ι) : Doing ι → Option (Center ι)
  | .upload i fault =>
    if c.process.running = true ∧ traffic.reaches i = c.starts then
      (c.team.step World.machine i fault).map c.withTeam
    else none
  | .serve now input => match input with
    | .upload _ => none
    | .recover => (c.process.step route now .recover).map fun r =>
        { c with
          process := r.1
          files := c.files.cleanStaleTemp
          starts := c.starts + 1 }
    | input => (c.process.step route now input).map fun r => { c with process := r.1 }
  | .openData =>
    if c.process.running = false then some { c with files := c.files.cleanStaleTemp } else none

end Steps
end Center
end Telegraph
