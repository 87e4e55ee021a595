import Telegraph.Login
import Telegraph.Service
import Telegraph.SessionCalls

namespace Telegraph
open Lib Function

namespace Monitor
variable (sha256 : Bytes → Bytes) (config : AppConfig)

/-- Whether the form extractor of the route accepts the body. -/
def extracts (request : MonitorRequest) : Bool :=
  match request.route with
  | .recordingList _ | .recordingDetail _ => true
  | .manualRoute _ => (request.form.bind parseManualRouteForm).isSome
  | .logout | .retryTranscription _ | .retryDelivery _ => (request.form.bind parseCsrfForm).isSome

/-- The test of the CSRF token, which the pages do without. -/
def admits (session : OperatorSession) (request : MonitorRequest) : Bool :=
  match request.route with
  | .recordingList _ | .recordingDetail _ => true
  | .manualRoute _ => (request.form.bind parseManualRouteForm).any fun form =>
      Csrf.validate sha256 session form.csrfToken
  | .logout | .retryTranscription _ | .retryDelivery _ => (request.form.bind parseCsrfForm).any fun form =>
      Csrf.validate sha256 session form.csrfToken

/-- What a handler does for a request that it has let in. -/
def act (supply : MonitorSupply) (m : MonitorState) (auth : AuthenticatedSession)
    (request : MonitorRequest) : MonitorState × Reply :=
  match request.route with
  | .recordingList status => (m, .listPage auth.csrfToken (parseFilter status))
  | .recordingDetail id => match m.store.recording id with
    | none => (m, notFound)
    | some recording => (m, .detailPage auth.csrfToken recording.id (config.sinks.map (·.name)))
  | .logout => (request.form.bind parseCsrfForm).elim (m, .rejected) (logoutPost supply m auth)
  | .manualRoute id =>
    (request.form.bind parseManualRouteForm).elim (m, .rejected) (manualRoute config id supply m auth)
  | .retryTranscription id =>
    (request.form.bind parseCsrfForm).elim (m, .rejected) (retryTranscription id supply m auth)
  | .retryDelivery id => (request.form.bind parseCsrfForm).elim (m, .rejected) (retryDelivery id supply m auth)

end Monitor

/-- A request to the monitor, as it comes in. -/
inductive PageRequest where
  | login (form : LoginForm)
  | loginPage (headers : List (String × Bytes))
  | request (request : MonitorRequest)

/-- A request under way: the statement it comes to next, or what it was answered. -/
inductive Visit where
  | login (request : LoginRequest)
  | loginPage (headers : List (String × Bytes))
  | showing (call : SessionCall)
  | shown (redirected : Bool)
  | arrived (request : MonitorRequest)
  | authenticating (request : MonitorRequest) (call : SessionCall)
  | admitted (request : MonitorRequest) (auth : AuthenticatedSession)
  | acting (request : MonitorRequest) (auth : AuthenticatedSession) (supply : MonitorSupply)
  | answered (reply : Reply)

def PageRequest.visit : PageRequest → Visit
  | login form => .login (.arrived form)
  | loginPage headers => .loginPage headers
  | request r => .arrived r

/-- What one step takes from outside. -/
structure VisitSupply where
  now : Int
  firstId : String
  secondId : String
  entropy : Bytes

/-- The database as the monitor's requests use it. -/
structure MonitorTables where
  store : Store
  failures : LoginFailureTable
  sessions : SessionTable

namespace Visit
variable (sha256 : Bytes → Bytes) (config : AppConfig) (auth : AuthService)

/-- `login_get`, once `authenticate` has come further. -/
def onward : SessionCall → Visit
  | .authenticated result => .shown result.isSome
  | call => .showing call

/-- `require_session`, once `authenticate` has come further. -/
def inward (request : MonitorRequest) : SessionCall → Visit
  | .authenticated (some found) => .admitted request found
  | .authenticated none => .answered Monitor.redirectToLogin
  | call => .authenticating request call

/-- One statement, or one reading of the clock. -/
def advance (supply : VisitSupply) (t : MonitorTables) : Visit → Option (MonitorTables × Visit)
  | login request =>
    (request.advance sha256 auth ⟨supply.now, supply.firstId, supply.entropy⟩ ⟨t.failures, t.sessions⟩).map
      fun r => ({ t with failures := r.1.failures, sessions := r.1.sessions }, login r.2)
  | loginPage headers => match Cookies.readSessionCookie headers with
    | none => some (t, shown false)
    | some token => some (t, showing (.authenticate token supply.now))
  | showing call =>
    (call.advance sha256 t.sessions).map fun r => ({ t with sessions := r.1 }, onward r.2)
  | arrived request =>
    if Monitor.extracts request then match Cookies.readSessionCookie request.headers with
      | none => some (t, answered Monitor.redirectToLogin)
      | some token => some (t, authenticating request (.authenticate token supply.now))
    else some (t, answered .rejected)
  | authenticating request call =>
    (call.advance sha256 t.sessions).map fun r => ({ t with sessions := r.1 }, inward request r.2)
  | admitted request found =>
    if Monitor.admits sha256 found.session request then
      some (t, acting request found ⟨supply.now, supply.now, supply.firstId, supply.secondId⟩)
    else some (t, answered Monitor.forbidden)
  | acting request found read => match Monitor.act config read ⟨t.store, t.sessions⟩ found request with
    | (m, reply) => some ({ t with store := m.store, sessions := m.sessions }, answered reply)
  | shown _ => none
  | answered _ => none

end Visit

/-- The requests to the monitor, and which start of the service each reaches. -/
structure Visitors (ι : Type) where
  arrival : ι → PageRequest
  reaches : ι → Nat

/-- The service with its monitor: the process, the tables of the monitor, its requests, and
how often the service has started. -/
structure Site (ι : Type) where
  process : Process
  failures : LoginFailureTable
  sessions : SessionTable
  visits : ι → Visit
  starts : Nat

/-- Who moves: a request to the monitor, or anybody else; the Operator has no other way in. -/
inductive SiteInput (ι : Type) where
  | visit (i : ι) (supply : VisitSupply)
  | serve (now : Int) (input : Input Unit)

namespace Site
variable {ι : Type}

def tables (c : Site ι) : MonitorTables := ⟨c.process.store, c.failures, c.sessions⟩

section Steps
variable (sha256 : Bytes → Bytes) (config : AppConfig) (auth : AuthService) (visitors : Visitors ι)
  (route : Recording → RoutingDecision)

/-- A new database; every request is still to come. -/
def initial : Site ι :=
  ⟨Service.initial, Table.empty, Table.empty, fun i => (visitors.arrival i).visit, 0⟩

/-- The requests of one start get no further in the next. -/
def step [DecidableEq ι] (c : Site ι) : SiteInput ι → Option (Site ι)
  | .visit i supply =>
    if c.process.running = true ∧ visitors.reaches i = c.starts ∧ c.process.clock ≤ supply.now ∧
        Timestamp.InYears supply.now then
      ((c.visits i).advance sha256 config auth supply c.tables).map fun r =>
        { c with
          process := { c.process with store := r.1.store, clock := supply.now }
          failures := r.1.failures
          sessions := r.1.sessions
          visits := update c.visits i r.2 }
    else none
  | .serve now input =>
    if input.asks.isNone then
      (c.process.step route now input).map fun r =>
        { c with
          process := r.1
          starts := match input with
            | .recover => c.starts + 1
            | _ => c.starts }
    else none

/-- The runs from a new database: any requests, their statements in any order among the
steps of the service. -/
abbrev Runs [DecidableEq ι] : List (Turn (Site ι) (SiteInput ι)) → Site ι → Prop :=
  History (fun c input c' => c.step sha256 config auth visitors route input = some c') (initial visitors)

end Steps
end Site
end Telegraph
