import Telegraph.Lib.History
import Telegraph.Monitor

namespace Telegraph
open Lib

namespace Cookies

def setSessionCookie (token : String) : String :=
  sessionCookie ++ "=" ++ token ++ "; Path=/monitor; Max-Age=1209600; HttpOnly; Secure; SameSite=Lax"

end Cookies

/-- `login_failures` -/
structure LoginFailure where
  id : String
  username : String
  remoteIp : String
  failedAt : Int
deriving DecidableEq, Repr

/-- PRIMARY KEY (id). -/
def LoginFailure.clash (a b : LoginFailure) : Bool := a.id == b.id

abbrev LoginFailureTable := Table LoginFailure LoginFailure.clash

namespace LoginFailureTable

def recordLoginFailure (t : LoginFailureTable) (new : LoginFailure) :
    Except StorageError LoginFailureTable :=
  match t.insert new with
  | some t' => .ok t'
  | none => .error (.database .unique)

/-- `WHERE username = ? OR remote_ip = ?` -/
def concerns (username remoteIp : String) (failure : LoginFailure) : Bool :=
  failure.username == username || failure.remoteIp == remoteIp

def clearLoginFailures (t : LoginFailureTable) (username remoteIp : String) : LoginFailureTable :=
  t.remove (concerns username remoteIp)

/-- `AND failed_at >= ?`, on instants. -/
def countLoginFailuresSince (t : LoginFailureTable) (username remoteIp : String) (since : Int) : Nat :=
  t.count fun failure => concerns username remoteIp failure && decide (since ≤ failure.failedAt)

end LoginFailureTable

inductive ThrottleDecision where
  | allow
  | delay (duration : Int)
  | locked
deriving DecidableEq, Repr

namespace LoginThrottle

def delayThreshold : Nat := 5
def lockThreshold : Nat := 10
def delay : Int := Duration.seconds 2

def decision (failureCount : Nat) : ThrottleDecision :=
  if lockThreshold ≤ failureCount then .locked
  else if delayThreshold ≤ failureCount then .delay delay
  else .allow

end LoginThrottle

inductive AuthError where
  | missingPasswordHash (envName : String)
  | blankPasswordHash (envName : String)
  | malformedPasswordHash
deriving DecidableEq, Repr

/-- What its `hash_provider` loads, and the Argon2 check, which is a library's. -/
structure AuthService where
  username : String
  passwordHash : Except AuthError String
  verifyPassword : String → String → Except AuthError Bool

def AuthService.verifyCredentials (auth : AuthService) (username password : String) :
    Except AuthError Bool :=
  if username ≠ auth.username then .ok false
  else do auth.verifyPassword (← auth.passwordHash) password

structure LoginForm where
  username : String
  password : String
deriving DecidableEq, Repr

/-- A response to a login; `page` is the form with its message. -/
inductive LoginReply where
  | page (code : Nat) (error : String)
  | redirect (location setCookie : String)
  | internalError
deriving DecidableEq, Repr

def throttleWindow : Int := Duration.minutes 15
def remoteIp : String := "unknown"

/-- A `POST /monitor/login` by the step it comes to next, with the time it read first. -/
inductive LoginRequest where
  | arrived (form : LoginForm)
  | counting (form : LoginForm) (now : Int)
  | sleeping (form : LoginForm) (now duration : Int)
  | verifying (form : LoginForm) (now : Int)
  | recording (form : LoginForm) (now : Int)
  | starting (form : LoginForm) (now : Int)
  | clearing (form : LoginForm) (started : StartedSession)
  | answered (reply : LoginReply)
deriving DecidableEq, Repr

/-- What one step takes from outside. -/
structure LoginSupply where
  now : Int
  id : String
  entropy : Bytes

/-- The two tables a login uses. -/
structure LoginTables where
  failures : LoginFailureTable
  sessions : SessionTable

namespace LoginRequest
open LoginFailureTable
variable (sha256 : Bytes → Bytes) (auth : AuthService)

def locked : LoginReply := .page 429 "Too many attempts. Please try again later."
def invalid : LoginReply := .page 401 "Invalid username or password."

/-- One step of `login_post`. -/
def advance (supply : LoginSupply) (t : LoginTables) : LoginRequest → Option (LoginTables × LoginRequest)
  | arrived form => some (t, counting form supply.now)
  | counting form now =>
    match LoginThrottle.decision
        (t.failures.countLoginFailuresSince form.username remoteIp (now - throttleWindow)) with
    | .locked => some (t, answered locked)
    | .delay duration => some (t, sleeping form now duration)
    | .allow => some (t, verifying form now)
  | sleeping form now _ => some (t, verifying form now)
  | verifying form now => match auth.verifyCredentials form.username form.password with
    | .ok true => some (t, starting form now)
    | .ok false => some (t, recording form now)
    | .error _ => some (t, answered .internalError)
  | recording form now =>
    -- a failure that cannot be stored is only logged
    match t.failures.recordLoginFailure ⟨supply.id, form.username, remoteIp, now⟩ with
    | .ok failures => some ({ t with failures := failures }, answered invalid)
    | .error _ => some (t, answered invalid)
  | starting form now => match AuthService.startSession sha256 auth.username supply.entropy now t.sessions with
    | .ok (sessions, started) => some ({ t with sessions := sessions }, clearing form started)
    | .error _ => some (t, answered .internalError)
  | clearing form started =>
    some ({ t with failures := t.failures.clearLoginFailures form.username remoteIp },
      answered (.redirect "/monitor" (Cookies.setSessionCookie started.sessionToken)))
  | answered _ => none

end LoginRequest

/-- The tables and the requests so far, in the order of their arrival. -/
structure LoginDesk where
  tables : LoginTables
  requests : List LoginRequest

/-- A request arrives, or the `i`-th one moves. -/
inductive LoginChoice where
  | arrives (form : LoginForm)
  | moves (i : Nat) (supply : LoginSupply)

namespace LoginDesk
variable (sha256 : Bytes → Bytes) (auth : AuthService)

def step (d : LoginDesk) : LoginChoice → Option LoginDesk
  | .arrives form => some { d with requests := d.requests ++ [.arrived form] }
  | .moves i supply => do
    let (tables, next) ← (← d.requests[i]?).advance sha256 auth supply d.tables
    some ⟨tables, d.requests.set i next⟩

/-- The runs from `d₀`: any number of requests, their steps in any order. -/
abbrev Runs (d₀ : LoginDesk) : List (Turn LoginDesk LoginChoice) → LoginDesk → Prop :=
  History (fun d c d' => d.step sha256 auth c = some d') d₀

end LoginDesk
end Telegraph
