import Telegraph.Api
import Telegraph.Sessions

namespace Telegraph
open Lib

/-- `str::split_once` -/
def splitOnce (sep : Char) (s : String) : Option (String × String) :=
  match s.toList.dropWhile (· != sep) with
  | [] => none
  | _ :: rest => some (String.ofList (s.toList.takeWhile (· != sep)), String.ofList rest)

namespace Cookies

def sessionCookie : String := "telegraph_operator_session"

def clearSessionCookie : String :=
  sessionCookie ++ "=; Path=/monitor; Max-Age=0; HttpOnly; Secure; SameSite=Lax"

/-- The loop over the pairs of the header; a pair without `=` ends the search. -/
def findSession : List (List Char) → Option String
  | [] => none
  | pair :: rest => match splitOnce '=' (trim (String.ofList pair)) with
    | none => none
    | some (name, value) =>
      if trim name == sessionCookie && !(trim value).isEmpty then some (trim value)
      else findSession rest

def readSessionCookie (headers : List (String × Bytes)) : Option String := do
  let value ← headers.find? (·.1 == "cookie")
  let raw ← Api.headerText value.2
  findSession (raw.toList.splitOn ';')

end Cookies

namespace Csrf
open Tokens

/-- The loop of `constant_time_eq`: every difference ends up in the accumulator. -/
def difference (a b : Bytes) : UInt8 := (a.zip b).foldl (fun diff p => diff ||| (p.1 ^^^ p.2)) 0

def constantTimeEq (a b : Bytes) : Bool := if a.length ≠ b.length then false else difference a b == 0

def validate (sha256 : Bytes → Bytes) (session : OperatorSession) (submitted : String) : Bool :=
  if (trim submitted).isEmpty then false
  else constantTimeEq (asBytes (hashToken sha256 (trim submitted))) (asBytes session.csrfTokenHash)

end Csrf

/-- A response of the monitor, without the rest of a rendered page. -/
inductive Reply where
  | listPage (csrfToken filter : String)
  | detailPage (csrfToken recordingId : String) (sinks : List String)
  | redirect (location : String) (setCookie : Option String)
  | text (code : Nat) (body : String)
  | rejected
deriving DecidableEq, Repr

/-- The monitor's routes behind a session. -/
inductive MonitorRoute where
  | recordingList (status : Option String)
  | recordingDetail (id : String)
  | logout
  | manualRoute (id : String)
  | retryTranscription (id : String)
  | retryDelivery (id : String)
deriving DecidableEq, Repr

def MonitorRoute.isPost : MonitorRoute → Bool
  | recordingList _ => false
  | recordingDetail _ => false
  | _ => true

/-- A request; `form` is the decoded body, or nothing where the extractor refuses it. -/
structure MonitorRequest where
  route : MonitorRoute
  headers : List (String × Bytes)
  form : Option (List (String × String))

/-- The clock readings and ids a handler draws, in order. -/
structure MonitorSupply where
  now : Int
  later : Int
  firstId : String
  secondId : String

/-- The database as the monitor uses it. -/
structure MonitorState where
  store : Store
  sessions : SessionTable

namespace Monitor
open AuthService SqliteStore

/-- A form field: empty when absent, and refused when given twice. -/
def formField (form : List (String × String)) (name : String) : Option String :=
  match form.filter (·.1 == name) with
  | [] => some ""
  | [field] => some field.2
  | _ => none

/-- `CsrfForm` -/
structure CsrfForm where
  csrfToken : String

/-- `ManualRouteForm` -/
structure ManualRouteForm where
  csrfToken : String
  sink : String

def parseCsrfForm (form : List (String × String)) : Option CsrfForm := do
  some ⟨← formField form "csrf_token"⟩

def parseManualRouteForm (form : List (String × String)) : Option ManualRouteForm := do
  some ⟨← formField form "csrf_token", ← formField form "sink"⟩

def redirectToLogin : Reply := .redirect "/monitor/login" none
def redirectToDetail (id : String) : Reply := .redirect ("/monitor/recordings/" ++ id) none
def notFound : Reply := .text 404 "Recording not found."
def conflict : Reply := .text 409 "Action is not valid for the current recording state."
def forbidden : Reply := .text 403 "Invalid CSRF token."
def internalError : Reply := .text 500 "An unexpected error occurred."

def parseFilter : Option String → String
  | some "backlogged" => "backlogged"
  | some "failed" => "failed"
  | some "delivering" => "delivering"
  | some "delivered" => "delivered"
  | _ => "all"

/-- What an action answers from the store's result. -/
def actionReply {α : Type} (id : String) (refused : StorageError → Bool) : Except StorageError α → Reply
  | .ok _ => redirectToDetail id
  | .error (.recordingNotFound _) => notFound
  | .error e => if refused e then conflict else internalError

def isNotBacklogged : StorageError → Bool
  | .recordingNotBacklogged _ _ => true
  | _ => false

def isNotRetryable : StorageError → Bool
  | .recordingNotRetryable _ _ _ => true
  | _ => false

section Handlers
variable (sha256 : Bytes → Bytes) (config : AppConfig)

def requireSession (m : MonitorState) (headers : List (String × Bytes)) (now : Int) :
    MonitorState × Except Reply AuthenticatedSession :=
  match Cookies.readSessionCookie headers with
  | none => (m, .error redirectToLogin)
  | some token => match authenticate sha256 token now m.sessions with
    | (t, some auth) => ({ m with sessions := t }, .ok auth)
    | (t, none) => ({ m with sessions := t }, .error redirectToLogin)

/-- A POST: the extractor reads the form, then the session and its CSRF token are
checked before the action. -/
def guarded {φ : Type} (parse : List (String × String) → Option φ) (csrfToken : φ → String)
    (m : MonitorState) (request : MonitorRequest) (now : Int)
    (action : MonitorState → AuthenticatedSession → φ → MonitorState × Reply) :
    MonitorState × Reply :=
  match request.form.bind parse with
  | none => (m, .rejected)
  | some form => match requireSession sha256 m request.headers now with
    | (m', .error reply) => (m', reply)
    | (m', .ok auth) =>
      if Csrf.validate sha256 auth.session (csrfToken form) then action m' auth form
      else (m', forbidden)

def logoutPost (supply : MonitorSupply) (m : MonitorState) (auth : AuthenticatedSession)
    (_form : CsrfForm) : MonitorState × Reply :=
  ({ m with sessions := (m.sessions.revokeSession auth.session.sessionHash supply.later).1 },
    .redirect "/monitor/login" (some Cookies.clearSessionCookie))

def manualRoute (id : String) (supply : MonitorSupply) (m : MonitorState)
    (auth : AuthenticatedSession) (form : ManualRouteForm) : MonitorState × Reply :=
  if config.offers form.sink then
    match (SqliteStore.manualRoute ⟨id, form.sink, supply.firstId, supply.secondId, supply.later,
        supply.later + Retry.deliveryWindow, some auth.session.operatorUsername⟩).run m.store with
    | (s, r) => ({ m with store := s }, actionReply id isNotBacklogged r)
  else (m, .text 400 "Unknown sink.")

def retryTranscription (id : String) (supply : MonitorSupply) (m : MonitorState)
    (auth : AuthenticatedSession) (_form : CsrfForm) : MonitorState × Reply :=
  match (manualRetryTranscription ⟨id, supply.firstId, supply.later,
      some auth.session.operatorUsername⟩).run m.store with
  | (s, r) => ({ m with store := s }, actionReply id isNotRetryable r)

def retryDelivery (id : String) (supply : MonitorSupply) (m : MonitorState)
    (auth : AuthenticatedSession) (_form : CsrfForm) : MonitorState × Reply :=
  match (manualRetryDelivery ⟨id, supply.firstId, supply.later,
      supply.later + Retry.deliveryWindow, some auth.session.operatorUsername⟩).run m.store with
  | (s, r) => ({ m with store := s }, actionReply id isNotRetryable r)

def recordingList (m : MonitorState) (status : Option String) (headers : List (String × Bytes))
    (now : Int) : MonitorState × Reply :=
  match requireSession sha256 m headers now with
  | (m', .error reply) => (m', reply)
  | (m', .ok auth) => (m', .listPage auth.csrfToken (parseFilter status))

def recordingDetail (m : MonitorState) (id : String) (headers : List (String × Bytes)) (now : Int) :
    MonitorState × Reply :=
  match requireSession sha256 m headers now with
  | (m', .error reply) => (m', reply)
  | (m', .ok auth) => match m'.store.recording id with
    | none => (m', notFound)
    | some recording =>
      (m', .detailPage auth.csrfToken recording.id (config.sinks.map (·.name)))

def handle (m : MonitorState) (request : MonitorRequest) (supply : MonitorSupply) :
    MonitorState × Reply :=
  match request.route with
  | .recordingList status => recordingList sha256 m status request.headers supply.now
  | .recordingDetail id => recordingDetail sha256 config m id request.headers supply.now
  | .logout => guarded sha256 parseCsrfForm (·.csrfToken) m request supply.now (logoutPost supply)
  | .manualRoute id => guarded sha256 parseManualRouteForm (·.csrfToken) m request supply.now
    (manualRoute config id supply)
  | .retryTranscription id => guarded sha256 parseCsrfForm (·.csrfToken) m request supply.now
    (retryTranscription id supply)
  | .retryDelivery id => guarded sha256 parseCsrfForm (·.csrfToken) m request supply.now
    (retryDelivery id supply)

end Handlers
end Monitor
end Telegraph
