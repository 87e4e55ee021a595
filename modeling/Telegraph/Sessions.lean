import Telegraph.BlobStore
import Telegraph.Lib.Hex
import Telegraph.Storage

namespace Telegraph
open Lib

namespace Duration

def days (n : Int) : Int := hours (n * 24)

end Duration

/-- `operator_sessions`; only hashes of the tokens are stored. -/
structure OperatorSession where
  sessionHash : String
  operatorUsername : String
  csrfTokenHash : String
  createdAt : Int
  lastSeenAt : Int
  idleExpiresAt : Int
  absoluteExpiresAt : Int
  revokedAt : Option Int
deriving DecidableEq, Repr

namespace OperatorSession

/-- PRIMARY KEY (session_hash). -/
def clash (a b : OperatorSession) : Bool := a.sessionHash == b.sessionHash

/-- `SET last_seen_at = ?, idle_expires_at = ?` -/
def touched (s : OperatorSession) (lastSeenAt idleExpiresAt : Int) : OperatorSession :=
  { s with lastSeenAt := lastSeenAt, idleExpiresAt := idleExpiresAt }

/-- `SET revoked_at = ?` -/
def revoked (s : OperatorSession) (t : Int) : OperatorSession := { s with revokedAt := some t }

end OperatorSession

structure NewOperatorSession where
  sessionHash : String
  operatorUsername : String
  csrfTokenHash : String
  createdAt : Int
  lastSeenAt : Int
  idleExpiresAt : Int
  absoluteExpiresAt : Int

abbrev SessionTable := Table OperatorSession OperatorSession.clash

namespace SessionTable

def createSession (t : SessionTable) (new : NewOperatorSession) : Except StorageError SessionTable :=
  match t.insert ⟨new.sessionHash, new.operatorUsername, new.csrfTokenHash, new.createdAt,
      new.lastSeenAt, new.idleExpiresAt, new.absoluteExpiresAt, none⟩ with
  | some t' => .ok t'
  | none => .error (.database .unique)

def getSession (t : SessionTable) (sessionHash : String) : Option OperatorSession :=
  t.find (·.sessionHash == sessionHash)

/-- `WHERE session_hash = ? AND revoked_at IS NULL` -/
def live (sessionHash : String) (s : OperatorSession) : Bool :=
  s.sessionHash == sessionHash && s.revokedAt.isNone

/-- The rows after the refresh, and whether it found one. -/
def touchSession (t : SessionTable) (sessionHash : String) (lastSeenAt idleExpiresAt : Int) :
    SessionTable × Bool :=
  (t.update (live sessionHash) (·.touched lastSeenAt idleExpiresAt) fun _ _ => ⟨rfl, rfl⟩,
    t.count (live sessionHash) == 1)

def revokeSession (t : SessionTable) (sessionHash : String) (at_ : Int) : SessionTable × Bool :=
  (t.update (live sessionHash) (·.revoked at_) fun _ _ => ⟨rfl, rfl⟩,
    t.count (live sessionHash) == 1)

end SessionTable

inductive SessionValidity where
  | active
  | revoked
  | idleExpired
  | absoluteExpired
deriving DecidableEq, Repr

/-- Revocation first, then the absolute deadline, then the idle one. -/
def evaluateSession (session : OperatorSession) (now : Int) : SessionValidity :=
  if session.revokedAt.isSome then .revoked
  else if session.absoluteExpiresAt ≤ now then .absoluteExpired
  else if session.idleExpiresAt ≤ now then .idleExpired
  else .active

def idleTtl : Int := Duration.days 7
def absoluteTtl : Int := Duration.days 14

namespace Tokens

def asBytes (s : String) : Bytes := s.toUTF8.data.toList

def csrfDomain : Bytes := asBytes ":telegraph-csrf-v1"

/-- `generate_token` from 32 bytes of the system's randomness. -/
def generateToken (entropy : Bytes) : String := Hex.text entropy

section Digests
variable (sha256 : Bytes → Bytes)

def hashToken (token : String) : String := Hex.text (sha256 (asBytes token))

def deriveCsrf (sessionToken : String) : String :=
  Hex.text (sha256 (asBytes sessionToken ++ csrfDomain))

end Digests
end Tokens

structure StartedSession where
  sessionToken : String
  csrfToken : String
deriving DecidableEq, Repr

structure AuthenticatedSession where
  session : OperatorSession
  csrfToken : String
deriving DecidableEq, Repr

namespace AuthService
open Tokens SessionTable
variable (sha256 : Bytes → Bytes)

def newSession (username sessionToken : String) (now : Int) : NewOperatorSession :=
  ⟨hashToken sha256 sessionToken, username, hashToken sha256 (deriveCsrf sha256 sessionToken), now, now,
    now + idleTtl, now + absoluteTtl⟩

def startSession (username : String) (entropy : Bytes) (now : Int) (t : SessionTable) :
    Except StorageError (SessionTable × StartedSession) := do
  let token := generateToken entropy
  let t' ← t.createSession (newSession sha256 username token now)
  .ok (t', ⟨token, deriveCsrf sha256 token⟩)

/-- The read of `authenticate` and the test it makes of what it read. -/
def findActive (sessionToken : String) (now : Int) (t : SessionTable) : Option OperatorSession :=
  match t.getSession (hashToken sha256 sessionToken) with
  | none => none
  | some session => if evaluateSession session now = .active then some session else none

/-- The idle deadline a refresh at `now` sets. -/
def refreshedIdle (session : OperatorSession) (now : Int) : Int :=
  min (now + idleTtl) session.absoluteExpiresAt

/-- The update of `authenticate`, which also decides whether the session still lives. -/
def refresh (sessionToken : String) (session : OperatorSession) (now : Int) (t : SessionTable) :
    SessionTable × Option AuthenticatedSession :=
  match t.touchSession (hashToken sha256 sessionToken) now (refreshedIdle session now) with
  | (t', true) =>
    (t', some ⟨session.touched now (refreshedIdle session now), deriveCsrf sha256 sessionToken⟩)
  | (t', false) => (t', none)

def authenticate (sessionToken : String) (now : Int) (t : SessionTable) :
    SessionTable × Option AuthenticatedSession :=
  match findActive sha256 sessionToken now t with
  | none => (t, none)
  | some session => refresh sha256 sessionToken session now t

end AuthService
end Telegraph
