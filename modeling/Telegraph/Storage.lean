import Mathlib.Data.List.Sort
import Telegraph.Domain
import Telegraph.Lib.Program
import Telegraph.Lib.Table

namespace Telegraph
open Lib

inductive DatabaseError where
  | unique
  | foreignKey
  | busy
  | failed
deriving DecidableEq, Repr

inductive StorageError where
  | database (e : DatabaseError)
  | invalidTransition (source target : RecordingStatus)
  | recordingNotFound (id : String)
  | deliveryNotFound (id : String)
  | recordingNotBacklogged (id : String) (status : RecordingStatus)
  | recordingNotRetryable (id : String) (status : RecordingStatus) (kind : String)
deriving DecidableEq, Repr

/-- A row of `recordings`; the retry window is a column the domain type omits. -/
structure RecordingRow extends Recording where
  retryWindowStartedAt : Option Int
deriving DecidableEq, Repr

namespace RecordingRow

/-- `SET status = ?, updated_at = ?` -/
def moved (r : RecordingRow) (next : RecordingStatus) (t : Int) : RecordingRow :=
  { r with status := next, updatedAt := t }

/-- `SET latest_error = ?, updated_at = ?` -/
def erred (r : RecordingRow) (message : String) (t : Int) : RecordingRow :=
  { r with latestError := some message, updatedAt := t }

/-- `SET latest_error = ?` -/
def withError (r : RecordingRow) (message : Option String) : RecordingRow :=
  { r with latestError := message }

/-- `SET selected_sink_name = ?` -/
def withSink (r : RecordingRow) (sinkName : String) : RecordingRow :=
  { r with selectedSinkName := some sinkName }

/-- `SET retry_window_started_at = ?` -/
def withWindow (r : RecordingRow) (t : Int) : RecordingRow :=
  { r with retryWindowStartedAt := some t }

end RecordingRow

structure DeliveryRow extends Delivery where
  retryWindowStartedAt : Option Int
deriving DecidableEq, Repr

namespace DeliveryRow

/-- `SET status = ?, completed_at = ?` -/
def completed (d : DeliveryRow) (status : DeliveryStatus) (t : Int) : DeliveryRow :=
  { d with status := status, completedAt := some t }

/-- `SET latest_error = ?` -/
def withError (d : DeliveryRow) (message : Option String) : DeliveryRow :=
  { d with latestError := message }

end DeliveryRow

/-- PRIMARY KEY (id) and UNIQUE (client_id, client_recording_id). -/
def RecordingRow.clash (a b : RecordingRow) : Bool :=
  a.id == b.id || (a.clientId == b.clientId && a.clientRecordingId == b.clientRecordingId)

def Transcript.clash (a b : Transcript) : Bool := a.recordingId == b.recordingId

def Attempt.clash {δ : Type} (a b : Attempt δ) : Bool := a.id == b.id

/-- PRIMARY KEY (id) and UNIQUE (recording_id). -/
def DeliveryRow.clash (a b : DeliveryRow) : Bool :=
  a.id == b.id || a.recordingId == b.recordingId

def AuditEvent.clash (a b : AuditEvent) : Bool := a.id == b.id

abbrev AttemptTable (δ : Type) := Table (Attempt δ) Attempt.clash

structure Store where
  recordings : Table RecordingRow RecordingRow.clash
  transcripts : Table Transcript Transcript.clash
  transcriptionAttempts : AttemptTable String
  deliveries : Table DeliveryRow DeliveryRow.clash
  deliveryAttempts : AttemptTable Int
  auditEvents : Table AuditEvent AuditEvent.clash

abbrev Query (α : Type) := Program Store StorageError α

namespace Attempt
variable {δ : Type}

def anyInFlight (rows : List (Attempt δ)) : Bool := rows.any (·.finishedAt.isNone)

/-- The row with the greatest attempt number. -/
def latestOf (rows : List (Attempt δ)) : Option (Attempt δ) :=
  rows.foldl (fun best a => match best with
    | none => some a
    | some b => if b.attemptNumber < a.attemptNumber then some a else some b) none

/-- The least start time, compared as stored text. -/
def earliestStart (rows : List (Attempt δ)) : Option Int :=
  rows.foldl (fun best a => match best with
    | none => some a.startedAt
    | some b =>
      if Timestamp.TextLt (Timestamp.format a.startedAt) (Timestamp.format b) then some a.startedAt
      else some b) none

end Attempt

namespace AttemptTable
variable {δ : Type}

/-- The attempts of one Recording or Delivery, in insertion order. -/
def attemptsOf (t : AttemptTable δ) (parent : String) : List (Attempt δ) :=
  t.rows.filter (·.parentId == parent)

/-- `EXISTS (… WHERE parent = ? AND finished_at IS NULL)` -/
def inFlight (t : AttemptTable δ) (parent : String) : Bool :=
  Attempt.anyInFlight (t.attemptsOf parent)

/-- The row `ORDER BY attempt_number DESC LIMIT 1` returns. -/
def latest (t : AttemptTable δ) (parent : String) : Option (Attempt δ) :=
  Attempt.latestOf (t.attemptsOf parent)

/-- `MAX(attempt_number)` -/
def lastNumber (t : AttemptTable δ) (parent : String) : Option Nat :=
  (t.latest parent).map (·.attemptNumber)

/-- `MIN(started_at)` -/
def firstStarted (t : AttemptTable δ) (parent : String) : Option Int :=
  Attempt.earliestStart (t.attemptsOf parent)

/-- The in-flight row an attempt claim inserts. -/
def started (id parent : String) (number : Nat) (now : Int) : Attempt δ :=
  ⟨id, parent, number, now, none, .inProgress, false, none, none⟩

/-- `UPDATE … SET finished_at, status, retryable, …` on the rows matching `p`. -/
def finish (t : AttemptTable δ) (p : Attempt δ → Bool) (finishedAt : Int) (status : AttemptStatus)
    (retryable : Bool) (detail : Attempt δ → Option δ) (errorMessage : Option String) :
    AttemptTable δ :=
  t.update p (fun a => { a with
    finishedAt := some finishedAt
    status := status
    retryable := retryable
    detail := detail a
    errorMessage := errorMessage }) fun _ _ => ⟨rfl, rfl⟩

end AttemptTable

namespace Store

def empty : Store := ⟨Table.empty, Table.empty, Table.empty, Table.empty, Table.empty, Table.empty⟩

def recording (s : Store) (id : String) : Option RecordingRow := s.recordings.find (·.id == id)

def recordingByKey (s : Store) (clientId clientRecordingId : String) : Option RecordingRow :=
  s.recordings.find fun r => r.clientId == clientId && r.clientRecordingId == clientRecordingId

def transcript (s : Store) (recordingId : String) : Option Transcript :=
  s.transcripts.find (·.recordingId == recordingId)

def delivery (s : Store) (id : String) : Option DeliveryRow := s.deliveries.find (·.id == id)

def deliveryFor (s : Store) (recordingId : String) : Option DeliveryRow :=
  s.deliveries.find (·.recordingId == recordingId)

/-- `UPDATE recordings SET … WHERE p` for columns outside the unique keys. -/
def updateRecordings (s : Store) (p : RecordingRow → Bool) (f : RecordingRow → RecordingRow)
    (h : Table.KeepsKeys RecordingRow.clash f) : Store :=
  { s with recordings := s.recordings.update p f h }

def updateDeliveries (s : Store) (p : DeliveryRow → Bool) (f : DeliveryRow → DeliveryRow)
    (h : Table.KeepsKeys DeliveryRow.clash f) : Store :=
  { s with deliveries := s.deliveries.update p f h }

def setStatus (s : Store) (p : RecordingRow → Bool) (next : RecordingStatus) (t : Int) : Store :=
  s.updateRecordings p (·.moved next t) fun _ _ => ⟨rfl, rfl⟩

def setError (s : Store) (p : RecordingRow → Bool) (message : String) (t : Int) : Store :=
  s.updateRecordings p (·.erred message t) fun _ _ => ⟨rfl, rfl⟩

def setLatestError (s : Store) (p : RecordingRow → Bool) (message : Option String) : Store :=
  s.updateRecordings p (·.withError message) fun _ _ => ⟨rfl, rfl⟩

def setSink (s : Store) (p : RecordingRow → Bool) (sinkName : String) : Store :=
  s.updateRecordings p (·.withSink sinkName) fun _ _ => ⟨rfl, rfl⟩

def setWindow (s : Store) (p : RecordingRow → Bool) (t : Int) : Store :=
  s.updateRecordings p (·.withWindow t) fun _ _ => ⟨rfl, rfl⟩

/-- `UPDATE transcription_attempts SET finished_at, … WHERE p` -/
def finishTranscriptions (s : Store) (p : TranscriptionAttempt → Bool) (finishedAt : Int)
    (status : AttemptStatus) (retryable : Bool)
    (detail : TranscriptionAttempt → Option String) (errorMessage : Option String) : Store :=
  let finished := s.transcriptionAttempts.finish p finishedAt status retryable detail errorMessage
  { s with transcriptionAttempts := finished }

/-- `UPDATE delivery_attempts SET finished_at, … WHERE p` -/
def finishDeliveries (s : Store) (p : DeliveryAttempt → Bool) (finishedAt : Int)
    (status : AttemptStatus) (retryable : Bool)
    (detail : DeliveryAttempt → Option Int) (errorMessage : Option String) : Store :=
  let finished := s.deliveryAttempts.finish p finishedAt status retryable detail errorMessage
  { s with deliveryAttempts := finished }

/-- A UNIQUE or PRIMARY KEY violation, then a FOREIGN KEY one. -/
def checked {ρ : Type} {clash : ρ → ρ → Bool} (t : Table ρ clash) (r : ρ) (parentExists : Bool)
    (k : Table ρ clash → Store) : Except StorageError Store :=
  match t.insert r with
  | none => .error (.database .unique)
  | some t' => if parentExists then .ok (k t') else .error (.database .foreignKey)

def insertTranscript (s : Store) (t : Transcript) : Except StorageError Store :=
  checked s.transcripts t (s.recording t.recordingId).isSome fun u => { s with transcripts := u }

def insertDelivery (s : Store) (d : DeliveryRow) : Except StorageError Store :=
  checked s.deliveries d (s.recording d.recordingId).isSome fun u => { s with deliveries := u }

def insertTranscriptionAttempt (s : Store) (a : TranscriptionAttempt) :
    Except StorageError Store :=
  checked s.transcriptionAttempts a (s.recording a.parentId).isSome fun u =>
    { s with transcriptionAttempts := u }

def insertDeliveryAttempt (s : Store) (a : DeliveryAttempt) : Except StorageError Store :=
  checked s.deliveryAttempts a (s.delivery a.parentId).isSome fun u =>
    { s with deliveryAttempts := u }

def insertAuditEvent (s : Store) (e : AuditEvent) : Except StorageError Store :=
  checked s.auditEvents e true fun u => { s with auditEvents := u }

/-- `INSERT … ON CONFLICT(client_id, client_recording_id) DO NOTHING`: the
conflict target is tried first, then the primary key refuses the row. -/
def insertRecording (s : Store) (r : RecordingRow) : Except StorageError (Store × Nat) :=
  match s.recordingByKey r.clientId r.clientRecordingId with
  | some _ => .ok (s, 0)
  | none => match s.recordings.insert r with
    | some t => .ok ({ s with recordings := t }, 1)
    | none => .error (.database .unique)

/-- `ORDER BY received_at, created_at`, compared as stored text. -/
def OldestFirst (a b : RecordingRow) : Prop :=
  Timestamp.TextLt (Timestamp.format a.receivedAt) (Timestamp.format b.receivedAt) ∨
    (Timestamp.format a.receivedAt = Timestamp.format b.receivedAt ∧
      ¬ Timestamp.TextLt (Timestamp.format b.createdAt) (Timestamp.format a.createdAt))

instance : DecidableRel OldestFirst := fun _ _ => inferInstanceAs (Decidable (_ ∨ _))

/-- `ORDER BY selected_at`, compared as stored text. -/
def EarliestSelected (a b : DeliveryRow) : Prop :=
  ¬ Timestamp.TextLt (Timestamp.format b.selectedAt) (Timestamp.format a.selectedAt)

instance : DecidableRel EarliestSelected := fun _ _ => inferInstanceAs (Decidable (¬ _))

/-- `SELECT id FROM recordings WHERE status = ? ORDER BY received_at, created_at LIMIT 1` -/
def oldestWithStatus (s : Store) (status : RecordingStatus) : Option String :=
  ((s.recordings.rows.filter (·.status == status)).insertionSort OldestFirst).head?.map (·.id)

end Store
end Telegraph
