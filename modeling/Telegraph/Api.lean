import Telegraph.BlobStore
import Telegraph.Config
import Telegraph.Lib.Team
import Telegraph.SqliteStore
import Telegraph.Tags
import Telegraph.Wav
import Telegraph.Workers

namespace Telegraph
open Lib

/-- What lies behind an internal error; it is logged, never sent. -/
inductive InternalError where
  | storage (e : StorageError)
  | io
deriving DecidableEq, Repr

/-- An error of the upload handler. -/
inductive ApiError where
  | missingFingerprint
  | unknownClient
  | missingRecordingId
  | missingAudio
  | multipleAudio
  | invalidTags
  | invalidRecordedAt
  | recordedAtInFuture
  | payloadTooLarge
  | unsupportedAudio
  | invalidMultipart
  | internal (detail : InternalError)
deriving DecidableEq, Repr

structure UploadResponse where
  recordingId : String
  status : RecordingStatus
  duplicate : Option Bool
deriving DecidableEq, Repr

structure Response where
  code : Nat
  body : UploadResponse
deriving DecidableEq, Repr

/-- `201 Created` -/
def newResponse (recording : Recording) : Response :=
  ⟨201, recording.id, recording.status, none⟩

/-- `200 OK` -/
def duplicateResponse (recording : Recording) : Response :=
  ⟨200, recording.id, recording.status, some true⟩

/-- A field of the body as its chunks arrive; the stream may break after them. -/
structure Field where
  name : Option String
  fileName : Option String
  chunks : List Bytes
  broken : Bool

structure Multipart where
  fields : List Field
  broken : Bool

structure Request where
  headers : List (String × Bytes)
  multipart : Multipart

/-- `serde_json::from_str::<Vec<String>>` and RFC 3339 parsing, which are libraries. -/
structure Parsers where
  jsonStrings : String → Option (List String)
  rfc3339 : String → Option OffsetDateTime

/-- What uploads share: the database and the data directory. -/
structure World where
  store : Store
  files : Files

/-- The statements and file operations an upload consists of. -/
inductive Call where
  | select (clientId clientRecordingId : String)
  | insert (new : NewRecording)
  | create (path : String)
  | write (path : String) (chunk : Bytes)
  | flush (path : String)
  | read (path : String) (max : Nat)
  | size (path : String)
  | rename (source target : String)
  | remove (path : String)

abbrev Call.Answer : Call → Type
  | .select _ _ => Option Recording
  | .insert _ => Nat
  | .read _ _ => Bytes
  | .size _ => Nat
  | _ => Unit

/-- The refill loop of `read_leading_bytes`: with `n` rounds left a read takes up to
`1 + short n` bytes, as far as there is room in the buffer and anything to read. -/
def refill (content : Bytes) (max : Nat) (short : Nat → Nat) : Nat → Bytes → Bytes
  | 0, filled => filled
  | n + 1, filled =>
    if filled.length < max then
      let read := (content.drop filled.length).take (min (1 + short n) (max - filled.length))
      if read = [] then filled else refill content max short n (filled ++ read)
    else filled

/-- `read_leading_bytes` -/
def readLeadingBytes (content : Bytes) (max : Nat) (short : Nat → Nat) : Bytes :=
  refill content max short max []

namespace World

/-- One statement outside a transaction. -/
def statement {α : Type} (q : Query α) (w : World) : World × Except ApiError α :=
  ({ w with store := (q.run w.store).1 },
    (q.run w.store).2.mapError fun e => .internal (.storage e))

/-- The content of a file that must be there. -/
def content (w : World) (path : String) : Except ApiError Bytes :=
  match w.files path with
  | some bytes => .ok bytes
  | none => .error (.internal .io)

def answer (c : Call) (w : World) : World × Except ApiError c.Answer :=
  match c with
  | .select clientId clientRecordingId =>
    w.statement (SqliteStore.getRecordingByIdempotency clientId clientRecordingId)
  | .insert new => w.statement (SqliteStore.insertRecording new)
  | .create path => ({ w with files := w.files.create path }, .ok ())
  | .write path chunk => ({ w with files := w.files.append path chunk }, .ok ())
  | .flush _ => (w, .ok ())
  | .read path max => (w, (w.content path).map (·.take max))
  | .size path => (w, (w.content path).map (·.length))
  | .rename source target => match w.files.rename source target with
    | some files => ({ w with files := files }, .ok ())
    | none => (w, .error (.internal .io))
  | .remove path => ({ w with files := w.files.remove path }, .ok ())

/-- A call that fails changes nothing, except that part of a chunk may have been
written. Removals are taken not to fail. -/
def breaks (c : Call) (progress : Nat) (w : World) : Option (World × ApiError) :=
  match c with
  | .select _ _ => some (w, .internal (.storage (.database .failed)))
  | .insert _ => some (w, .internal (.storage (.database .failed)))
  | .write path chunk =>
    some ({ w with files := w.files.append path (chunk.take progress) }, .internal .io)
  | .remove _ => none
  | _ => some (w, .internal .io)

def machine : Machine Call Call.Answer ApiError World := ⟨answer, breaks⟩

/-- The machine whose files are read in any number of short reads. -/
def answerShort (short : Nat → Nat) (c : Call) (w : World) : World × Except ApiError c.Answer :=
  match c with
  | .read path max => (w, (w.content path).map fun content => readLeadingBytes content max short)
  | c => answer c w

def shortMachine (short : Nat → Nat) : Machine Call Call.Answer ApiError World :=
  ⟨answerShort short, breaks⟩

end World

namespace Api
open Task BlobStore

abbrev Upload (α : Type) := Task Call Call.Answer ApiError α

def fingerprintHeader : String := "x-telegraph-client-fingerprint"
def recordingIdHeader : String := "x-telegraph-client-recording-id"

/-- How far ahead of its arrival a Recording may claim to be. -/
def maxRecordedAtSkew : Int := Duration.hours 24

def headerScanBytes : Nat := 64 * 1024
def maxTextFieldBytes : Nat := 64 * 1024

/-- `HeaderValue::to_str`: visible ASCII, blanks and tabs. -/
def headerText (value : Bytes) : Option String :=
  if value.all fun b => (32 ≤ b && b < 127) || b == 9 then
    some (String.ofList (value.map fun b => Char.ofNat b.toNat))
  else none

def trimmedHeader (headers : List (String × Bytes)) (name : String) : Option String := do
  let value ← headers.find? (·.1 == name)
  let text ← headerText value.2
  if (trim text).isEmpty then none else some (trim text)

/-- Take `len` bytes from the budget. -/
def charge (remaining len : Nat) : Except ApiError Nat :=
  if len ≤ remaining then .ok (remaining - len) else .error .payloadTooLarge

def writeChunks (path : String) (broken : Bool) : List Bytes → Nat → Upload Nat
  | [], remaining => if broken then fail .invalidMultipart else done remaining
  | chunk :: rest, remaining => do
    let left ← lift (charge remaining chunk.length)
    let _ ← perform (.write path chunk)
    writeChunks path broken rest left

def streamToFile (field : Field) (path : String) (remaining : Nat) : Upload Nat := do
  let _ ← perform (.create path)
  let left ← writeChunks path field.broken field.chunks remaining
  let _ ← perform (.flush path)
  pure left

def readChunks (broken : Bool) : List Bytes → Bytes → Nat → Except ApiError (Bytes × Nat)
  | [], buffer, remaining => if broken then .error .invalidMultipart else .ok (buffer, remaining)
  | chunk :: rest, buffer, remaining => do
    let left ← charge remaining chunk.length
    if maxTextFieldBytes < buffer.length + chunk.length then .error .payloadTooLarge
    else readChunks broken rest (buffer ++ chunk) left

def readTextField (field : Field) (remaining : Nat) : Except ApiError (String × Nat) := do
  let (buffer, left) ← readChunks field.broken field.chunks [] remaining
  match String.fromUTF8? ⟨buffer.toArray⟩ with
  | some text => .ok (text, left)
  | none => .error .invalidMultipart

def discardChunks (broken : Bool) : List Bytes → Nat → Except ApiError Nat
  | [], remaining => if broken then .error .invalidMultipart else .ok remaining
  | chunk :: rest, remaining => do
    let left ← charge remaining chunk.length
    discardChunks broken rest left

def discardField (field : Field) (remaining : Nat) : Except ApiError Nat :=
  discardChunks field.broken field.chunks remaining

def parseTags (parsers : Parsers) (raw : Option String) : Except ApiError Tags :=
  match raw with
  | some raw => match parsers.jsonStrings raw with
    | some values => (Tags.new values).mapError fun _ => .invalidTags
    | none => .error .invalidTags
  | none => .ok ⟨[]⟩

def parseRecordedAt (parsers : Parsers) (raw : Option String) (receivedAt : Int) :
    Except ApiError (Option OffsetDateTime) :=
  match raw with
  | some raw => match parsers.rfc3339 (trim raw) with
    | some recorded =>
      if receivedAt + maxRecordedAtSkew < recorded.instant then .error .recordedAtInFuture
      else .ok (some recorded)
    | none => .error .invalidRecordedAt
  | none => .ok none

/-- The locals of `ingest` that its field loop fills in. -/
structure Form where
  audioWritten : Bool
  originalFilename : Option String
  tagsRaw : Option String
  recordedAtRaw : Option String
  remaining : Nat

def receiveField (tempPath : String) (field : Field) (form : Form) : Upload Form :=
  match field.name with
  | some "audio" =>
    if form.audioWritten then fail .multipleAudio
    else do
      let left ← streamToFile field tempPath form.remaining
      pure { form with
        audioWritten := true
        originalFilename := field.fileName
        remaining := left }
  | some "tags" => do
    let (text, left) ← lift (readTextField field form.remaining)
    pure { form with tagsRaw := some text, remaining := left }
  | some "recorded_at" => do
    let (text, left) ← lift (readTextField field form.remaining)
    pure { form with recordedAtRaw := some text, remaining := left }
  | _ => do
    let left ← lift (discardField field form.remaining)
    pure { form with remaining := left }

/-- The `while let` over the fields of the body. -/
def receiveFields (tempPath : String) (broken : Bool) : List Field → Form → Upload Form
  | [], form => if broken then fail .invalidMultipart else done form
  | field :: rest, form => do
    let next ← receiveField tempPath field form
    receiveFields tempPath broken rest next

def getRecordingByIdempotency (clientId clientRecordingId : String) : Upload (Option Recording) :=
  perform (Call.select clientId clientRecordingId)

/-- The two statements of `create_recording`, each on its own. -/
def createRecording (new : NewRecording) : Upload RecordingCreation := do
  let affected ← perform (.insert new)
  let recording ← require (← getRecordingByIdempotency new.clientId new.clientRecordingId)
    (.internal (.storage (.recordingNotFound new.id)))
  pure ⟨recording, affected == (1 : Nat)⟩

/-- Create the row for a blob that is in place, and take the blob away again unless
the row is new. -/
def register (new : NewRecording) (relative : String) : Upload Response := do
  let creation ← (createRecording new).catching fun e => do
    let _ ← ignore (.remove relative)
    fail e
  if creation.created then pure (newResponse creation.recording)
  else
    let _ ← ignore (.remove relative)
    pure (duplicateResponse creation.recording)

def ingest (config : AppConfig) (parsers : Parsers) (clientId clientRecordingId recordingId : String)
    (receivedAt : Int) (tempPath : String) (multipart : Multipart) : Upload Response := do
  let form ← receiveFields tempPath multipart.broken multipart.fields
    ⟨false, none, none, none, config.data.maxUploadBytes⟩
  if !form.audioWritten then fail .missingAudio
  else
    let tags ← lift (parseTags parsers form.tagsRaw)
    let recordedAt ← lift (parseRecordedAt parsers form.recordedAtRaw receivedAt)
    let header ← perform (.read tempPath headerScanBytes)
    let info ← lift ((Wav.parseHeader header).mapError fun _ => .unsupportedAudio)
    let audioSizeBytes ← perform (.size tempPath)
    let relative := relativePath recordingId
    let _ ← perform (.rename tempPath relative)
    register ⟨recordingId, clientId, clientRecordingId, form.originalFilename, some relative,
      some (audioSizeBytes : Nat), info.durationMs, some info.sampleRateHz, some info.channels,
      some info.bitsPerSample, tags, recordedAt, receivedAt⟩ relative

/-- The Client and the key a request's headers name. -/
def identify (config : AppConfig) (headers : List (String × Bytes)) :
    Except ApiError (String × String) :=
  match trimmedHeader headers fingerprintHeader with
  | none => .error .missingFingerprint
  | some fingerprint => match config.clientByFingerprint fingerprint with
    | none => .error .unknownClient
    | some client => match trimmedHeader headers recordingIdHeader with
      | none => .error .missingRecordingId
      | some clientRecordingId => .ok (client.name, clientRecordingId)

/-- `upload_recording`; `supply` is the id and the time it takes once it knows the
request is not a duplicate. -/
def uploadRecording (config : AppConfig) (parsers : Parsers) (supply : Supply Unit)
    (request : Request) : Upload Response := do
  let (clientId, clientRecordingId) ← lift (identify config request.headers)
  match ← getRecordingByIdempotency clientId clientRecordingId with
  | some existing => pure (duplicateResponse existing)
  | none =>
    (ingest config parsers clientId clientRecordingId supply.id supply.now (tempPath supply.id)
      request.multipart).catching fun e => do
        let _ ← ignore (.remove (tempPath supply.id))
        fail e

end Api
end Telegraph
