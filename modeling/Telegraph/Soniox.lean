import Telegraph.BlobStore
import Telegraph.Lib.Team
import Telegraph.Tags
import Telegraph.Workers

namespace Telegraph
open Lib

/-- A JSON number: an integer, or another number by its text. -/
inductive Number where
  | int (n : Int)
  | float (text : String)

/-- `serde_json::Value` -/
inductive Value where
  | null
  | bool (b : Bool)
  | number (n : Number)
  | string (s : String)
  | array (items : List Value)
  | object (fields : List (String × Value))

namespace Value

def get : Value → String → Option Value
  | object fields, name => (fields.find? (·.1 == name)).map (·.2)
  | _, _ => none

def asStr : Value → Option String
  | string s => some s
  | _ => none

/-- `value.get(name).and_then(Value::as_str)` -/
def text (value : Value) (name : String) : Option String := (value.get name).bind asStr

end Value

namespace Render

inductive Speaker where
  | int (value : Int)
  | str (value : String)

def Speaker.toText : Speaker → String
  | int value => toString value
  | str value => value

structure Token where
  text : String
  speaker : Option Speaker

def parseText : Value → Option String
  | .string s => some s
  | _ => none

/-- The untagged `Int(i64)` or `Str`, or null. -/
def parseSpeaker : Value → Option (Option Speaker)
  | .null => some none
  | .number (.int n) => if -2 ^ 63 ≤ n ∧ n < 2 ^ 63 then some (some (.int n)) else none
  | .string s => some (some (.str s))
  | _ => none

/-- Fields that are absent take their defaults. -/
def tokenFrom (text speaker : Option Value) : Option Token := do
  some ⟨← (text.map parseText).getD (some ""), ← (speaker.map parseSpeaker).getD (some none)⟩

/-- A token is an object, or its fields in order. -/
def parseToken : Value → Option Token
  | .object fields => tokenFrom ((Value.object fields).get "text") ((Value.object fields).get "speaker")
  | .array [] => tokenFrom none none
  | .array [text] => tokenFrom (some text) none
  | .array [text, speaker] => tokenFrom (some text) (some speaker)
  | _ => none

def parseTokens : Value → Option (List Token)
  | .array items => items.mapM parseToken
  | _ => none

def pushSegment (out : String) (speaker : Option String) (segment : String) : String :=
  if (trim segment).isEmpty then out
  else
    let out := if out.isEmpty then out else out ++ "\n"
    match speaker with
    | some id => out ++ "Speaker " ++ id ++ ": " ++ trim segment
    | none => out ++ trim segment

/-- The variables of the loop over the tokens. -/
structure Turns where
  out : String
  current : Option String
  segment : String

def Turns.add (turns : Turns) (token : Token) : Turns :=
  let speaker := token.speaker.map Speaker.toText
  if speaker ≠ turns.current then
    ⟨pushSegment turns.out turns.current turns.segment, speaker, token.text⟩
  else ⟨turns.out, turns.current, turns.segment ++ token.text⟩

def render (text : String) (tokens : List Token) : String :=
  if tokens.any (·.speaker.isSome) then
    let turns := tokens.foldl Turns.add ⟨"", none, ""⟩
    pushSegment turns.out turns.current turns.segment
  else trim text

def renderTranscript (transcript : Value) : String :=
  render ((transcript.text "text").getD "") (((transcript.get "tokens").bind parseTokens).getD [])

end Render

inductive SonioxError where
  | transport (message : String)
  | decode (message : String)
  | http (status : Nat) (errorType message requestId : Option String)
deriving DecidableEq, Repr

namespace SonioxError

def capMarkers : List String := ["total", "pending", "quota", "storage"]

/-- No letter beyond ASCII becomes part of a marker in lower case. -/
def isPersistentLimit (errorType message : Option String) : Bool :=
  let haystack := toAsciiLowercase (errorType.getD "" ++ " " ++ message.getD "")
  capMarkers.any fun marker => decide (marker.toList <:+: haystack.toList)

def isRetryableHttp (status : Nat) (errorType message : Option String) : Bool :=
  if status = 429 then !isPersistentLimit errorType message
  else if 500 ≤ status then true
  else status == 409

/-- A labelled part of an error's detail, when the provider gave it. -/
def part (label : String) : Option String → String
  | some value => "; " ++ label ++ "=" ++ value
  | none => ""

def httpDetail (status : Nat) (errorType message requestId : Option String) : String :=
  "HTTP " ++ toString status ++ part "error_type" errorType ++ part "message" message ++
    part "request_id" requestId

def intoWorkerFailure : SonioxError → WorkerFailure
  | transport message => .retryable "soniox_transport" message
  | decode message => .terminal "soniox_decode" message
  | http status errorType message requestId =>
    let code := match errorType with
      | some kind => "soniox_http_" ++ toString status ++ "_" ++ kind
      | none => "soniox_http_" ++ toString status
    let detail := httpDetail status errorType message requestId
    if isRetryableHttp status errorType message then .retryable code detail
    else .terminal code detail

end SonioxError

structure CreateTranscriptionRequest where
  model : String
  fileId : String
  languageHints : List String
  enableSpeakerDiarization : Bool
  enableLanguageIdentification : Bool
  clientReferenceId : String
deriving DecidableEq, Repr

/-- The operations of `SonioxTransport`. -/
inductive SonioxCall where
  | uploadFile (audio : Bytes) (filename clientReferenceId : String)
  | createTranscription (request : CreateTranscriptionRequest)
  | getTranscription (transcriptionId : String)
  | getTranscript (transcriptionId : String)
  | deleteTranscription (transcriptionId : String)
  | deleteFile (fileId : String)
deriving DecidableEq, Repr

def SonioxCall.Answer : SonioxCall → Type
  | uploadFile _ _ _ => String
  | createTranscription _ => String
  | getTranscription _ => Value
  | getTranscript _ => Value
  | deleteTranscription _ => Unit
  | deleteFile _ => Unit

structure SonioxConfig where
  model : String
  languageHints : List String
  enableSpeakerDiarization : Bool
  enableLanguageIdentification : Bool

/-- `TranscriptionRequest`, with what reading `audio_path` gives: its bytes or the error's
text, and its name when that is UTF-8. -/
structure TranscriptionRequest where
  recordingId : String
  audio : Except String Bytes
  fileName : Option String

/-- The transport is what answers the calls. `toJson` is `Value::to_string` of the library. -/
structure SonioxTranscriber where
  config : SonioxConfig
  maxPolls : Nat
  toJson : Value → String

namespace SonioxTranscriber
open Task

/-- Code that calls the transport. It handles every error of a call itself. -/
abbrev Client (α : Type) := Task SonioxCall SonioxCall.Answer SonioxError α

def provider : String := "soniox"

def readAudio : Except String Bytes → Except WorkerFailure Bytes
  | .ok audio => .ok audio
  | .error e => .error (.terminal "soniox_audio_unreadable" ("cannot read audio file: " ++ e))

def providerStatusError (status : Value) : WorkerFailure :=
  let errorType := status.text "error_type"
  let message := (status.text "error_message").or (status.text "message")
  let code := match errorType with
    | some kind => "soniox_status_error_" ++ kind
    | none => "soniox_status_error"
  .terminal code
    ("transcription failed" ++ SonioxError.part "error_type" errorType ++ SonioxError.part "message" message)

variable (t : SonioxTranscriber)

/-- The loop with `n` polls left, without its sleeps. -/
def poll (transcriptionId : String) : Nat → Client (Except WorkerFailure Value)
  | 0 => done (.error (.retryable "soniox_poll_timeout"
      ("transcription not completed after " ++ toString t.maxPolls ++ " polls")))
  | n + 1 => call (.getTranscription transcriptionId) fun
    | .error e => done (.error e.intoWorkerFailure)
    | .ok status => match Value.text status "status" with
      | some "completed" => done (.ok status)
      | some "error" => done (.error (providerStatusError status))
      | some _ => poll transcriptionId n
      | none => done (.error (.terminal "soniox_decode" "transcription response missing status"))

def cleanupTranscription (transcriptionId : String) : Client Unit :=
  ignore (.deleteTranscription transcriptionId)

def cleanupFile (fileId : String) : Client Unit := ignore (.deleteFile fileId)

def cleanup (transcriptionId fileId : String) : Client Unit := do
  cleanupTranscription transcriptionId
  cleanupFile fileId

def createRequest (fileId recordingId : String) : CreateTranscriptionRequest :=
  ⟨t.config.model, fileId, t.config.languageHints, t.config.enableSpeakerDiarization,
    t.config.enableLanguageIdentification, recordingId⟩

def rawJson (status transcript : Value) : String :=
  t.toJson (.object [("transcription", status), ("transcript", transcript)])

def run (request : TranscriptionRequest) : Client (Except WorkerFailure TranscriptionOutput) :=
  match readAudio request.audio with
  | .error failure => done (.error failure)
  | .ok audio => call (.uploadFile audio (request.fileName.getD "audio.wav") request.recordingId) fun
    | .error e => done (.error e.intoWorkerFailure)
    | .ok (fileId : String) => call (.createTranscription (t.createRequest fileId request.recordingId)) fun
      | .error e => do
        -- the upload succeeded, so the file is an orphan
        cleanupFile fileId
        done (.error e.intoWorkerFailure)
      | .ok (transcriptionId : String) => do
        match ← t.poll transcriptionId t.maxPolls with
        | .error failure =>
          cleanup transcriptionId fileId
          done (.error failure)
        | .ok status => call (.getTranscript transcriptionId) fun
          | .error e => do
            cleanup transcriptionId fileId
            done (.error e.intoWorkerFailure)
          | .ok (transcript : Value) => do
            cleanup transcriptionId fileId
            done (.ok ⟨provider, Render.renderTranscript transcript, t.rawJson status transcript,
              some fileId, some transcriptionId⟩)

end SonioxTranscriber

/-- A call and the answer it got. -/
structure SonioxExchange where
  call : SonioxCall
  answer : Except SonioxError call.Answer

/-- The results a transport gives, for each operation in the order of its calls. -/
structure TransportResults where
  uploads : Nat → Except SonioxError String
  creates : Nat → Except SonioxError String
  statuses : Nat → Except SonioxError Value
  transcripts : Nat → Except SonioxError Value
  transcriptionDeletes : Nat → Except SonioxError Unit
  fileDeletes : Nat → Except SonioxError Unit

namespace SonioxCall

def isUpload : SonioxCall → Bool
  | uploadFile _ _ _ => true
  | _ => false

def isCreate : SonioxCall → Bool
  | createTranscription _ => true
  | _ => false

def isPoll : SonioxCall → Bool
  | getTranscription _ => true
  | _ => false

def isTranscript : SonioxCall → Bool
  | getTranscript _ => true
  | _ => false

def isTranscriptionDelete : SonioxCall → Bool
  | deleteTranscription _ => true
  | _ => false

def isFileDelete : SonioxCall → Bool
  | deleteFile _ => true
  | _ => false

end SonioxCall

namespace TransportResults

/-- How many calls of one operation a log has. -/
def count (log : List SonioxExchange) (kind : SonioxCall → Bool) : Nat := log.countP fun e => kind e.call

def answer (r : TransportResults) (log : List SonioxExchange) : (c : SonioxCall) → Except SonioxError c.Answer
  | .uploadFile _ _ _ => r.uploads (count log SonioxCall.isUpload)
  | .createTranscription _ => r.creates (count log SonioxCall.isCreate)
  | .getTranscription _ => r.statuses (count log SonioxCall.isPoll)
  | .getTranscript _ => r.transcripts (count log SonioxCall.isTranscript)
  | .deleteTranscription _ => r.transcriptionDeletes (count log SonioxCall.isTranscriptionDelete)
  | .deleteFile _ => r.fileDeletes (count log SonioxCall.isFileDelete)

/-- The transport with these results, and the log of its calls. -/
def transport (r : TransportResults) : Machine SonioxCall SonioxCall.Answer SonioxError (List SonioxExchange) where
  answer c log := (log ++ [⟨c, r.answer log c⟩], r.answer log c)
  breaks _ _ _ := none

end TransportResults
end Telegraph
