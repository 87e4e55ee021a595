import Telegraph.Lib.Reading
import Telegraph.Monitor

namespace Telegraph
open Lib Program

namespace RecordingStatus

def asStr : RecordingStatus → String
  | received => "received"
  | transcribing => "transcribing"
  | routing => "routing"
  | backlogged => "backlogged"
  | delivering => "delivering"
  | delivered => "delivered"
  | transcriptionFailed => "transcription_failed"
  | deliveryFailed => "delivery_failed"

end RecordingStatus

namespace DeliveryStatus

def asStr : DeliveryStatus → String
  | delivering => "delivering"
  | delivered => "delivered"
  | deliveryFailed => "delivery_failed"

end DeliveryStatus

/-- The text the store writes; nothing parses it. -/
def AttemptStatus.asStr : AttemptStatus → String
  | inProgress => "in_progress"
  | succeeded => "succeeded"
  | failed => "failed"

inductive MonitorStatusFilter where
  | all
  | backlogged
  | failed
  | delivering
  | delivered
deriving DecidableEq, Repr

/-- The statuses a filter selects, or `none` for no restriction. -/
def MonitorStatusFilter.statuses : MonitorStatusFilter → Option (List RecordingStatus)
  | all => none
  | backlogged => some [.backlogged]
  | failed => some [.transcriptionFailed, .deliveryFailed]
  | delivering => some [.transcribing, .routing, .delivering]
  | delivered => some [.delivered]

structure RecordingSummary where
  id : String
  clientId : String
  clientRecordingId : String
  status : RecordingStatus
  tags : Tags
  selectedSinkName : Option String
  latestError : Option String
  receivedAt : Int
deriving DecidableEq, Repr

structure RecordingDetail where
  recording : Recording
  transcript : Option Transcript
  delivery : Option Delivery
  transcriptionAttempts : List TranscriptionAttempt
  deliveryAttempts : List DeliveryAttempt
  auditEvents : List AuditEvent
deriving DecidableEq, Repr

namespace Store

/-- `ORDER BY received_at DESC, created_at DESC`, compared as stored text. -/
def NewestFirst (a b : RecordingRow) : Prop :=
  Timestamp.TextLt (Timestamp.format b.receivedAt) (Timestamp.format a.receivedAt) ∨
    (Timestamp.format a.receivedAt = Timestamp.format b.receivedAt ∧
      ¬ Timestamp.TextLt (Timestamp.format a.createdAt) (Timestamp.format b.createdAt))

instance : DecidableRel NewestFirst := fun _ _ => inferInstanceAs (Decidable (_ ∨ _))

/-- `ORDER BY occurred_at`, compared as stored text. -/
def OccurredFirst (a b : AuditEvent) : Prop :=
  ¬ Timestamp.TextLt (Timestamp.format b.occurredAt) (Timestamp.format a.occurredAt)

instance : DecidableRel OccurredFirst := fun _ _ => inferInstanceAs (Decidable (¬ _))

/-- `WHERE recording_id = ?` -/
def auditEventsOf (s : Store) (recordingId : String) : List AuditEvent :=
  s.auditEvents.rows.filter (·.recordingId == some recordingId)

end Store

/-- `ORDER BY attempt_number` -/
def Attempt.InOrder {δ : Type} (a b : Attempt δ) : Prop := a.attemptNumber ≤ b.attemptNumber

instance {δ : Type} : DecidableRel (Attempt.InOrder (δ := δ)) := fun _ _ => inferInstanceAs (Decidable (_ ≤ _))

namespace SqliteStore

def summary (r : RecordingRow) : RecordingSummary :=
  ⟨r.id, r.clientId, r.clientRecordingId, r.status, r.tags, r.selectedSinkName, r.latestError, r.receivedAt⟩

def selects (filter : MonitorStatusFilter) (r : RecordingRow) : Bool :=
  match filter.statuses with
  | none => true
  | some statuses => statuses.contains r.status

/-- `LIMIT ?`; a negative one is none. -/
def limited {α : Type} (limit : Int) (rows : List α) : List α :=
  if limit < 0 then rows else rows.take limit.toNat

def listRecordingSummaries (filter : MonitorStatusFilter) (limit : Int) : Query (List RecordingSummary) :=
  query fun s => (limited limit
    ((s.recordings.rows.filter (selects filter)).insertionSort Store.NewestFirst)).map summary

def getRecording (id : String) : Query (Option Recording) :=
  query fun s => (s.recording id).map (·.toRecording)

def getTranscript (recordingId : String) : Query (Option Transcript) := query (·.transcript recordingId)

def getDeliveryForRecording (recordingId : String) : Query (Option Delivery) :=
  query fun s => (s.deliveryFor recordingId).map (·.toDelivery)

def listTranscriptionAttempts (recordingId : String) : Query (List TranscriptionAttempt) :=
  query fun s => (s.transcriptionAttempts.attemptsOf recordingId).insertionSort Attempt.InOrder

def listDeliveryAttempts (deliveryId : String) : Query (List DeliveryAttempt) :=
  query fun s => (s.deliveryAttempts.attemptsOf deliveryId).insertionSort Attempt.InOrder

def listAuditEventsForRecording (recordingId : String) : Query (List AuditEvent) :=
  query fun s => (s.auditEventsOf recordingId).insertionSort Store.OccurredFirst

def deliveryAttemptsFor : Option Delivery → Query (List DeliveryAttempt)
  | some delivery => listDeliveryAttempts delivery.id
  | none => pure []

/-- Each table is read by a statement of its own, in no transaction. -/
def getRecordingDetail (recordingId : String) : Query (Option RecordingDetail) := do
  match ← getRecording recordingId with
  | none => pure none
  | some recording =>
    let transcript ← getTranscript recordingId
    let delivery ← getDeliveryForRecording recordingId
    let transcriptionAttempts ← listTranscriptionAttempts recordingId
    let deliveryAttempts ← deliveryAttemptsFor delivery
    let auditEvents ← listAuditEventsForRecording recordingId
    pure (some ⟨recording, transcript, delivery, transcriptionAttempts, deliveryAttempts, auditEvents⟩)

end SqliteStore

/-! The pages, with every value already text. -/

structure SummaryView where
  id : String
  receivedAt : String
  clientId : String
  clientRecordingId : String
  status : String
  tags : String
  selectedSinkName : Option String
  latestError : Option String
deriving DecidableEq, Repr

structure DetailView where
  id : String
  clientId : String
  clientRecordingId : String
  status : String
  originalFilename : Option String
  receivedAt : String
  recordedAt : Option String
  audioSizeBytes : Option Int
  audioDurationMs : Option Int
  sampleRateHz : Option Int
  channels : Option Int
  bitsPerSample : Option Int
  tags : String
  latestError : Option String
deriving DecidableEq, Repr

structure TranscriptView where
  provider : String
  text : String
  rawJson : String
deriving DecidableEq, Repr

structure DeliveryView where
  sinkName : String
  status : String
  selectedAt : String
  completedAt : Option String
  retryDeadlineAt : Option String
  latestError : Option String
deriving DecidableEq, Repr

/-- The views of both kinds of attempt; `detail` is the error code or the HTTP status. -/
structure AttemptView (δ : Type) where
  attemptNumber : Nat
  startedAt : String
  finishedAt : Option String
  status : String
  retryable : Bool
  detail : Option δ
  errorMessage : Option String
deriving DecidableEq, Repr

structure AuditView where
  occurredAt : String
  eventType : String
  actorKind : String
  actorId : Option String
  detailsJson : String
deriving DecidableEq, Repr

structure RecordingListTemplate where
  csrfToken : String
  activeFilter : String
  rows : List SummaryView
deriving DecidableEq, Repr

structure RecordingDetailTemplate where
  csrfToken : String
  activeFilter : String
  recording : DetailView
  transcript : Option TranscriptView
  delivery : Option DeliveryView
  transcriptionAttempts : List (AttemptView String)
  deliveryAttempts : List (AttemptView Int)
  auditEvents : List AuditView
  sinks : List String
  canManualRoute : Bool
  canRetryTranscription : Bool
  canRetryDelivery : Bool
deriving DecidableEq, Repr

def fmtTs (value : Int) : String := Timestamp.format value
def fmtOptTs (value : Option Int) : Option String := value.map Timestamp.format
def joinTags (tags : Tags) : String := ", ".intercalate tags.values

def SummaryView.fromSummary (summary : RecordingSummary) : SummaryView where
  id := summary.id
  receivedAt := fmtTs summary.receivedAt
  clientId := summary.clientId
  clientRecordingId := summary.clientRecordingId
  status := summary.status.asStr
  tags := joinTags summary.tags
  selectedSinkName := summary.selectedSinkName
  latestError := summary.latestError

def AttemptView.fromAttempt {δ : Type} (a : Attempt δ) : AttemptView δ where
  attemptNumber := a.attemptNumber
  startedAt := fmtTs a.startedAt
  finishedAt := fmtOptTs a.finishedAt
  status := a.status.asStr
  retryable := a.retryable
  detail := a.detail
  errorMessage := a.errorMessage

/-- The offered actions follow the status of the Recording alone. -/
def RecordingDetailTemplate.fromDetail (detail : RecordingDetail) (csrfToken : String) (sinks : List String) :
    RecordingDetailTemplate where
  csrfToken := csrfToken
  activeFilter := ""
  recording :=
    { id := detail.recording.id
      clientId := detail.recording.clientId
      clientRecordingId := detail.recording.clientRecordingId
      status := detail.recording.status.asStr
      originalFilename := detail.recording.originalFilename
      receivedAt := fmtTs detail.recording.receivedAt
      recordedAt := detail.recording.recordedAt.map OffsetDateTime.format
      audioSizeBytes := detail.recording.audioSizeBytes
      audioDurationMs := detail.recording.audioDurationMs
      sampleRateHz := detail.recording.sampleRateHz
      channels := detail.recording.channels
      bitsPerSample := detail.recording.bitsPerSample
      tags := joinTags detail.recording.tags
      latestError := detail.recording.latestError }
  transcript := detail.transcript.map fun t => ⟨t.provider, t.text, t.rawJson⟩
  delivery := detail.delivery.map fun d =>
    ⟨d.sinkName, d.status.asStr, fmtTs d.selectedAt, fmtOptTs d.completedAt, fmtOptTs d.retryDeadlineAt,
      d.latestError⟩
  transcriptionAttempts := detail.transcriptionAttempts.map .fromAttempt
  deliveryAttempts := detail.deliveryAttempts.map .fromAttempt
  auditEvents := detail.auditEvents.map fun e =>
    ⟨fmtTs e.occurredAt, e.eventType, e.actorKind, e.actorId, e.detailsJson⟩
  sinks := sinks
  canManualRoute := detail.recording.status == .backlogged
  canRetryTranscription := detail.recording.status == .transcriptionFailed
  canRetryDelivery := detail.recording.status == .deliveryFailed

namespace Monitor
open SqliteStore

def listLimit : Int := 100

/-- The filter that `parse_filter` returns beside its label. -/
def statusFilter : Option String → MonitorStatusFilter
  | some "backlogged" => .backlogged
  | some "failed" => .failed
  | some "delivering" => .delivering
  | some "delivered" => .delivered
  | _ => .all

section Pages
variable (sha256 : Bytes → Bytes) (config : AppConfig)

/-- `GET /monitor`, with its page. -/
def recordingListPage (m : MonitorState) (status : Option String) (headers : List (String × Bytes)) (now : Int) :
    MonitorState × Except Reply RecordingListTemplate :=
  match requireSession sha256 m headers now with
  | (m', .error reply) => (m', .error reply)
  | (m', .ok auth) => match ((listRecordingSummaries (statusFilter status) listLimit).run m'.store).2 with
    | .ok summaries => (m', .ok ⟨auth.csrfToken, parseFilter status, summaries.map .fromSummary⟩)
    | .error _ => (m', .error internalError)

/-- `GET /monitor/recordings/{id}`, with its page. -/
def recordingDetailPage (m : MonitorState) (id : String) (headers : List (String × Bytes)) (now : Int) :
    MonitorState × Except Reply RecordingDetailTemplate :=
  match requireSession sha256 m headers now with
  | (m', .error reply) => (m', .error reply)
  | (m', .ok auth) => match ((getRecordingDetail id).run m'.store).2 with
    | .ok (some detail) => (m', .ok (.fromDetail detail auth.csrfToken (config.sinks.map (·.name))))
    | .ok none => (m', .error notFound)
    | .error _ => (m', .error internalError)

end Pages
end Monitor
end Telegraph
