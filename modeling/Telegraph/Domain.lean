import Telegraph.Timestamp

namespace Telegraph

inductive RecordingStatus where
  | received
  | transcribing
  | routing
  | backlogged
  | delivering
  | delivered
  | transcriptionFailed
  | deliveryFailed
deriving DecidableEq, Repr

namespace RecordingStatus

/-- Manual recovery re-enters the active states; the Backlog is entered only
from `routing`. -/
def canTransitionTo : RecordingStatus → RecordingStatus → Bool
  | received, transcribing => true
  | transcribing, routing => true
  | transcribing, transcriptionFailed => true
  | transcriptionFailed, transcribing => true
  | routing, backlogged => true
  | routing, delivering => true
  | backlogged, delivering => true
  | delivering, delivered => true
  | delivering, deliveryFailed => true
  | deliveryFailed, delivering => true
  | _, _ => false

section Sources
variable {s : RecordingStatus}

theorem to_routing : s.canTransitionTo .routing = true ↔ s = .transcribing := by
  cases s <;> decide

theorem to_transcriptionFailed :
    s.canTransitionTo .transcriptionFailed = true ↔ s = .transcribing := by
  cases s <;> decide

theorem to_backlogged : s.canTransitionTo .backlogged = true ↔ s = .routing := by
  cases s <;> decide

theorem to_delivering : s.canTransitionTo .delivering = true ↔
    s = .routing ∨ s = .backlogged ∨ s = .deliveryFailed := by
  cases s <;> decide

theorem to_delivered : s.canTransitionTo .delivered = true ↔ s = .delivering := by
  cases s <;> decide

theorem to_deliveryFailed : s.canTransitionTo .deliveryFailed = true ↔ s = .delivering := by
  cases s <;> decide

end Sources
end RecordingStatus

inductive DeliveryStatus where
  | delivering
  | delivered
  | deliveryFailed
deriving DecidableEq, Repr

/-- The attempt statuses the store writes: `in_progress`, `succeeded`, `failed`. -/
inductive AttemptStatus where
  | inProgress
  | succeeded
  | failed
deriving DecidableEq, Repr

/-- A normalized tag list. -/
structure Tags where
  values : List String
deriving DecidableEq, Repr

structure Recording where
  id : String
  clientId : String
  clientRecordingId : String
  status : RecordingStatus
  originalFilename : Option String
  blobPath : Option String
  audioSizeBytes : Option Int
  audioDurationMs : Option Int
  sampleRateHz : Option Int
  channels : Option Int
  bitsPerSample : Option Int
  tags : Tags
  recordedAt : Option OffsetDateTime
  receivedAt : Int
  selectedSinkName : Option String
  latestError : Option String
  createdAt : Int
  updatedAt : Int
deriving DecidableEq, Repr

structure Transcript where
  recordingId : String
  provider : String
  text : String
  rawJson : String
  providerFileId : Option String
  providerTranscriptionId : Option String
  createdAt : Int
deriving DecidableEq, Repr

/-- One try at a unit of work. Transcription and Delivery attempts differ only in
the parent they belong to and in one outcome column. -/
structure Attempt (δ : Type) where
  id : String
  parentId : String
  attemptNumber : Nat
  startedAt : Int
  finishedAt : Option Int
  status : AttemptStatus
  retryable : Bool
  detail : Option δ
  errorMessage : Option String
deriving DecidableEq, Repr

/-- `parentId` is `recording_id`, `detail` is `error_code`. -/
abbrev TranscriptionAttempt := Attempt String

/-- `parentId` is `delivery_id`, `detail` is `http_status`. -/
abbrev DeliveryAttempt := Attempt Int

structure Delivery where
  id : String
  recordingId : String
  sinkName : String
  status : DeliveryStatus
  selectedAt : Int
  completedAt : Option Int
  retryDeadlineAt : Option Int
  latestError : Option String
deriving DecidableEq, Repr

structure AuditEvent where
  id : String
  occurredAt : Int
  actorKind : String
  actorId : Option String
  eventType : String
  recordingId : Option String
  detailsJson : String
deriving DecidableEq, Repr

end Telegraph
