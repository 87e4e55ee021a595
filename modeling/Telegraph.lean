import Telegraph.Lib.TextOrder
import Telegraph.Lib.Calendar
import Telegraph.Lib.Table
import Telegraph.Lib.Program
import Telegraph.Lib.Contract
import Telegraph.Lib.Footprint
import Telegraph.Lib.Retry
import Telegraph.Lib.RetryBounds
import Telegraph.Lib.Strip
import Telegraph.Lib.FirstSeen
import Telegraph.Lib.Grouping
import Telegraph.Lib.Hex
import Telegraph.Lib.Utf8
import Telegraph.Lib.Admission
import Telegraph.Lib.Wal
import Telegraph.Lib.Task
import Telegraph.Lib.Team
import Telegraph.Lib.History
import Telegraph.Lib.Riff
import Telegraph.Lib.Checked
import Telegraph.Backoff
import Telegraph.Timestamp
import Telegraph.Domain
import Telegraph.Storage
import Telegraph.Proofs.TimestampOrder
import Telegraph.Proofs.Methods
import Telegraph.Proofs.WorkQueue
import Telegraph.Proofs.Lifecycle
import Telegraph.SqliteStore
import Telegraph.Operation
import Telegraph.Workers
import Telegraph.Service
import Telegraph.Contention
import Telegraph.Board
import Telegraph.Proofs.LedgerChanges
import Telegraph.Proofs.BoardSteps
import Telegraph.Refinement
import Telegraph.Proofs.Ledgers
import Telegraph.Proofs.Candidates
import Telegraph.Proofs.Refines
import Telegraph.Proofs.TranscriptionRefines
import Telegraph.Proofs.DeliveryRefines
import Telegraph.Proofs.ServiceRefines
import Telegraph.Proofs.Runs
import Telegraph.Proofs.RetryPacing
import Telegraph.Proofs.NothingStranded
import Telegraph.Proofs.TickShows
import Telegraph.Proofs.Told
import Telegraph.Proofs.AttemptLedger
import Telegraph.Proofs.ClaimRaces
import Telegraph.Views
import Telegraph.Tags
import Telegraph.Proofs.Spelling
import Telegraph.Proofs.CanonicalTags
import Telegraph.Wav
import Telegraph.Proofs.WavLayout
import Telegraph.Proofs.WavChunks
import Telegraph.RuntimeChecks
import Telegraph.Proofs.HeaderArithmetic
import Telegraph.Config
import Telegraph.BlobStore
import Telegraph.Api
import Telegraph.Intake
import Telegraph.Uploads
import Telegraph.Proofs.UploadBudget
import Telegraph.Proofs.LeadingBytes
import Telegraph.Proofs.UploadSafe
import Telegraph.Proofs.UploadRaces
import Telegraph.Proofs.UploadFaults
import Telegraph.Proofs.ClientIdentity
import Telegraph.Proofs.Statements
import Telegraph.Proofs.Identity
import Telegraph.Webhook
import Telegraph.WebhookTransport
import Telegraph.Proofs.WebhookOutcome
import Telegraph.Proofs.SameDelivery
import Telegraph.Proofs.RoutesHome
import Telegraph.Proofs.TwoForms
import Telegraph.Proofs.Elsewhere
import Telegraph.Proofs.NoTrace
import Telegraph.Proofs.LateFinishes
import Telegraph.Dispatch
import Telegraph.Proofs.RoutedOnce
import Telegraph.Sessions
import Telegraph.Monitor
import Telegraph.Proofs.SessionRows
import Telegraph.Proofs.MonitorGuards
import Telegraph.SessionCalls
import Telegraph.Login
import Telegraph.Proofs.LoginThrottling
import Telegraph.Proofs.CookieSearch
import Telegraph.Soniox
import Telegraph.Proofs.SonioxCleanup
import Telegraph.Proofs.SpeakerTurns
import Telegraph.Proofs.SessionLifetime
import Telegraph.Proofs.LockContention
import Telegraph.Lib.Serial
import Telegraph.Transactions
import Telegraph.Proofs.SingleTransactions
import Telegraph.Proofs.Serializable
import Telegraph.Proofs.CommittedStates
import Telegraph.Proofs.Refusals
import Telegraph.Proofs.TicksSucceed
import Telegraph.Runtime
import Telegraph.Proofs.TickEdges
import Telegraph.Proofs.CleanShutdown
import Telegraph.Proofs.Shutdown
import Telegraph.Lib.Reading
import Telegraph.ReadModels
import Telegraph.Proofs.DetailPage
import Telegraph.Proofs.OfferedActions
import Telegraph.Proofs.AuditTrail
import Telegraph.Proofs.WorkerMoves
import Telegraph.Proofs.WaitingLine
import Telegraph.Lib.Alike
import Telegraph.Center
import Telegraph.Proofs.UploadColumns
import Telegraph.Proofs.Durability
import Telegraph.Proofs.HeardAudio
import Telegraph.Proofs.HeardText
import Telegraph.Site
import Telegraph.Proofs.Authority
import Telegraph.Lib.Rounds
import Telegraph.Proofs.CountedSteps
import Telegraph.Proofs.NoLivelock
import Telegraph.Proofs.DueInTime
import Telegraph.Proofs.IdleTicks
import Telegraph.Proofs.ComesToRest
