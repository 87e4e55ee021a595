import Telegraph.Proofs.LockContention
import Telegraph.Service
import Telegraph.Transactions

namespace Telegraph
open Lib Program SqliteStore Function

/-- The action is a transaction that reads first, the kind the database can refuse. -/
def Action.Refusable {κ : Type} (a : Action κ) : Prop :=
  ∃ next tolerate, a = .store (.openTx (.select next)) tolerate

theorem Transcription.action_refusable {supply : Supply (Except WorkerFailure TranscriptionOutput)}
    {pc : Pc} : (action supply pc).Refusable ↔ pc.readsFirst = true := by
  cases pc with
  | began t => exact iff_of_true ⟨_, _, rfl⟩ rfl
  | claimed t recording seen => exact iff_of_true ⟨_, _, rfl⟩ rfl
  | loading t rows candidates =>
    refine iff_of_false ?_ (by simp [Pc.readsFirst])
    rintro ⟨next, tolerate, h⟩
    cases rows with
    | nil =>
      simp only [action] at h
      cases hpick : pickDueRetry t candidates <;> rw [hpick] at h <;> cases h
    | cons row rows => cases h
  | answered recording attemptId start t result =>
    refine iff_of_false ?_ (by simp [Pc.readsFirst])
    rintro ⟨next, tolerate, h⟩
    rcases result with (⟨code, message⟩ | ⟨code, message⟩) | output
    · simp only [action, record] at h
      by_cases hlate : Retry.transcriptionDeadline start.firstStartedAt recording.audioDurationMs ≤ t
      · rw [if_pos hlate] at h
        cases h
      · rw [if_neg hlate] at h
        cases h
    · cases h
    · cases h
  | _ =>
    refine iff_of_false ?_ (by simp [Pc.readsFirst])
    rintro ⟨next, tolerate, h⟩
    cases h

theorem Routing.action_refusable {route : Recording → RoutingDecision} {supply : Supply Unit} {pc : Pc} :
    (action route supply pc).Refusable ↔ pc.readsFirst = true := by
  cases pc with
  | backlogging now id => exact iff_of_true ⟨_, _, rfl⟩ rfl
  | deciding now recording =>
    refine iff_of_false ?_ (by simp [Pc.readsFirst])
    rintro ⟨next, tolerate, h⟩
    simp only [action] at h
    cases hroute : route recording <;> rw [hroute] at h <;> cases h
  | _ =>
    refine iff_of_false ?_ (by simp [Pc.readsFirst])
    rintro ⟨next, tolerate, h⟩
    cases h

theorem Delivering.action_refusable {supply : Supply (Except WorkerFailure Unit)} {pc : Pc} :
    (action supply pc).Refusable ↔ pc.readsFirst = true := by
  cases pc with
  | claimed t candidate => exact iff_of_true ⟨_, _, rfl⟩ rfl
  | answered candidate attemptId t result =>
    refine iff_of_true ?_ rfl
    rcases result with (⟨code, message⟩ | ⟨code, message⟩) | output
    · simp only [action, record]
      cases candidate.delivery.retryDeadlineAt.any fun deadline => decide (deadline ≤ t) <;>
        exact ⟨_, _, rfl⟩
    · exact ⟨_, _, rfl⟩
    · exact ⟨_, _, rfl⟩
  | loading t rows candidates =>
    refine iff_of_false ?_ (by simp [Pc.readsFirst])
    rintro ⟨next, tolerate, h⟩
    cases rows with
    | nil =>
      simp only [action] at h
      cases hpick : pickDueDelivery t candidates <;> rw [hpick] at h <;> cases h
    | cons row rows => cases h
  | _ =>
    refine iff_of_false ?_ (by simp [Pc.readsFirst])
    rintro ⟨next, tolerate, h⟩
    cases h

namespace Service
variable {ι κ : Type} {c : Service ι} {s : Store}

/-- The service after a step of a loop that left this database and the loop there. -/
def arrive (c : Service ι) (place : Service ι → κ → Service ι) (s : Store) :
    Except StorageError κ → Service ι
  | .ok next => place { c with store := s } next
  | .error _ => stopped { c with store := s }

theorem settle_arrives {a : Action κ} {place : Service ι → κ → Service ι} :
    (c.settle place (a.run c.store)).1 = c.arrive place (a.run c.store).1 ((a.run c.store).2.map Prod.fst) := by
  cases hr : a.run c.store with
  | mk s r => cases r <;> rfl

/-- A loop's step among the transactions is its action in the service, or the refusal of one
that can be refused. -/
theorem steps_arrive {a : Action κ} {w : Except StorageError κ} {place : Service ι → κ → Service ι}
    (hn : a.NeverBusy) (h : a.Steps c.store s w) :
    (c.settle place (a.run c.store)).1 = c.arrive place s w ∨
      a.Refusable ∧ c.stopped = c.arrive place s w := by
  cases h with
  | runs => exact .inl settle_arrives
  | @refused next tolerate ha =>
    right
    subst ha
    refine ⟨⟨next, tolerate, rfl⟩, ?_⟩
    rw [show Action.afterFailure tolerate (.database .busy) = .error (.database .busy) by
      simp only [Action.afterFailure, hn.2]]
    rfl

variable [DecidableEq ι] {route : Recording → RoutingDecision} {now : Int} {i : ι} {id : String}

theorem step_refuse {l : Loop} (hle : c.clock ≤ now) (hy : Timestamp.InYears now) (hrun : c.running = true)
    (hf : c.readsFirst l i = true) :
    c.step route now (.refuse l i) = some (stopped { c with clock := now }, []) :=
  if_pos ⟨hle, hy, hrun, hf⟩

/-- What a worker can do among other connections it can do in the service, with the same end. -/
theorem serves {a : Action κ} {w : Except StorageError κ} {place : Service ι → κ → Service ι}
    {input : Input ι} {l : Loop} (hle : c.clock ≤ now) (hy : Timestamp.InYears now)
    (hrun : c.running = true) (hn : a.NeverBusy) (hf : a.Refusable → c.readsFirst l i = true)
    (hs : c.step route now input = some (({ c with clock := now } : Service ι).settle place (a.run c.store)))
    (h : a.Steps c.store s w) :
    ∃ did events, (did = input ∨ did = .refuse l i) ∧
      c.step route now did = some (({ c with clock := now } : Service ι).arrive place s w, events) := by
  rcases @steps_arrive _ _ { c with clock := now } _ _ _ place hn h with he | ⟨hr, he⟩
  · rw [← he]
    exact ⟨input, _, .inl rfl, hs⟩
  · rw [← he]
    exact ⟨_, _, .inr rfl, step_refuse hle hy hrun (hf hr)⟩

section Workers
variable (hle : c.clock ≤ now) (hy : Timestamp.InYears now) (hrun : c.running = true)
include hle hy hrun

theorem serves_transcriber {reply : Except WorkerFailure TranscriptionOutput}
    {w : Except StorageError Transcription.Pc}
    (h : (Transcription.action ⟨now, id, reply⟩ (c.transcribers i)).Steps c.store s w) :
    ∃ did events, (did = .transcribe i id reply ∨ did = .refuse .transcription i) ∧
      c.step route now did = some (({ c with clock := now } : Service ι).arrive (onTranscriber · i) s w, events) :=
  serves hle hy hrun (Transcription.action_neverBusy _ _) Transcription.action_refusable.mp
    (if_pos ⟨hle, hy, hrun⟩) h

theorem serves_router {w : Except StorageError Routing.Pc}
    (h : (Routing.action route ⟨now, id, ()⟩ (c.routers i)).Steps c.store s w) :
    ∃ did events, (did = .route i id ∨ did = .refuse .routing i) ∧
      c.step route now did = some (({ c with clock := now } : Service ι).arrive (onRouter · i) s w, events) :=
  serves hle hy hrun (Routing.action_neverBusy _ _ _) Routing.action_refusable.mp
    (if_pos ⟨hle, hy, hrun⟩) h

theorem serves_deliverer {reply : Except WorkerFailure Unit} {w : Except StorageError Delivering.Pc}
    (h : (Delivering.action ⟨now, id, reply⟩ (c.deliverers i)).Steps c.store s w) :
    ∃ did events, (did = .deliver i id reply ∨ did = .refuse .delivery i) ∧
      c.step route now did = some (({ c with clock := now } : Service ι).arrive (onDeliverer · i) s w, events) :=
  serves hle hy hrun (Delivering.action_neverBusy _ _) Delivering.action_refusable.mp
    (if_pos ⟨hle, hy, hrun⟩) h

end Workers
end Service
end Telegraph
