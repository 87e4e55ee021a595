import Telegraph.Proofs.Lifecycle
import Telegraph.Proofs.Serializable

namespace Telegraph
open Lib Program SqliteStore Function

namespace SqliteStore
variable {α β : Type} {q : Query α} {f : α → Query β} {P : Operation → Prop}

/-- Run alone, it leaves what some whole operations leave, all of them of kind `P`. -/
def Operates (P : Operation → Prop) (q : Query α) : Prop :=
  ∀ s, ∃ ops : List Operation, (∀ op ∈ ops, P op) ∧ (q.run s).1 = ops.foldl Operation.apply s

theorem operates_of_reads (h : q.Reads) : Operates P q := by
  intro s
  refine ⟨[], by simp, ?_⟩
  unfold Program.run
  rw [h.exec]
  rfl

theorem operates_of (op : Operation) (hp : P op) (h : ∀ s, (q.run s).1 = op.apply s) : Operates P q :=
  fun s => ⟨[op], by simpa using hp, h s⟩

/-- What is read after an operation is no part of it. -/
theorem Operates.andThen (h : Operates P q) (hf : ∀ a, (f a).Reads) : Operates P (q.bind f) := by
  intro s
  rw [run_bind_reads hf]
  exact h s

variable {id attemptId recordingId deliveryId code message : String} {t : Int}

theorem claimReceivedTx_operates : Operates Operation.ByWorker (claimReceivedTx t) := by
  refine operates_of (.claimReceivedForTranscription t) trivial fun s => (run_bind_reads fun found => ?_).symm
  cases found with
  | none => trivial
  | some id => exact requireRecording_reads.bind fun _ => trivial

theorem succeedTranscriptionTx_operates {new : NewTranscript} :
    Operates Operation.ByWorker (succeedTranscriptionTx attemptId t new) :=
  operates_of (.succeedTranscription attemptId t new) trivial fun _ =>
    (run_bind_reads fun _ => requireTranscript_reads).symm

theorem failTranscriptionTx_operates :
    Operates Operation.ByWorker (failTranscriptionTx attemptId recordingId t code message) :=
  operates_of (.failTranscription attemptId recordingId t code message) trivial fun _ =>
    (run_bind_reads fun _ => requireRecording_reads).symm

theorem markBackloggedTx_operates : Operates Operation.ByWorker (markBackloggedTx id t) :=
  operates_of (.markBacklogged id t) trivial fun _ =>
    (run_bind_reads fun _ => requireRecording_reads).symm

theorem routeToSinkTx_operates {new : NewDelivery} : Operates Operation.ByWorker (routeToSinkTx new) := by
  refine operates_of (.routeToSink new) trivial fun s => (run_bind_reads fun selected => ?_).symm
  cases selected with
  | true => exact requireDelivery_reads.bind fun _ => trivial
  | false => trivial

theorem succeedDeliveryTx_operates {httpStatus : Option Int} :
    Operates Operation.ByWorker (succeedDeliveryTx attemptId deliveryId t httpStatus) :=
  operates_of (.succeedDelivery attemptId deliveryId t httpStatus) trivial fun _ =>
    (run_bind_reads fun _ => requireDelivery_reads).symm

theorem failDeliveryTx_operates {httpStatus : Option Int} :
    Operates Operation.ByWorker (failDeliveryTx attemptId deliveryId t httpStatus message) :=
  operates_of (.failDelivery attemptId deliveryId t httpStatus message) trivial fun _ =>
    (run_bind_reads fun _ => requireDelivery_reads).symm

end SqliteStore

namespace Action
variable {κ : Type}

/-- The action as a whole leaves what whole operations of the workers leave. -/
def Operates : Action κ → Prop
  | .local _ _ => True
  | .store tx _ => SqliteStore.Operates Operation.ByWorker tx

theorem run_store {tx : Query (κ × List Event)} {tolerate : StorageError → Option κ} (s : Store) :
    ((Action.store tx tolerate).run s).1 = (tx.run s).1 := by
  simp only [Action.run]
  rcases tx.run s with ⟨s', r | e⟩
  · cases h : tolerate r <;> simp only [h]
  · rfl

theorem Operates.run {a : Action κ} (h : a.Operates) (s : Store) :
    ∃ ops : List Operation, (∀ op ∈ ops, op.ByWorker) ∧ (a.run s).1 = ops.foldl Operation.apply s := by
  cases a with
  | «local» next events => exact ⟨[], by simp, rfl⟩
  | store tx tolerate =>
    rw [run_store]
    exact h s

end Action

theorem Transcription.record_operates {recording : Recording} {attemptId : String}
    {start : TranscriptionAttemptStart} {t : Int} {result : Except WorkerFailure TranscriptionOutput} :
    SqliteStore.Operates Operation.ByWorker (record recording attemptId start t result) := by
  match result with
  | .ok output => exact succeedTranscriptionTx_operates.andThen fun _ => trivial
  | .error (.retryable code message) =>
    unfold record
    dsimp only
    split
    · exact failTranscriptionTx_operates.andThen fun _ => trivial
    · exact (operates_of (.retryTranscription _ _ _ _ _) trivial fun _ => rfl).andThen fun _ => trivial
  | .error (.terminal code message) => exact failTranscriptionTx_operates.andThen fun _ => trivial

theorem Transcription.action_operates (supply : Supply (Except WorkerFailure TranscriptionOutput))
    (pc : Pc) : (action supply pc).Operates := by
  cases pc with
  | ready last => trivial
  | began t =>
    refine claimReceivedTx_operates.andThen fun found => ?_
    cases found <;> trivial
  | confirming t id => exact operates_of_reads (requireRecording_reads.bind fun _ => trivial)
  | unclaimed t => exact operates_of_reads (reads_query.bind fun _ => trivial)
  | loading t rows candidates =>
    cases rows with
    | nil =>
      simp only [action]
      split <;> trivial
    | cons row rows => exact operates_of_reads (requireRecording_reads.bind fun _ => trivial)
  | claimed t recording seen =>
    refine (operates_of (.startTranscriptionAttempt _ _ _) trivial fun _ => rfl).andThen fun start => ?_
    cases start <;> trivial
  | started recording attemptId start => trivial
  | calling recording attemptId start => trivial
  | answered recording attemptId start t result => exact record_operates
  | confirmingTranscript id => exact operates_of_reads (requireTranscript_reads.bind fun _ => trivial)
  | confirmingFailure id => exact operates_of_reads (requireRecording_reads.bind fun _ => trivial)

theorem Routing.action_operates (route : Recording → RoutingDecision) (supply : Supply Unit) (pc : Pc) :
    (action route supply pc).Operates := by
  cases pc with
  | ready last => trivial
  | began now =>
    refine operates_of_reads (reads_query.bind fun found => ?_)
    cases found <;> trivial
  | confirming now id => exact operates_of_reads (requireRecording_reads.bind fun _ => trivial)
  | deciding now recording =>
    simp only [action]
    split <;> trivial
  | backlogging now id => exact markBackloggedTx_operates.andThen fun _ => trivial
  | selecting now recordingId sinkName =>
    refine routeToSinkTx_operates.andThen fun selected => ?_
    cases selected <;> trivial
  | confirmingBacklog id => exact operates_of_reads (requireRecording_reads.bind fun _ => trivial)
  | confirmingDelivery id => exact operates_of_reads (requireDelivery_reads.bind fun _ => trivial)

theorem Delivering.record_operates {candidate : DeliveryCandidate} {attemptId : String} {t : Int}
    {result : Except WorkerFailure Unit} :
    SqliteStore.Operates Operation.ByWorker (record candidate attemptId t result) := by
  match result with
  | .ok () => exact succeedDeliveryTx_operates.andThen fun _ => trivial
  | .error (.retryable code message) =>
    unfold record
    dsimp only
    split
    · exact failDeliveryTx_operates.andThen fun _ => trivial
    · exact (operates_of (.retryDelivery _ _ _ _ _) trivial fun _ => rfl).andThen fun _ => trivial
  | .error (.terminal code message) => exact failDeliveryTx_operates.andThen fun _ => trivial

theorem Delivering.action_operates (supply : Supply (Except WorkerFailure Unit)) (pc : Pc) :
    (action supply pc).Operates := by
  cases pc with
  | ready last => trivial
  | began t => exact operates_of_reads (reads_query.bind fun _ => trivial)
  | loading t rows candidates =>
    cases rows with
    | nil =>
      simp only [action]
      split <;> trivial
    | cons row rows => exact operates_of_reads (requireDelivery_reads.bind fun _ => trivial)
  | loadingRecording t row rows candidates delivery =>
    exact operates_of_reads (requireRecording_reads.bind fun _ => trivial)
  | loadingTranscript t row rows candidates delivery recording =>
    exact operates_of_reads (requireTranscript_reads.bind fun _ => trivial)
  | claimed t candidate =>
    refine (operates_of (.startDeliveryAttempt _ _ _) trivial fun _ => rfl).andThen fun start => ?_
    cases start <;> trivial
  | started candidate attemptId => trivial
  | calling candidate attemptId => trivial
  | answered candidate attemptId t result => exact record_operates
  | confirming id => exact operates_of_reads (requireDelivery_reads.bind fun _ => trivial)

theorem StoreRequest.program_operates (r : StoreRequest) : SqliteStore.Operates (fun _ => True) r.program := by
  cases r with
  | upload new => exact (operates_of (.createRecording new) trivial fun _ => rfl).andThen fun _ => trivial
  | manualRoute input => exact (operates_of (.manualRoute input) trivial fun _ => rfl).andThen fun _ => trivial
  | manualRetryTranscription input =>
    exact (operates_of (.manualRetryTranscription input) trivial fun _ => rfl).andThen fun _ => trivial
  | manualRetryDelivery input =>
    exact (operates_of (.manualRetryDelivery input) trivial fun _ => rfl).andThen fun _ => trivial
  | elsewhere rows => exact fun s => ⟨[], by simp, rfl⟩

namespace Transactions
variable {ι : Type} {a a' a₀ : Transactions ι} {who : Who ι}

/-- A request is not begun, or has only reads left to make. -/
def Requests (a : Transactions ι) : Prop :=
  ∀ i, (∃ r : StoreRequest, a.requests i = r.program) ∨ (a.requests i).Reads

section Steps
variable {route : Recording → RoutingDecision}

theorem steps_operate {κ : Type} {act : Action κ} {s s' : Store} {w : Except StorageError κ}
    (hact : act.Operates) (h : act.Steps s s' w) :
    ∃ ops : List Operation, s' = ops.foldl Operation.apply s := by
  cases h with
  | runs =>
    obtain ⟨ops, -, ho⟩ := hact.run s
    exact ⟨ops, ho⟩
  | refused h => exact ⟨[], rfl⟩

theorem request_operates {i : ι} (h : a.Requests) {s : Store} {p : Query Unit}
    (hs : (a.requests i).Serial (.database .busy) a.store s p) :
    (∃ ops : List Operation, s = ops.foldl Operation.apply a.store) ∧ p.Reads := by
  rcases hs.inv with hu | ⟨next, -, rfl, rfl⟩
  · rcases h i with ⟨r, hr⟩ | hreads
    · rw [hr] at hu
      have hp : p.Reads := (Connections.program_single r).ends (fun _ he => he.reads) hu
      obtain ⟨ops, -, ho⟩ := r.program_operates a.store
      exact ⟨⟨ops, (run_of_reads hu hp).symm.trans ho⟩, hp⟩
    · obtain ⟨rfl, hp⟩ := hreads.unit hu
      exact ⟨⟨[], rfl⟩, hp⟩
  · exact ⟨⟨[], rfl⟩, trivial⟩

variable [DecidableEq ι]

theorem Step.operates (h : a.Requests) (hs : Step route a who a') :
    (∃ ops : List Operation, a'.store = ops.foldl Operation.apply a.store) ∧ a'.Requests := by
  cases hs with
  | transcribe supply at_ hs => exact ⟨steps_operate (Transcription.action_operates supply _) hs, h⟩
  | route supply at_ hs => exact ⟨steps_operate (Routing.action_operates route supply _) hs, h⟩
  | deliver supply at_ hs => exact ⟨steps_operate (Delivering.action_operates supply _) hs, h⟩
  | request i hs =>
    obtain ⟨ho, hp⟩ := request_operates h hs
    refine ⟨ho, fun j => ?_⟩
    by_cases hj : j = i
    · subst j
      simp only [update_self]
      exact .inr hp
    · simp only [update_of_ne hj]
      exact h j

theorem Runs.operates {moves : List (Turn (Transactions ι) (Who ι))} (hr : Runs route a₀ moves a)
    (h₀ : a₀.Requests) : (∃ ops : List Operation, a.store = ops.foldl Operation.apply a₀.store) ∧
      a.Requests := by
  induction hr with
  | start => exact ⟨⟨[], rfl⟩, h₀⟩
  | turn who _ hs ih =>
    obtain ⟨⟨ops, ho⟩, hq⟩ := ih
    obtain ⟨⟨more, hm⟩, hq'⟩ := Step.operates hq hs
    refine ⟨⟨ops ++ more, ?_⟩, hq'⟩
    rw [hm, ho, List.foldl_append]

end Steps
end Transactions

namespace Connections
variable {ι : Type} [DecidableEq ι] {c c₀ : Connections ι} {route : Recording → RoutingDecision}
variable {turns : List (Turn (Connections ι) (Pick ι))} {ops₀ : List Operation}

/-- However the statements of the loops and of the requests interleave, what is
committed is what whole operations leave, one after the other, and every committed
Recording has the rows its status promises. -/
theorem only_whole_operations (h₀ : c₀.AtStart) (hs : c₀.db.committed = Operation.applyAll ops₀)
    (hr : Runs route c₀ turns c) :
    (∃ ops, c.db.committed = Operation.applyAll (ops₀ ++ ops)) ∧
      ∀ r ∈ c.db.committed.recordings.rows, c.db.committed.Lawful r := by
  obtain ⟨moves, a, hruns, -, ht⟩ := hr.tracks h₀
  have hbegun : (Transactions.before c₀).Requests := by
    intro i
    obtain ⟨r, hq⟩ := h₀.requests i
    exact .inl ⟨r, by simp only [Transactions.before, hq]⟩
  obtain ⟨⟨ops, ho⟩, -⟩ := hruns.operates hbegun
  have he : c.db.committed = Operation.applyAll (ops₀ ++ ops) := by
    unfold Operation.applyAll at hs ⊢
    rw [List.foldl_append, ← hs, ← ht.store, ho]
    rfl
  refine ⟨⟨ops, he⟩, fun r hrow => ?_⟩
  have hlife := Operation.applyAll_lifecycle (ops₀ ++ ops) r.id
  rw [← he] at hlife
  apply Store.lawful_of_stage
  change Stage (c.db.committed.recording r.id) _ _ at hlife
  rwa [Store.recording_of_mem hrow] at hlife

/-- Two uploads and a claim, the claim between the statements of neither. -/
theorem claim_leaves_lawful : ∃ turns c, Runs backlogAll twoUploads turns c ∧ c.db.version = 3 ∧
    (∃ ops, c.db.committed = Operation.applyAll ([] ++ ops)) ∧
      ∀ r ∈ c.db.committed.recordings.rows, c.db.committed.Lawful r := by
  have hp : (History.play (step backlogAll) twoUploads
      ([.request true] ++ List.replicate 7 claiming ++ [.request false])).map (·.2.db.version) =
        some 3 := by
    decide +kernel
  obtain ⟨⟨turns, c⟩, hrun, hversion⟩ := Option.map_eq_some_iff.mp hp
  have hempty : twoUploads.db.committed = Operation.applyAll [] := rfl
  exact ⟨turns, c, History.of_play hrun, hversion,
    only_whole_operations twoUploads_atStart hempty (History.of_play hrun)⟩

end Connections
end Telegraph
