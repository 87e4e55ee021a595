import Telegraph.Proofs.LockContention
import Telegraph.Proofs.SingleTransactions

namespace Telegraph
open Lib Program SqliteStore Function

namespace Action
variable {κ : Type} {a : Action κ}

/-- The action is local, or one transaction or statement that is not over yet. -/
def OneTransaction : Action κ → Prop
  | .local _ _ => True
  | .store tx _ => tx.Single Ended ∧ ¬ tx.Ended

theorem transact_oneTransaction {tx : Query (κ × List Event)} (h : tx.Single Ended) (hn : ¬ tx.Ended) :
    (transact tx).OneTransaction :=
  ⟨h, hn⟩

/-- A transaction and then a value is over only when the transaction is. -/
theorem transact_andThen {α : Type} {tx : Query α} {f : α → Query (κ × List Event)}
    (h : tx.Single Ended) (hn : ∀ g : α → Query (κ × List Event), ¬ (tx.bind g).Ended)
    (hf : ∀ b, (f b).Ended) : (transact (tx >>= f)).OneTransaction :=
  ⟨h.andThen hf, hn f⟩

end Action

namespace Transcription

theorem record_single {recording : Recording} {attemptId : String}
    {start : TranscriptionAttemptStart} {t : Int} {result : Except WorkerFailure TranscriptionOutput} :
    Single Ended (record recording attemptId start t result) := by
  match result with
  | .ok output => exact succeedTranscriptionTx_single.andThen fun _ => trivial
  | .error (.retryable code message) =>
    unfold record
    dsimp only
    split
    · exact failTranscriptionTx_single.andThen fun _ => trivial
    · exact retryTranscription_single.andThen fun _ => trivial
  | .error (.terminal code message) => exact failTranscriptionTx_single.andThen fun _ => trivial

theorem record_pending {recording : Recording} {attemptId : String}
    {start : TranscriptionAttemptStart} {t : Int} {result : Except WorkerFailure TranscriptionOutput} :
    ¬ Ended (record recording attemptId start t result) := by
  match result with
  | .ok output => exact id
  | .error (.retryable code message) =>
    unfold record
    dsimp only
    split <;> exact id
  | .error (.terminal code message) => exact id

theorem action_oneTransaction (supply : Supply (Except WorkerFailure TranscriptionOutput)) (pc : Pc) :
    (action supply pc).OneTransaction := by
  cases pc with
  | ready last => trivial
  | began t =>
    refine Action.transact_andThen claimReceivedTx_single (fun _ => id) fun claimed => ?_
    split <;> trivial
  | confirming t id =>
    exact Action.transact_andThen requireRecording_single (fun _ h => h) fun _ => trivial
  | unclaimed t => exact Action.transact_oneTransaction (fun _ => trivial) id
  | loading t rows candidates =>
    cases rows with
    | nil =>
      simp only [action]
      split <;> trivial
    | cons row rows =>
      exact Action.transact_andThen requireRecording_single (fun _ h => h) fun _ => trivial
  | claimed t recording seen =>
    refine Action.transact_andThen startTranscriptionAttempt_single (fun _ => id) fun start => ?_
    split <;> trivial
  | started recording attemptId start => trivial
  | calling recording attemptId start => trivial
  | answered recording attemptId start t result =>
    exact Action.transact_oneTransaction record_single record_pending
  | confirmingTranscript id =>
    exact Action.transact_andThen requireTranscript_single (fun _ h => h) fun _ => trivial
  | confirmingFailure id =>
    exact Action.transact_andThen requireRecording_single (fun _ h => h) fun _ => trivial

end Transcription

namespace Routing

theorem action_oneTransaction (route : Recording → RoutingDecision) (supply : Supply Unit) (pc : Pc) :
    (action route supply pc).OneTransaction := by
  cases pc with
  | ready last => trivial
  | began now =>
    refine Action.transact_oneTransaction (fun s => Ended.bind
      (q := .done (s.oldestWithStatus .routing)) trivial fun found => ?_) id
    cases found <;> trivial
  | confirming now id =>
    exact Action.transact_andThen requireRecording_single (fun _ h => h) fun _ => trivial
  | deciding now recording =>
    simp only [action]
    split <;> trivial
  | backlogging now id => exact ⟨markBackloggedTx_single.andThen fun _ => trivial, fun h => h⟩
  | selecting now recordingId sinkName =>
    refine Action.transact_andThen routeToSinkTx_single (fun _ => id) fun claimed => ?_
    split <;> trivial
  | confirmingBacklog id =>
    exact Action.transact_andThen requireRecording_single (fun _ h => h) fun _ => trivial
  | confirmingDelivery id =>
    exact Action.transact_andThen requireDelivery_single (fun _ h => h) fun _ => trivial

end Routing

namespace Delivering

theorem record_single {candidate : DeliveryCandidate} {attemptId : String} {t : Int}
    {result : Except WorkerFailure Unit} : Single Ended (record candidate attemptId t result) := by
  match result with
  | .ok () => exact succeedDeliveryTx_single.andThen fun _ => trivial
  | .error (.retryable code message) =>
    unfold record
    dsimp only
    split
    · exact failDeliveryTx_single.andThen fun _ => trivial
    · exact retryDelivery_single.andThen fun _ => trivial
  | .error (.terminal code message) => exact failDeliveryTx_single.andThen fun _ => trivial

theorem record_pending {candidate : DeliveryCandidate} {attemptId : String} {t : Int}
    {result : Except WorkerFailure Unit} : ¬ Ended (record candidate attemptId t result) := by
  match result with
  | .ok () => exact id
  | .error (.retryable code message) =>
    unfold record
    dsimp only
    split <;> exact id
  | .error (.terminal code message) => exact id

theorem action_oneTransaction (supply : Supply (Except WorkerFailure Unit)) (pc : Pc) :
    (action supply pc).OneTransaction := by
  cases pc with
  | ready last => trivial
  | began t => exact Action.transact_oneTransaction (fun _ => trivial) id
  | loading t rows candidates =>
    cases rows with
    | nil =>
      simp only [action]
      split <;> trivial
    | cons row rows =>
      exact Action.transact_andThen requireDelivery_single (fun _ h => h) fun _ => trivial
  | loadingRecording t row rows candidates delivery =>
    exact Action.transact_andThen requireRecording_single (fun _ h => h) fun _ => trivial
  | loadingTranscript t row rows candidates delivery recording =>
    exact Action.transact_andThen requireTranscript_single (fun _ h => h) fun _ => trivial
  | claimed t candidate =>
    refine Action.transact_andThen startDeliveryAttempt_single (fun _ => id) fun claimed => ?_
    split <;> trivial
  | started candidate attemptId => trivial
  | calling candidate attemptId => trivial
  | answered candidate attemptId t result =>
    exact Action.transact_oneTransaction record_single record_pending
  | confirming id =>
    exact Action.transact_andThen requireDelivery_single (fun _ h => h) fun _ => trivial

end Delivering

namespace Worker
variable {ι κ α : Type} {me j : Who ι} {db db' : Wal (Who ι) Store}
variable {act : α → κ → Action κ} {w w' : Worker κ} {a : Except StorageError κ}
variable {tolerate : StorageError → Option κ} {tx r : Query (κ × List Event)} {hold : Hold Store}

/-- Where a tick goes from a program that is over. -/
def settled (tolerate : StorageError → Option κ) : Query (κ × List Event) → Option (Except StorageError κ)
  | .done r => some (.ok r.1)
  | .fail e => some (Action.afterFailure tolerate e)
  | _ => none

/-- A worker loop among the statements of others, as `a` of a loop whose transactions
overlap with none. -/
inductive Tracks (me : Who ι) (db : Wal (Who ι) Store) (act : α → κ → Action κ) :
    Worker κ → Except StorageError κ → Prop where
  | resting {pc : κ} : Tracks me db act (.resting pc) (.ok pc)
  | broken {e : StorageError} : Tracks me db act (.broken e) (.error e)
  | running {pc : κ} {supply : α} {tx whole : Query (κ × List Event)} {hold : Hold Store}
      {tolerate : StorageError → Option κ} (begun : act supply pc = .store whole tolerate)
      (tracks : Wal.Tracks me db tx hold whole) (counts : tx.Counts) :
      Tracks me db act (.running tx hold tolerate) (.ok pc)
  | ending {tx r : Query (κ × List Event)} {hold : Hold Store} {tolerate : StorageError → Option κ}
      {a : Except StorageError κ} (tracks : Wal.Tracks me db tx hold r) (counts : tx.Counts)
      (settles : settled tolerate r = some a) : Tracks me db act (.running tx hold tolerate) a

theorem settled_of_ended (h : r.Ended) : ∃ a, settled tolerate r = some a := by
  cases r with
  | done r => exact ⟨_, rfl⟩
  | fail e => exact ⟨_, rfl⟩
  | _ => exact h.elim

/-- The step of the loop that a whole transaction makes. -/
theorem steps_of_unit {s s' : Store} {whole : Query (κ × List Event)}
    (hu : whole.unit s = some (s', r)) (ho : settled tolerate r = some a) :
    (Action.store whole tolerate).Steps s s' a := by
  have hsteps := Action.Steps.runs (a := .store whole tolerate) (s := s)
  cases r with
  | done r =>
    cases ho
    have hrun : (Action.store whole tolerate).run s = (s', .ok r) := by
      simp only [Action.run, run_of_outcome hu rfl]
    rwa [hrun] at hsteps
  | fail e =>
    cases ho
    unfold Action.afterFailure
    cases ht : tolerate e with
    | some next =>
      have hrun : (Action.store whole tolerate).run s = (s', .ok (next, [])) := by
        simp only [Action.run, run_of_outcome hu rfl, ht]
      rwa [hrun] at hsteps
    | none =>
      have hrun : (Action.store whole tolerate).run s = (s', .error e) := by
        simp only [Action.run, run_of_outcome hu rfl, ht]
      rwa [hrun] at hsteps
  | _ => cases ho

/-- Between its statements a worker goes on running; at the end it settles. -/
theorem Tracks.settle_ending (ht : Wal.Tracks me db tx hold r) (hc : tx.Counts)
    (ho : settled tolerate r = some a) : Tracks me db act (settle tolerate tx hold) a := by
  cases hold with
  | idle =>
    cases ht
    cases tx with
    | done r =>
      cases ho
      exact .resting
    | fail e =>
      cases ho
      cases hte : tolerate e with
      | some pc =>
        simp only [settle, Action.afterFailure, hte]
        exact .resting
      | none =>
        simp only [settle, Action.afterFailure, hte]
        exact .broken
    | _ => cases ho
  | _ => cases tx <;> exact .ending ht hc ho

theorem Tracks.settle_running {pc : κ} {supply : α} {whole : Query (κ × List Event)}
    (hb : act supply pc = .store whole tolerate) (hn : ¬ whole.Ended)
    (ht : Wal.Tracks me db tx hold whole) (hc : tx.Counts) :
    Tracks me db act (settle tolerate tx hold) (.ok pc) := by
  cases hold with
  | idle =>
    cases ht
    cases tx with
    | done r => exact absurd trivial hn
    | fail e => exact absurd trivial hn
    | _ => exact .running hb .idle hc
  | _ => cases tx <;> exact .running hb ht hc

theorem Tracks.others (h : Tracks j db act w a) (hj : j ≠ me) (he : Wal.Evolves me db db') :
    Tracks j db' act w a := by
  cases h with
  | resting => exact .resting
  | broken => exact .broken
  | running begun tracks counts => exact .running begun (tracks.others hj he) counts
  | ending tracks counts settles => exact .ending (tracks.others hj he) counts settles

/-- What the loop `a` does while the worker makes a step. -/
def Follows (act : α → κ → Action κ) (s : Store) (a : Except StorageError κ) (s' : Store)
    (a' : Except StorageError κ) : Prop :=
  (a' = a ∧ s' = s) ∨ ∃ supply pc, a = .ok pc ∧ (act supply pc).Steps s s' a'

/-- A statement of a worker is a stutter, or a whole step, of the loop that tracks it. -/
theorem Tracks.advance (h : Tracks me db act w a) (hact : ∀ supply pc, (act supply pc).OneTransaction)
    {supply : α} (hs : w.advance me db (act supply) = some (db', w')) :
    Wal.Evolves me db db' ∧
      ∃ a', Tracks me db' act w' a' ∧ Follows act db.committed a db'.committed a' := by
  cases h with
  | resting =>
    rename_i pc
    unfold Worker.advance at hs
    cases hc : act supply pc with
    | «local» next events =>
      simp only [hc] at hs
      cases hs
      refine ⟨.refl me db, .ok next, .resting, .inr ⟨supply, pc, rfl, ?_⟩⟩
      rw [hc]
      exact .runs
    | store whole tolerate =>
      simp only [hc] at hs
      cases hs
      have hone := hact supply pc
      rw [hc] at hone
      refine ⟨.refl me db, .ok pc, ?_, .inl ⟨rfl, rfl⟩⟩
      exact .settle_running hc hone.2 .idle (hone.1.counts fun _ hr => hr.reads.counts)
  | broken => cases hs
  | running begun tracks counts =>
    rename_i pc supply₀ tx whole hold tolerate
    obtain ⟨⟨db₁, tx', hold'⟩, hstep, he⟩ := Option.map_eq_some_iff.mp hs
    cases he
    have hone := hact supply₀ pc
    rw [begun] at hone
    obtain ⟨evolves, counts', q', tracks', ⟨rfl, hc⟩ | hserial⟩ := tracks.step counts hstep
    · exact ⟨evolves, .ok pc, .settle_running begun hone.2 tracks' counts', .inl ⟨rfl, hc⟩⟩
    · rcases hserial.inv with hu | ⟨next, rfl, hc, rfl⟩
      · obtain ⟨a', ho⟩ := settled_of_ended (hone.1.ends (fun _ h => h) hu)
        refine ⟨evolves, a', .settle_ending tracks' counts' ho, .inr ⟨supply₀, pc, rfl, ?_⟩⟩
        rw [begun]
        exact steps_of_unit hu ho
      · refine ⟨evolves, _, .settle_ending tracks' counts' rfl, .inr ⟨supply₀, pc, rfl, ?_⟩⟩
        rw [hc]
        exact .refused begun
  | ending tracks counts settles =>
    rename_i tx r hold tolerate
    obtain ⟨⟨db₁, tx', hold'⟩, hstep, he⟩ := Option.map_eq_some_iff.mp hs
    cases he
    obtain ⟨evolves, counts', q', tracks', ⟨rfl, hc⟩ | hserial⟩ := tracks.step counts hstep
    · exact ⟨evolves, a, .settle_ending tracks' counts' settles, .inl ⟨rfl, hc⟩⟩
    · -- It was over already.
      rcases hserial.inv with hu | ⟨next, rfl, -, -⟩
      · cases r <;> first | cases hu | cases settles
      · cases settles

end Worker

namespace Connections
variable {ι : Type} {c c' c₀ : Connections ι} {a : Transactions ι}

theorem program_single (r : StoreRequest) : r.program.Single Reads := by
  cases r with
  | upload new =>
    exact createRecording_single.bind (fun _ h => h.bind fun _ => trivial) (fun _ => trivial) fun _ => trivial
  | manualRoute input =>
    exact manualRoute_single.bind (fun _ h => h.bind fun _ => trivial) (fun _ => trivial) fun _ => trivial
  | manualRetryTranscription input =>
    exact manualRetryTranscription_single.bind (fun _ h => h.bind fun _ => trivial) (fun _ => trivial)
      fun _ => trivial
  | manualRetryDelivery input =>
    exact manualRetryDelivery_single.bind (fun _ h => h.bind fun _ => trivial) (fun _ => trivial)
      fun _ => trivial
  | elsewhere rows =>
    refine ⟨fun s s' he => ?_, fun _ => trivial⟩
    cases he
    rfl

/-- The process statement by statement, as the one `a` whose transactions do not overlap. -/
structure Tracks (route : Recording → RoutingDecision) (c : Connections ι) (a : Transactions ι) :
    Prop where
  store : a.store = c.db.committed
  transcriber : c.transcriber.Tracks .transcriber c.db Transcription.action a.transcriber
  router : c.router.Tracks .router c.db (Routing.action route) a.router
  deliverer : c.deliverer.Tracks .deliverer c.db Delivering.action a.deliverer
  requests : ∀ i, Wal.Tracks (.request i) c.db (c.requests i).1 (c.requests i).2 (a.requests i)
  counts : ∀ i, (c.requests i).1.Counts

section Steps
variable {route : Recording → RoutingDecision}

theorem AtStart.tracks (h : c.AtStart) : c.Tracks route (.before c) where
  store := rfl
  transcriber := by
    rw [h.transcriber]
    exact .resting
  router := by
    rw [h.router]
    exact .resting
  deliverer := by
    rw [h.deliverer]
    exact .resting
  requests i := by
    obtain ⟨r, hr⟩ := h.requests i
    have hidle : (c.requests i).2 = .idle := by rw [hr]
    rw [hidle]
    exact .idle
  counts i := by
    obtain ⟨r, hr⟩ := h.requests i
    rw [hr]
    exact (program_single r).counts fun _ hq => hq.counts

variable [DecidableEq ι] {pick : Pick ι}

/-- One statement of the process is a stutter or one whole transaction of whoever issued it. -/
theorem Tracks.step (h : c.Tracks route a) (hs : c.step route pick = some c') :
    c'.Tracks route a ∨ ∃ a', Transactions.Step route a pick.who a' ∧ c'.Tracks route a' := by
  obtain ⟨-, hs⟩ := Option.ite_none_left_eq_some.mp hs
  cases pick with
  | transcribe supply =>
    obtain ⟨⟨db', w'⟩, ha, rfl⟩ := Option.map_eq_some_iff.mp hs
    obtain ⟨he, b, ht, hf⟩ := h.transcriber.advance Transcription.action_oneTransaction ha
    have hr := h.router.others (by simp) he
    have hd := h.deliverer.others (by simp) he
    have hq := fun i => (h.requests i).others (by simp) he
    rcases hf with ⟨rfl, hc⟩ | ⟨supply₀, pc, hpc, hstep⟩
    · exact .inl ⟨h.store.trans hc.symm, ht, hr, hd, hq, h.counts⟩
    · rw [← h.store] at hstep
      exact .inr ⟨_, .transcribe supply₀ hpc hstep, rfl, ht, hr, hd, hq, h.counts⟩
  | route supply =>
    obtain ⟨⟨db', w'⟩, ha, rfl⟩ := Option.map_eq_some_iff.mp hs
    obtain ⟨he, b, hr, hf⟩ := h.router.advance (Routing.action_oneTransaction route) ha
    have ht := h.transcriber.others (by simp) he
    have hd := h.deliverer.others (by simp) he
    have hq := fun i => (h.requests i).others (by simp) he
    rcases hf with ⟨rfl, hc⟩ | ⟨supply₀, pc, hpc, hstep⟩
    · exact .inl ⟨h.store.trans hc.symm, ht, hr, hd, hq, h.counts⟩
    · rw [← h.store] at hstep
      exact .inr ⟨_, .route supply₀ hpc hstep, rfl, ht, hr, hd, hq, h.counts⟩
  | deliver supply =>
    obtain ⟨⟨db', w'⟩, ha, rfl⟩ := Option.map_eq_some_iff.mp hs
    obtain ⟨he, b, hd, hf⟩ := h.deliverer.advance Delivering.action_oneTransaction ha
    have ht := h.transcriber.others (by simp) he
    have hr := h.router.others (by simp) he
    have hq := fun i => (h.requests i).others (by simp) he
    rcases hf with ⟨rfl, hc⟩ | ⟨supply₀, pc, hpc, hstep⟩
    · exact .inl ⟨h.store.trans hc.symm, ht, hr, hd, hq, h.counts⟩
    · rw [← h.store] at hstep
      exact .inr ⟨_, .deliver supply₀ hpc hstep, rfl, ht, hr, hd, hq, h.counts⟩
  | request i =>
    obtain ⟨⟨db', p', hold'⟩, hstep, rfl⟩ := Option.map_eq_some_iff.mp hs
    obtain ⟨he, hcounts, q', hq, hf⟩ := (h.requests i).step (h.counts i) hstep
    have ht := h.transcriber.others (by simp) he
    have hr := h.router.others (by simp) he
    have hd := h.deliverer.others (by simp) he
    have hall : ∀ j, Wal.Tracks (.request j) db' (update c.requests i (p', hold') j).1
        (update c.requests i (p', hold') j).2 (update a.requests i q' j) := by
      intro j
      by_cases hj : j = i
      · subst j
        simpa only [update_self] using hq
      · simpa only [update_of_ne hj] using (h.requests j).others (by simpa using hj) he
    have hcall : ∀ j, (update c.requests i (p', hold') j).1.Counts := by
      intro j
      by_cases hj : j = i
      · subst j
        simpa only [update_self] using hcounts
      · simpa only [update_of_ne hj] using h.counts j
    rcases hf with ⟨rfl, hc⟩ | hserial
    · rw [update_eq_self] at hall
      exact .inl ⟨h.store.trans hc.symm, ht, hr, hd, hall, hcall⟩
    · rw [← h.store] at hserial
      exact .inr ⟨_, .request i hserial, rfl, ht, hr, hd, hall, hcall⟩

end Steps
end Connections

/-- Between its transactions a loop stands where `a` does, and has failed when it has. -/
def Worker.Shows {κ : Type} : Worker κ → Except StorageError κ → Prop
  | .resting pc, a => a = .ok pc
  | .broken e, a => a = .error e
  | .running _ _ _, _ => True

theorem Worker.Tracks.shows {ι κ α : Type} {me : Who ι} {db : Wal (Who ι) Store}
    {act : α → κ → Action κ} {w : Worker κ} {a : Except StorageError κ} (h : w.Tracks me db act a) :
    w.Shows a := by
  cases h <;> first | rfl | trivial

namespace Connections
variable {ι : Type} {c c₀ : Connections ι} {a : Transactions ι}

/-- The database, and where each loop and each request stands between two transactions. -/
structure Shows (c : Connections ι) (a : Transactions ι) : Prop where
  store : a.store = c.db.committed
  transcriber : c.transcriber.Shows a.transcriber
  router : c.router.Shows a.router
  deliverer : c.deliverer.Shows a.deliverer
  requests : ∀ i, (c.requests i).2 = .idle → a.requests i = (c.requests i).1

variable {route : Recording → RoutingDecision}

theorem Tracks.shows (h : c.Tracks route a) : c.Shows a := by
  refine ⟨h.store, h.transcriber.shows, h.router.shows, h.deliverer.shows, fun i hi => ?_⟩
  have ht := h.requests i
  rw [hi] at ht
  exact ht.eq

variable [DecidableEq ι] {turns : List (Turn (Connections ι) (Pick ι))}

theorem Runs.tracks (hr : Runs route c₀ turns c) (h₀ : c₀.AtStart) :
    ∃ moves a, Transactions.Runs route (.before c₀) moves a ∧
      (moves.map (·.what)).Sublist (turns.map fun t => t.what.who) ∧ c.Tracks route a := by
  induction hr with
  | start => exact ⟨[], _, .start, .slnil, h₀.tracks⟩
  | turn pick _ hs ih =>
    obtain ⟨moves, a, hruns, hsub, ht⟩ := ih
    simp only [List.map_append, List.map_cons, List.map_nil]
    rcases ht.step hs with ht | ⟨a', hstep, ht⟩
    · exact ⟨moves, a, hruns, hsub.trans (List.sublist_append_left _ _), ht⟩
    · refine ⟨_, a', hruns.turn pick.who hstep, ?_, ht⟩
      simpa only [List.map_append, List.map_cons, List.map_nil] using hsub.append (List.Sublist.refl _)

/-- Transactions are serializable: whatever statements of the worker loops and the
requests run in between, the process is where some run takes it in which every
transaction happens at one instant between its first statement and its last, and none
but a read that a write follows is ever refused. -/
theorem transactions_serializable (h₀ : c₀.AtStart) (hr : Runs route c₀ turns c) :
    ∃ moves a, Transactions.Runs route (.before c₀) moves a ∧
      (moves.map (·.what)).Sublist (turns.map fun t => t.what.who) ∧ c.Shows a := by
  obtain ⟨moves, a, hruns, hsub, ht⟩ := hr.tracks h₀
  exact ⟨moves, a, hruns, hsub, ht.shows⟩

/-- The refused claim is a step of its own, after both uploads. -/
theorem refused_claim_serialized : ∃ turns c, Runs backlogAll twoUploads turns c ∧
    c.transcriber.fault = some (.database .busy) ∧ c.db.committed.recordings.rows.length = 2 ∧
    ∃ moves a, Transactions.Runs backlogAll (.before twoUploads) moves a ∧
      (moves.map (·.what)).Sublist (turns.map fun t => t.what.who) ∧ c.Shows a := by
  have hp : (History.play (step backlogAll) twoUploads
      ([.request true] ++ List.replicate 5 claiming ++ [.request false, claiming])).map
        (fun r => (r.2.transcriber.fault, r.2.db.committed.recordings.rows.length)) =
      some (some (.database .busy), 2) := by
    decide +kernel
  obtain ⟨⟨turns, c⟩, hrun, he⟩ := Option.map_eq_some_iff.mp hp
  obtain ⟨hfault, hrows⟩ := Prod.mk.inj he
  exact ⟨turns, c, History.of_play hrun, hfault, hrows,
    transactions_serializable twoUploads_atStart (History.of_play hrun)⟩

end Connections
end Telegraph
