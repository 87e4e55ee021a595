import Telegraph.Proofs.RetryPacing

namespace Telegraph
open Lib Program Lib.Retry SqliteStore Function

/-- The attempts a run has started for a piece of work, in order. -/
def startsOf (item : Item) (trace : List Event) : List (String × Int) :=
  trace.filterMap fun e => match e with
    | .started i a t => if i = item then some (a, t) else none
    | _ => none

/-- The attempt was committed, once, and its integration was not called for it. -/
def Fresh (trace : List Event) (item : Item) (attemptId : String) : Prop :=
  ((startsOf item trace).map (·.1)).count attemptId = 1 ∧ .called item attemptId ∉ trace

/-- Each call follows the commit of its own fresh attempt. -/
def CallsOwnAttempt (trace : List Event) : Prop :=
  ∀ before after item a, trace = before ++ .called item a :: after → Fresh before item a

section Traces
variable {trace events : List Event} {item : Item} {a : String}

theorem startsOf_append : startsOf item (trace ++ events) = startsOf item trace ++ startsOf item events :=
  List.filterMap_append

/-- What neither starts an attempt nor calls for one leaves a fresh attempt fresh. -/
theorem Fresh.append (h : Fresh trace item a) (hs : startsOf item events = [])
    (hc : .called item a ∉ events) : Fresh (trace ++ events) item a := by
  constructor
  · rw [startsOf_append, hs, List.append_nil]
    exact h.1
  · intro hm
    exact (List.mem_append.mp hm).elim h.2 hc

theorem CallsOwnAttempt.append (h : CallsOwnAttempt trace)
    (hc : ∀ before after item a, events = before ++ .called item a :: after →
      Fresh (trace ++ before) item a) : CallsOwnAttempt (trace ++ events) := by
  intro before after item a he
  rcases List.append_eq_append_iff.mp he with ⟨mid, hb, he⟩ | ⟨mid, ht, he⟩
  · rw [hb]
    exact hc mid after item a he
  · cases mid with
    | nil =>
      rw [List.append_nil] at ht
      rw [← ht, ← List.append_nil trace]
      exact hc [] after item a he.symm
    | cons e mid =>
      obtain ⟨rfl, _⟩ := List.cons.inj he
      exact h before mid item a ht

theorem CallsOwnAttempt.append_uncalled (h : CallsOwnAttempt trace)
    (hc : ∀ item a, .called item a ∉ events) : CallsOwnAttempt (trace ++ events) := by
  apply h.append
  rintro before after item a rfl
  exact absurd (by simp) (hc item a)

theorem CallsOwnAttempt.append_called (h : CallsOwnAttempt trace) (hf : Fresh trace item a) :
    CallsOwnAttempt (trace ++ [.called item a]) := by
  apply h.append
  intro before after i k he
  cases before with
  | nil =>
    cases he
    rwa [List.append_nil]
  | cons e before => simp at he

end Traces

theorem transact_ok {κ : Type} {tx : Query (κ × List Event)} {s s' : Store} {r : κ × List Event}
    (h : (transact tx).run s = (s', .ok r)) : tx.run s = (s', .ok r) := by
  unfold transact Action.run at h
  dsimp only at h
  cases hr : tx.run s with
  | mk u o =>
    rw [hr] at h
    cases o with
    | ok a => exact h
    | error e => cases h

/-- A tick's transaction that went through returned what its last part returns. -/
theorem transact_returns {κ β : Type} {p : Query β} {f : β → Query (κ × List Event)} {s s' : Store}
    {r : κ × List Event} (h : (transact (p.bind f)).run s = (s', .ok r)) :
    ∃ b k k', (f b).exec k = (.ok r, k') :=
  run_bind_ok (transact_ok h)

namespace Transcription

/-- A step of a tick, as far as attempts and calls go. -/
inductive Pc.Shows (s s' : Store) : Pc → Pc → List Event → Prop where
  | quiet {pc next : Pc} {events : List Event} :
      (∀ e ∈ events, ∃ x a t how, e = .finished (.transcription x) a t how) →
      (∀ recording a start, next ≠ .started recording a start) → Shows s s' pc next events
  | starts {pc : Pc} (recording : Recording) (a : String) (start : TranscriptionAttemptStart)
      (n : Nat) (t : Int) : (∀ y, ∀ b ∈ s.transcriptionAttempts.attemptsOf y, b.id ≠ a) →
      s'.view = s.view.withTranscriptionAttempt (AttemptTable.started a recording.id n t) →
      Shows s s' pc (.started recording a start) [.started (.transcription recording.id) a t]
  | calls (recording : Recording) (a : String) (start : TranscriptionAttemptStart) :
      Shows s s' (.started recording a start) (.calling recording a start)
        [.called (.transcription recording.id) a]
  | answers {pc next : Pc} (item : Item) (a : String) (ok : Bool) :
      (∀ recording a start, next ≠ .started recording a start) →
      Shows s s' pc next [.answered item a ok]

theorem action_shows {supply : Supply (Except WorkerFailure TranscriptionOutput)} {pc next : Pc}
    {s s' : Store} {events : List Event}
    (h : (action supply pc).run s = (s', .ok (next, events))) : pc.Shows s s' next events := by
  cases pc with
  | ready last =>
    cases h
    exact .quiet (by simp) (by simp)
  | began t =>
    obtain ⟨o, k, k', hb⟩ := transact_returns h
    cases o <;> cases hb <;> exact .quiet (by simp) (by simp)
  | confirming t x =>
    obtain ⟨o, k, k', hb⟩ := transact_returns h
    cases hb
    exact .quiet (by simp) (by simp)
  | unclaimed t =>
    obtain ⟨o, k, k', hb⟩ := transact_returns h
    cases hb
    exact .quiet (by simp) (by simp)
  | loading t rows candidates =>
    cases rows with
    | nil =>
      unfold action at h
      dsimp only at h
      cases hp : pickDueRetry t candidates with
      | none =>
        rw [hp] at h
        cases h
        exact .quiet (by simp) (by simp)
      | some c =>
        rw [hp] at h
        cases h
        exact .quiet (by simp) (by simp)
    | cons row rows =>
      obtain ⟨o, k, k', hb⟩ := transact_returns h
      cases hb
      exact .quiet (by simp) (by simp)
  | claimed t recording seen =>
    rcases Service.started_transacts.run_ok (transact_ok h) with
      ⟨he, _, _⟩ | ⟨q, n, first, he, _, _, _, hfresh, hv, _⟩
    · cases he
      exact .quiet (by simp) (by simp)
    · cases he
      exact .starts recording supply.id ⟨n, first⟩ n t hfresh hv
  | started recording a start =>
    cases h
    exact .calls recording a start
  | calling recording a start =>
    cases h
    exact .answers _ a _ (by simp)
  | answered recording a start t result =>
    cases result with
    | ok output =>
      obtain ⟨o, k, k', hb⟩ := transact_returns h
      cases hb
      exact .quiet (by simp) (by simp)
    | error failure =>
      cases failure with
      | terminal code message =>
        obtain ⟨o, k, k', hb⟩ := transact_returns h
        cases hb
        exact .quiet (by simp) (by simp)
      | retryable code message =>
        unfold action record at h
        dsimp only at h
        split at h
        all_goals
          obtain ⟨o, k, k', hb⟩ := transact_returns h
          cases hb
          exact .quiet (by simp) (by simp)
  | confirmingTranscript x =>
    obtain ⟨o, k, k', hb⟩ := transact_returns h
    cases hb
    exact .quiet (by simp) (by simp)
  | confirmingFailure x =>
    obtain ⟨o, k, k', hb⟩ := transact_returns h
    cases hb
    exact .quiet (by simp) (by simp)

end Transcription

theorem Routing.action_silent {route : Recording → RoutingDecision} {supply : Supply Unit}
    {pc next : Pc} {s s' : Store} {events : List Event}
    (h : (action route supply pc).run s = (s', .ok (next, events))) : events = [] := by
  cases pc with
  | ready last =>
    cases h
    rfl
  | began now =>
    obtain ⟨o, k, k', hb⟩ := transact_returns h
    cases o <;> cases hb <;> rfl
  | deciding now recording =>
    unfold action at h
    dsimp only at h
    cases hd : route recording <;> rw [hd] at h <;> cases h <;> rfl
  | backlogging now x =>
    unfold action Action.run at h
    dsimp only at h
    split at h
    · rename_i hr
      cases h
      obtain ⟨o, k, k', hb⟩ := run_bind_ok hr
      cases hb
      rfl
    · split at h <;> cases h
      rfl
  | selecting now x name =>
    obtain ⟨o, k, k', hb⟩ := transact_returns h
    cases o <;> cases hb <;> rfl
  | confirming now x | confirmingBacklog x | confirmingDelivery x =>
    obtain ⟨o, k, k', hb⟩ := transact_returns h
    cases hb
    rfl

namespace Delivering

/-- A step of a tick, as far as attempts, calls and successes go. -/
inductive Pc.Shows (s s' : Store) : Pc → Pc → List Event → Prop where
  | quiet {pc next : Pc} {events : List Event} :
      (∀ e ∈ events, ∃ x a t how, e = .finished (.delivery x) a t how ∧ (how = .succeeded →
        ∃ candidate, pc = .answered candidate a t (.ok ()) ∧ candidate.delivery.id = x)) →
      (∀ candidate a, next ≠ .started candidate a) →
      (∀ candidate a t result, next ≠ .answered candidate a t result) → Shows s s' pc next events
  | starts {pc : Pc} (candidate : DeliveryCandidate) (a : String) (n : Nat) (t : Int) :
      (∀ y, ∀ b ∈ s.deliveryAttempts.attemptsOf y, b.id ≠ a) →
      s'.view = s.view.withDeliveryAttempt (AttemptTable.started a candidate.delivery.id n t) →
      Shows s s' pc (.started candidate a) [.started (.delivery candidate.delivery.id) a t]
  | calls (candidate : DeliveryCandidate) (a : String) :
      Shows s s' (.started candidate a) (.calling candidate a)
        [.called (.delivery candidate.delivery.id) a]
  | answers (candidate : DeliveryCandidate) (a : String) (t : Int) (result : Except WorkerFailure Unit) :
      Shows s s' (.calling candidate a) (.answered candidate a t result)
        [.answered (.delivery candidate.delivery.id) a result.isOk]

theorem action_shows {supply : Supply (Except WorkerFailure Unit)} {pc next : Pc} {s s' : Store}
    {events : List Event} (h : (action supply pc).run s = (s', .ok (next, events))) :
    pc.Shows s s' next events := by
  cases pc with
  | ready last =>
    cases h
    exact .quiet (by simp) (by simp) (by simp)
  | began t =>
    obtain ⟨o, k, k', hb⟩ := transact_returns h
    cases hb
    exact .quiet (by simp) (by simp) (by simp)
  | loading t rows candidates =>
    cases rows with
    | nil =>
      unfold action at h
      dsimp only at h
      cases hp : pickDueDelivery t candidates with
      | none =>
        rw [hp] at h
        cases h
        exact .quiet (by simp) (by simp) (by simp)
      | some c =>
        rw [hp] at h
        cases h
        exact .quiet (by simp) (by simp) (by simp)
    | cons row rows =>
      obtain ⟨o, k, k', hb⟩ := transact_returns h
      cases hb
      exact .quiet (by simp) (by simp) (by simp)
  | loadingRecording t row rows candidates delivery =>
    obtain ⟨o, k, k', hb⟩ := transact_returns h
    cases hb
    exact .quiet (by simp) (by simp) (by simp)
  | loadingTranscript t row rows candidates delivery recording =>
    obtain ⟨o, k, k', hb⟩ := transact_returns h
    cases hb
    exact .quiet (by simp) (by simp) (by simp)
  | claimed t candidate =>
    rcases Service.delivery_started_transacts.run_ok (transact_ok h) with
      ⟨he, _, _⟩ | ⟨he, _, hfresh, hv⟩
    · cases he
      exact .quiet (by simp) (by simp) (by simp)
    · cases he
      exact .starts candidate supply.id _ t hfresh hv
  | started candidate a =>
    cases h
    exact .calls candidate a
  | calling candidate a =>
    cases h
    exact .answers candidate a _ _
  | answered candidate a t result =>
    cases result with
    | ok output =>
      obtain ⟨o, k, k', hb⟩ := transact_returns h
      cases hb
      exact .quiet (by simp) (by simp) (by simp)
    | error failure =>
      cases failure with
      | terminal code message =>
        obtain ⟨o, k, k', hb⟩ := transact_returns h
        cases hb
        exact .quiet (by simp) (by simp) (by simp)
      | retryable code message =>
        unfold action record at h
        dsimp only at h
        split at h
        all_goals
          obtain ⟨o, k, k', hb⟩ := transact_returns h
          cases hb
          exact .quiet (by simp) (by simp) (by simp)
  | confirming x =>
    obtain ⟨o, k, k', hb⟩ := transact_returns h
    cases hb
    exact .quiet (by simp) (by simp) (by simp)

end Delivering

end Telegraph
