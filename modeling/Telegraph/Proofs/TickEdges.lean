import Mathlib.Order.GameAdd
import Telegraph.Proofs.TickShows

namespace Telegraph
open Lib Program SqliteStore

namespace Transcription
variable {supply : Supply (Except WorkerFailure TranscriptionOutput)} {pc next : Pc} {s s' : Store}
variable {events : List Event}

/-- Where a step may take a tick, whatever the database and the integration say. -/
inductive Pc.Goes : Pc → Pc → Prop where
  | begins {last : Option WorkOutcome} {t : Int} : Goes (.ready last) (.began t)
  | claims {t : Int} {id : String} : Goes (.began t) (.confirming t id)
  | looks {t : Int} : Goes (.began t) (.unclaimed t)
  | confirms {t : Int} {id : String} {recording : Recording} {seen : Nat} :
      Goes (.confirming t id) (.claimed t recording seen)
  | lists {t : Int} {rows : List TranscriptionRetryRow} : Goes (.unclaimed t) (.loading t rows [])
  | loads {t : Int} {row : TranscriptionRetryRow} {rows : List TranscriptionRetryRow}
      {candidates more : List TranscriptionRetryCandidate} :
      Goes (.loading t (row :: rows) candidates) (.loading t rows more)
  | picks {t : Int} {candidates : List TranscriptionRetryCandidate} {recording : Recording} {seen : Nat} :
      Goes (.loading t [] candidates) (.claimed t recording seen)
  | idles {t : Int} {candidates : List TranscriptionRetryCandidate} :
      Goes (.loading t [] candidates) (.ready (some .idle))
  | starts {t : Int} {recording : Recording} {seen : Nat} {a : String} {start : TranscriptionAttemptStart} :
      Goes (.claimed t recording seen) (.started recording a start)
  | loses {t : Int} {recording : Recording} {seen : Nat} :
      Goes (.claimed t recording seen) (.ready (some .idle))
  | calls {recording : Recording} {a : String} {start : TranscriptionAttemptStart} :
      Goes (.started recording a start) (.calling recording a start)
  | answers {recording : Recording} {a : String} {start : TranscriptionAttemptStart} {t : Int}
      {result : Except WorkerFailure TranscriptionOutput} :
      Goes (.calling recording a start) (.answered recording a start t result)
  | succeeds {recording : Recording} {a : String} {start : TranscriptionAttemptStart} {t : Int}
      {result : Except WorkerFailure TranscriptionOutput} {x : String} :
      Goes (.answered recording a start t result) (.confirmingTranscript x)
  | fails {recording : Recording} {a : String} {start : TranscriptionAttemptStart} {t : Int}
      {result : Except WorkerFailure TranscriptionOutput} {x : String} :
      Goes (.answered recording a start t result) (.confirmingFailure x)
  | retries {recording : Recording} {a : String} {start : TranscriptionAttemptStart} {t : Int}
      {result : Except WorkerFailure TranscriptionOutput} :
      Goes (.answered recording a start t result) (.ready (some .worked))
  | readsTranscript {x : String} : Goes (.confirmingTranscript x) (.ready (some .worked))
  | readsFailure {x : String} : Goes (.confirmingFailure x) (.ready (some .worked))

theorem action_goes (h : (action supply pc).run s = (s', .ok (next, events))) : pc.Goes next := by
  cases pc with
  | ready last =>
    cases h
    exact .begins
  | began t =>
    obtain ⟨o, k, k', hb⟩ := transact_returns h
    cases o <;> cases hb
    · exact .looks
    · exact .claims
  | confirming t x =>
    obtain ⟨o, k, k', hb⟩ := transact_returns h
    cases hb
    exact .confirms
  | unclaimed t =>
    obtain ⟨o, k, k', hb⟩ := transact_returns h
    cases hb
    exact .lists
  | loading t rows candidates =>
    cases rows with
    | nil =>
      unfold action at h
      dsimp only at h
      cases hp : pickDueRetry t candidates with
      | none =>
        rw [hp] at h
        cases h
        exact .idles
      | some c =>
        rw [hp] at h
        cases h
        exact .picks
    | cons row rows =>
      obtain ⟨o, k, k', hb⟩ := transact_returns h
      cases hb
      exact .loads
  | claimed t recording seen =>
    obtain ⟨o, k, k', hb⟩ := transact_returns h
    cases o <;> cases hb
    · exact .loses
    · exact .starts
  | started recording a start =>
    cases h
    exact .calls
  | calling recording a start =>
    cases h
    exact .answers
  | answered recording a start t result =>
    match result with
    | .ok output =>
      obtain ⟨o, k, k', hb⟩ := transact_returns h
      cases hb
      exact .succeeds
    | .error (.terminal code message) =>
      obtain ⟨o, k, k', hb⟩ := transact_returns h
      cases hb
      exact .fails
    | .error (.retryable code message) =>
      unfold action record at h
      dsimp only at h
      split at h
      · obtain ⟨o, k, k', hb⟩ := transact_returns h
        cases hb
        exact .fails
      · obtain ⟨o, k, k', hb⟩ := transact_returns h
        cases hb
        exact .retries
  | confirmingTranscript x =>
    obtain ⟨o, k, k', hb⟩ := transact_returns h
    cases hb
    exact .readsTranscript
  | confirmingFailure x =>
    obtain ⟨o, k, k', hb⟩ := transact_returns h
    cases hb
    exact .readsFailure

/-- How far a tick is from its end: the stage, and the rows left to load. -/
def Pc.rank : Pc → Nat × Nat
  | .ready _ => (9, 0)
  | .began _ => (8, 0)
  | .unclaimed _ => (7, 0)
  | .confirming _ _ => (6, 0)
  | .loading _ rows _ => (5, rows.length)
  | .claimed _ _ _ => (4, 0)
  | .started _ _ _ => (3, 0)
  | .calling _ _ _ => (2, 0)
  | .answered _ _ _ _ _ => (1, 0)
  | .confirmingTranscript _ | .confirmingFailure _ => (0, 0)

/-- The integration may still be called in this tick. -/
def Pc.early : Pc → Bool
  | .calling _ _ _ | .answered _ _ _ _ _ | .confirmingTranscript _ | .confirmingFailure _ => false
  | _ => true

/-- The next step calls the integration. -/
def Pc.callsNext : Pc → Bool
  | .started _ _ _ => true
  | _ => false

end Transcription

namespace Routing
variable {route : Recording → RoutingDecision} {supply : Supply Unit} {pc next : Pc} {s s' : Store}
variable {events : List Event}

inductive Pc.Goes : Pc → Pc → Prop where
  | begins {last : Option WorkOutcome} {now : Int} : Goes (.ready last) (.began now)
  | finds {now : Int} {x : String} : Goes (.began now) (.confirming now x)
  | idles {now : Int} : Goes (.began now) (.ready (some .idle))
  | loads {now : Int} {x : String} {recording : Recording} :
      Goes (.confirming now x) (.deciding now recording)
  | forBacklog {now : Int} {recording : Recording} {x : String} :
      Goes (.deciding now recording) (.backlogging now x)
  | forSink {now : Int} {recording : Recording} {x sink : String} :
      Goes (.deciding now recording) (.selecting now x sink)
  | backlogs {now : Int} {x : String} : Goes (.backlogging now x) (.confirmingBacklog x)
  | backlogLost {now : Int} {x : String} : Goes (.backlogging now x) (.ready (some .worked))
  | selects {now : Int} {x sink id : String} : Goes (.selecting now x sink) (.confirmingDelivery id)
  | selectLost {now : Int} {x sink : String} : Goes (.selecting now x sink) (.ready (some .worked))
  | readsBacklog {x : String} : Goes (.confirmingBacklog x) (.ready (some .worked))
  | readsDelivery {id : String} : Goes (.confirmingDelivery id) (.ready (some .worked))

theorem action_goes (h : (action route supply pc).run s = (s', .ok (next, events))) : pc.Goes next := by
  cases pc with
  | ready last =>
    cases h
    exact .begins
  | began now =>
    obtain ⟨o, k, k', hb⟩ := transact_returns h
    cases o <;> cases hb
    · exact .idles
    · exact .finds
  | confirming now x =>
    obtain ⟨o, k, k', hb⟩ := transact_returns h
    cases hb
    exact .loads
  | deciding now recording =>
    unfold action at h
    dsimp only at h
    cases hd : route recording <;> rw [hd] at h <;> cases h
    · exact .forSink
    · exact .forBacklog
  | backlogging now x =>
    rcases @backlogging_run s route supply now x with ⟨r, s₁, -, -, -, hr⟩ | ⟨r, -, -, hr⟩ | ⟨-, hr⟩
    · cases hr.symm.trans h
      exact .backlogs
    · cases hr.symm.trans h
      exact .backlogLost
    · cases hr.symm.trans h
  | selecting now x sink =>
    obtain ⟨o, k, k', hb⟩ := transact_returns h
    cases o <;> cases hb
    · exact .selectLost
    · exact .selects
  | confirmingBacklog x =>
    obtain ⟨o, k, k', hb⟩ := transact_returns h
    cases hb
    exact .readsBacklog
  | confirmingDelivery id =>
    obtain ⟨o, k, k', hb⟩ := transact_returns h
    cases hb
    exact .readsDelivery

def Pc.rank : Pc → Nat × Nat
  | .ready _ => (5, 0)
  | .began _ => (4, 0)
  | .confirming _ _ => (3, 0)
  | .deciding _ _ => (2, 0)
  | .backlogging _ _ | .selecting _ _ _ => (1, 0)
  | .confirmingBacklog _ | .confirmingDelivery _ => (0, 0)

end Routing

namespace Delivering
variable {supply : Supply (Except WorkerFailure Unit)} {pc next : Pc} {s s' : Store} {events : List Event}

inductive Pc.Goes : Pc → Pc → Prop where
  | begins {last : Option WorkOutcome} {t : Int} : Goes (.ready last) (.began t)
  | lists {t : Int} {rows : List DeliveryCandidateRow} : Goes (.began t) (.loading t rows [])
  | loads {t : Int} {row : DeliveryCandidateRow} {rows : List DeliveryCandidateRow}
      {candidates : List DeliveryCandidate} {delivery : Delivery} :
      Goes (.loading t (row :: rows) candidates) (.loadingRecording t row rows candidates delivery)
  | loadsRecording {t : Int} {row : DeliveryCandidateRow} {rows : List DeliveryCandidateRow}
      {candidates : List DeliveryCandidate} {delivery : Delivery} {recording : Recording} :
      Goes (.loadingRecording t row rows candidates delivery)
        (.loadingTranscript t row rows candidates delivery recording)
  | loadsTranscript {t : Int} {row : DeliveryCandidateRow} {rows : List DeliveryCandidateRow}
      {candidates more : List DeliveryCandidate} {delivery : Delivery} {recording : Recording} :
      Goes (.loadingTranscript t row rows candidates delivery recording) (.loading t rows more)
  | picks {t : Int} {candidates : List DeliveryCandidate} {candidate : DeliveryCandidate} :
      Goes (.loading t [] candidates) (.claimed t candidate)
  | idles {t : Int} {candidates : List DeliveryCandidate} :
      Goes (.loading t [] candidates) (.ready (some .idle))
  | starts {t : Int} {candidate : DeliveryCandidate} {a : String} :
      Goes (.claimed t candidate) (.started candidate a)
  | loses {t : Int} {candidate : DeliveryCandidate} : Goes (.claimed t candidate) (.ready (some .idle))
  | calls {candidate : DeliveryCandidate} {a : String} : Goes (.started candidate a) (.calling candidate a)
  | answers {candidate : DeliveryCandidate} {a : String} {t : Int} {result : Except WorkerFailure Unit} :
      Goes (.calling candidate a) (.answered candidate a t result)
  | records {candidate : DeliveryCandidate} {a : String} {t : Int} {result : Except WorkerFailure Unit}
      {x : String} : Goes (.answered candidate a t result) (.confirming x)
  | retries {candidate : DeliveryCandidate} {a : String} {t : Int} {result : Except WorkerFailure Unit} :
      Goes (.answered candidate a t result) (.ready (some .worked))
  | reads {x : String} : Goes (.confirming x) (.ready (some .worked))

theorem action_goes (h : (action supply pc).run s = (s', .ok (next, events))) : pc.Goes next := by
  cases pc with
  | ready last =>
    cases h
    exact .begins
  | began t =>
    obtain ⟨o, k, k', hb⟩ := transact_returns h
    cases hb
    exact .lists
  | loading t rows candidates =>
    cases rows with
    | nil =>
      unfold action at h
      dsimp only at h
      cases hp : pickDueDelivery t candidates with
      | none =>
        rw [hp] at h
        cases h
        exact .idles
      | some c =>
        rw [hp] at h
        cases h
        exact .picks
    | cons row rows =>
      obtain ⟨o, k, k', hb⟩ := transact_returns h
      cases hb
      exact .loads
  | loadingRecording t row rows candidates delivery =>
    obtain ⟨o, k, k', hb⟩ := transact_returns h
    cases hb
    exact .loadsRecording
  | loadingTranscript t row rows candidates delivery recording =>
    obtain ⟨o, k, k', hb⟩ := transact_returns h
    cases hb
    exact .loadsTranscript
  | claimed t candidate =>
    obtain ⟨o, k, k', hb⟩ := transact_returns h
    cases o <;> cases hb
    · exact .loses
    · exact .starts
  | started candidate a =>
    cases h
    exact .calls
  | calling candidate a =>
    cases h
    exact .answers
  | answered candidate a t result =>
    match result with
    | .ok () =>
      obtain ⟨o, k, k', hb⟩ := transact_returns h
      cases hb
      exact .records
    | .error (.terminal code message) =>
      obtain ⟨o, k, k', hb⟩ := transact_returns h
      cases hb
      exact .records
    | .error (.retryable code message) =>
      unfold action record at h
      dsimp only at h
      split at h
      · obtain ⟨o, k, k', hb⟩ := transact_returns h
        cases hb
        exact .records
      · obtain ⟨o, k, k', hb⟩ := transact_returns h
        cases hb
        exact .retries
  | confirming x =>
    obtain ⟨o, k, k', hb⟩ := transact_returns h
    cases hb
    exact .reads

def Pc.rank : Pc → Nat × Nat
  | .ready _ => (7, 0)
  | .began _ => (6, 0)
  | .loading _ rows _ => (5, 3 * rows.length)
  | .loadingRecording _ _ rows _ _ => (5, 3 * rows.length + 2)
  | .loadingTranscript _ _ rows _ _ _ => (5, 3 * rows.length + 1)
  | .claimed _ _ => (4, 0)
  | .started _ _ => (3, 0)
  | .calling _ _ => (2, 0)
  | .answered _ _ _ _ => (1, 0)
  | .confirming _ => (0, 0)

def Pc.early : Pc → Bool
  | .calling _ _ | .answered _ _ _ _ | .confirming _ => false
  | _ => true

def Pc.callsNext : Pc → Bool
  | .started _ _ => true
  | _ => false

end Delivering

/-- Fewer stages to go, or as many and fewer rows. -/
abbrev Nearer : Nat × Nat → Nat × Nat → Prop := Prod.Lex (· < ·) (· < ·)

theorem nearer_wf : WellFounded Nearer := WellFounded.prod_lex Nat.lt_wfRel.wf Nat.lt_wfRel.wf

section Edges

/-- A step brings a tick nearer to its end, unless it ends it. -/
theorem Transcription.Pc.Goes.nearer {pc next : Pc} (h : pc.Goes next) :
    Nearer next.rank pc.rank ∨ ∃ o, next = .ready (some o) := by
  cases h with
  | idles | loses | retries | readsTranscript | readsFailure => exact .inr ⟨_, rfl⟩
  | loads => exact .inl (.right _ (by simp))
  | _ => exact .inl (.left _ _ (by decide))

theorem Routing.Pc.Goes.nearer {pc next : Pc} (h : pc.Goes next) :
    Nearer next.rank pc.rank ∨ ∃ o, next = .ready (some o) := by
  cases h with
  | idles | backlogLost | selectLost | readsBacklog | readsDelivery => exact .inr ⟨_, rfl⟩
  | _ => exact .inl (.left _ _ (by decide))

theorem Delivering.Pc.Goes.nearer {pc next : Pc} (h : pc.Goes next) :
    Nearer next.rank pc.rank ∨ ∃ o, next = .ready (some o) := by
  cases h with
  | idles | loses | retries | reads => exact .inr ⟨_, rfl⟩
  | loads => exact .inl (.right _ (by simp; omega))
  | loadsRecording => exact .inl (.right _ (by simp))
  | loadsTranscript => exact .inl (.right _ (by simp))
  | _ => exact .inl (.left _ _ (by decide))

/-- What is called is called once, and not again in its tick. -/
theorem Transcription.Pc.Goes.late {pc next : Pc} (h : pc.Goes next) :
    (∃ o, next = .ready (some o)) ∨ next.early.toNat + pc.callsNext.toNat ≤ pc.early.toNat := by
  cases h <;> first | exact .inl ⟨_, rfl⟩ | exact .inr (by simp [Pc.early, Pc.callsNext])

theorem Delivering.Pc.Goes.late {pc next : Pc} (h : pc.Goes next) :
    (∃ o, next = .ready (some o)) ∨ next.early.toNat + pc.callsNext.toNat ≤ pc.early.toNat := by
  cases h <;> first | exact .inl ⟨_, rfl⟩ | exact .inr (by simp [Pc.early, Pc.callsNext])

end Edges
end Telegraph
