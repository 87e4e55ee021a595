import Mathlib.Algebra.BigOperators.Group.Finset.Basic
import Mathlib.Algebra.BigOperators.Intervals
import Mathlib.Algebra.Order.BigOperators.Group.Finset
import Mathlib.Order.Monotone.Basic

/-! Work that is tried again after a backoff until a deadline, and that an
operator may reopen once it has failed. -/

namespace Telegraph.Lib.Retry

inductive Ending where
  | succeeded
  | retryable
  | terminal
deriving DecidableEq, Repr

/-- How a try came to its end. A restart abandons a try: it counts as a retryable
failure, but no worker decided it. -/
inductive Finish where
  | succeeded
  | retryable
  | terminal
  | abandoned
deriving DecidableEq, Repr

def Finish.ending : Finish → Ending
  | succeeded => .succeeded
  | retryable => .retryable
  | terminal => .terminal
  | abandoned => .retryable

structure Try where
  startedAt : Int
  finish : Option (Int × Ending)
deriving DecidableEq, Repr

inductive Phase where
  | waiting
  | active
  | failed
  | done
deriving DecidableEq, Repr

def Phase.after : Finish → Phase
  | .succeeded => done
  | .retryable => active
  | .terminal => failed
  | .abandoned => active

/-- One piece of work: its tries, the time it was opened when that came before
the first try, and the time it was last reopened. -/
structure Track where
  tries : List Try
  phase : Phase
  since : Option Int
  window : Option Int

inductive Move where
  | started (t : Int)
  | finished (t : Int) (how : Finish)
  | reopened (t : Int)
deriving DecidableEq, Repr

/-- `backoff n` is the wait after try `n`; `limit` is the longest a retry window lasts. -/
structure Policy where
  backoff : Nat → Int
  limit : Int

namespace Track

def initial : Track := ⟨[], .waiting, none, none⟩

/-- Where the current window is measured from. -/
def anchor (tr : Track) : Option Int :=
  tr.window.or (tr.since.or (tr.tries.head?.map (·.startedAt)))

/-- The next try may start at `t`: nothing was tried yet, the work was reopened
after the last try ended, or the backoff has passed. -/
def Due (p : Policy) (tr : Track) (t : Int) : Prop :=
  ∀ a f e, tr.tries.getLast? = some a → a.finish = some (f, e) →
    (∃ w, tr.window = some w ∧ f < w) ∨ f + p.backoff tr.tries.length ≤ t

def Closed (tr : Track) : Prop := ∀ a ∈ tr.tries, a.finish ≠ none

/-- What may happen to a piece of work. Entering and leaving the active phase
before any try leaves no trace. -/
inductive Step (p : Policy) (tr : Track) : List Move → Track → Prop where
  | still : Step p tr [] tr
  | enter (since : Option Int) : tr.phase = .waiting →
      Step p tr [] ⟨tr.tries, .active, since, tr.window⟩
  | revert : tr.phase = .active → tr.tries = [] →
      Step p tr [] ⟨tr.tries, .waiting, tr.since, tr.window⟩
  | start (t : Int) : tr.phase = .active → tr.Closed → tr.Due p t →
      Step p tr [.started t] ⟨tr.tries ++ [⟨t, none⟩], .active, tr.since, tr.window⟩
  | finish (before : List Try) (s t : Int) (how : Finish) : tr.tries = before ++ [⟨s, none⟩] →
      s ≤ t → (∀ w, tr.window = some w → w ≤ t) → (∀ o, tr.anchor = some o → o ≤ t) →
      (how = .retryable → ∀ o, tr.anchor = some o → t < o + p.limit) →
      Step p tr [.finished t how]
        ⟨before ++ [⟨s, some (t, how.ending)⟩], Phase.after how, tr.since, tr.window⟩
  | reopen (m : Int) : tr.phase = .failed →
      Step p tr [.reopened m] ⟨tr.tries, .active, tr.since, some m⟩

end Track

/-- The history of a piece of work, oldest move first, and where it leads. -/
inductive Runs (p : Policy) : List Move → Track → Prop where
  | start : Runs p [] Track.initial
  | step {history moves : List Move} {tr tr' : Track} : Runs p history tr →
      tr.Step p moves tr' → Runs p (history ++ moves) tr'

/-- The shape every history leads to. -/
structure Track.WellFormed (tr : Track) : Prop where
  unopened : tr.phase = .waiting → tr.tries = [] ∧ tr.window = none
  earlier : ∀ {before a}, tr.tries = before ++ [a] →
    ∀ b ∈ before, ∃ f e, b.finish = some (f, e) ∧ e ≠ .succeeded
  inFlight : ∀ a ∈ tr.tries, a.finish = none → tr.phase = .active
  succeeded : ∀ a ∈ tr.tries, ∀ f, a.finish = some (f, .succeeded) → tr.phase = .done
  done : tr.phase = .done → ∃ before s f, tr.tries = before ++ [⟨s, some (f, .succeeded)⟩]
  failed : tr.phase = .failed → ∃ before s f, tr.tries = before ++ [⟨s, some (f, .terminal)⟩]
  reopened : tr.window ≠ none → tr.tries ≠ []
  ordered : ∀ a ∈ tr.tries, ∀ f e, a.finish = some (f, e) → a.startedAt ≤ f

namespace Track.WellFormed
variable {p : Policy} {tr tr' : Track} {moves : List Move}

theorem initial : Track.initial.WellFormed where
  unopened _ := ⟨rfl, rfl⟩
  earlier h := by simp [Track.initial] at h
  inFlight a h := by simp [Track.initial] at h
  succeeded a h := by simp [Track.initial] at h
  done h := by cases h
  failed h := by cases h
  reopened h := absurd rfl h
  ordered a h := by simp [Track.initial] at h

theorem start (h : tr.WellFormed) (t : Int) (ha : tr.phase = .active) (hc : tr.Closed) :
    Track.WellFormed ⟨tr.tries ++ [⟨t, none⟩], .active, tr.since, tr.window⟩ where
  unopened hp := by cases hp
  earlier hs b hb := by
    obtain ⟨rfl, -⟩ := List.append_inj' hs rfl
    cases hf : b.finish with
    | none => exact absurd hf (hc b hb)
    | some q =>
      refine ⟨q.1, q.2, rfl, fun hq => ?_⟩
      have := h.succeeded b hb q.1 (by rw [hf, ← hq])
      rw [ha] at this
      cases this
  inFlight _ _ _ := rfl
  succeeded a hm f hf := by
    rcases List.mem_append.mp hm with hm | hm
    · rw [h.succeeded a hm f hf] at ha
      cases ha
    · rw [List.mem_singleton.mp hm] at hf
      cases hf
  done hp := by cases hp
  failed hp := by cases hp
  reopened _ := by simp
  ordered a hm f e hf := by
    rcases List.mem_append.mp hm with hm | hm
    · exact h.ordered a hm f e hf
    · rw [List.mem_singleton.mp hm] at hf
      cases hf

theorem finish (h : tr.WellFormed) {before : List Try} {s t : Int} (how : Finish)
    (hs : tr.tries = before ++ [⟨s, none⟩]) (hle : s ≤ t) :
    Track.WellFormed
      ⟨before ++ [⟨s, some (t, how.ending)⟩], Phase.after how, tr.since, tr.window⟩ where
  unopened hp := by cases how <;> cases hp
  earlier hb b hm := by
    obtain ⟨rfl, -⟩ := List.append_inj' hb rfl
    exact h.earlier hs b hm
  inFlight a hm hf := by
    rcases List.mem_append.mp hm with hm | hm
    · obtain ⟨f, e, he, _⟩ := h.earlier hs a hm
      rw [hf] at he
      cases he
    · rw [List.mem_singleton.mp hm] at hf
      cases hf
  succeeded a hm f hf := by
    rcases List.mem_append.mp hm with hm | hm
    · obtain ⟨f', e, he, hne⟩ := h.earlier hs a hm
      rw [hf] at he
      cases he
      exact absurd rfl hne
    · rw [List.mem_singleton.mp hm] at hf
      cases how <;> cases hf
      rfl
  done hp := by
    cases how <;> cases hp
    exact ⟨before, s, t, rfl⟩
  failed hp := by
    cases how <;> cases hp
    exact ⟨before, s, t, rfl⟩
  reopened _ := by simp
  ordered a hm f e hf := by
    rcases List.mem_append.mp hm with hm | hm
    · exact h.ordered a (by rw [hs]; exact List.mem_append_left _ hm) f e hf
    · rw [List.mem_singleton.mp hm] at hf ⊢
      cases hf
      exact hle

/-- A change of phase alone, out of a phase with nothing in flight. -/
theorem enter (h : tr.WellFormed) (since : Option Int) (hp : tr.phase = .waiting) :
    Track.WellFormed ⟨tr.tries, .active, since, tr.window⟩ where
  unopened hq := by cases hq
  earlier := h.earlier
  inFlight _ _ _ := rfl
  succeeded a hm := by
    rw [(h.unopened hp).1] at hm
    cases hm
  done hq := by cases hq
  failed hq := by cases hq
  reopened := h.reopened
  ordered := h.ordered

theorem revert (h : tr.WellFormed) (hp : tr.tries = []) :
    Track.WellFormed ⟨tr.tries, .waiting, tr.since, tr.window⟩ where
  unopened _ := ⟨hp, Classical.byContradiction fun hw => h.reopened hw hp⟩
  earlier := h.earlier
  inFlight a hm := by
    change a ∈ tr.tries at hm
    rw [hp] at hm
    cases hm
  succeeded a hm := by
    change a ∈ tr.tries at hm
    rw [hp] at hm
    cases hm
  done hq := by cases hq
  failed hq := by cases hq
  reopened := h.reopened
  ordered := h.ordered

theorem reopen (h : tr.WellFormed) (m : Int) (hp : tr.phase = .failed) :
    Track.WellFormed ⟨tr.tries, .active, tr.since, some m⟩ where
  unopened hq := by cases hq
  earlier := h.earlier
  inFlight _ _ _ := rfl
  succeeded a hm f hf := by
    rw [h.succeeded a hm f hf] at hp
    cases hp
  done hq := by cases hq
  failed hq := by cases hq
  reopened _ := by
    obtain ⟨before, s, f, hs⟩ := h.failed hp
    change tr.tries ≠ []
    rw [hs]
    simp
  ordered := h.ordered

theorem step (h : tr.WellFormed) (hs : tr.Step p moves tr') : tr'.WellFormed := by
  cases hs with
  | still => exact h
  | enter since hp => exact h.enter since hp
  | revert _ ht => exact h.revert ht
  | start t ha hc _ => exact h.start t ha hc
  | finish before s t how hs hle _ _ _ => exact h.finish how hs hle
  | reopen m hp => exact h.reopen m hp

end Track.WellFormed

theorem Runs.wellFormed {p : Policy} {history : List Move} {tr : Track} (h : Runs p history tr) :
    tr.WellFormed := by
  induction h with
  | start => exact Track.WellFormed.initial
  | step _ hs ih => exact ih.step hs

end Telegraph.Lib.Retry
