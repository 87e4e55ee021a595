import Mathlib.Logic.Function.Basic
import Telegraph.Lib.Task

namespace Telegraph.Lib
open Function

/-- How the shared state answers a call, and what a call that breaks off leaves
behind, told how far it got. -/
structure Machine (κ : Type) (ans : κ → Type) (ε σ : Type) where
  answer : (c : κ) → σ → σ × Except ε (ans c)
  breaks : κ → Nat → σ → Option (σ × ε)

/-- A task with the state to itself, none of its calls broken off. -/
def Machine.run {κ : Type} {ans : κ → Type} {ε σ α : Type} (m : Machine κ ans ε σ) :
    Task κ ans ε α → σ → σ × Except ε α
  | .done a, s => (s, .ok a)
  | .fail e, s => (s, .error e)
  | .call c next, s => m.run (next (m.answer c s).2) (m.answer c s).1

namespace Machine
variable {κ : Type} {ans : κ → Type} {ε σ α β : Type} (m : Machine κ ans ε σ)

theorem run_bind (t : Task κ ans ε α) (f : α → Task κ ans ε β) (s : σ) :
    m.run (t.bind f) s = match m.run t s with
      | (s', .ok a) => m.run (f a) s'
      | (s', .error e) => (s', .error e) := by
  induction t generalizing s with
  | done a => rfl
  | fail e => rfl
  | call c next ih => exact ih _ _

variable {m} {t : Task κ ans ε α} {f : α → Task κ ans ε β} {s : σ}

theorem run_bind_ok {a : α} {s' : σ} (h : m.run t s = (s', .ok a)) :
    m.run (t.bind f) s = m.run (f a) s' := by
  rw [run_bind, h]

theorem run_bind_error {e : ε} (h : (m.run t s).2 = .error e) :
    (m.run (t.bind f) s).2 = .error e := by
  rw [run_bind]
  cases hr : m.run t s with
  | mk s' r =>
    rw [hr] at h
    cases r with
    | ok a => cases h
    | error e' =>
      cases h
      rfl

@[simp] theorem run_lift (r : Except ε α) : m.run (Task.lift r) s = (s, r) := by
  cases r <;> rfl

@[simp] theorem run_perform (c : κ) : m.run (Task.perform c) s = m.answer c s :=
  run_lift _

/-- What each call of a task keeps, the task keeps. -/
theorem run_only {p : κ → Prop} {I : σ → Prop} (hs : ∀ c s, p c → I s → I (m.answer c s).1)
    (h : t.Only p) (hi : I s) : I (m.run t s).1 := by
  induction t generalizing s with
  | done a => exact hi
  | fail e => exact hi
  | call c next ih => exact ih _ (h.2 _) (hs c s h.1 hi)

end Machine

/-- Tasks that take turns on one shared state. -/
structure Team (ι κ : Type) (ans : κ → Type) (ε σ α : Type) where
  tasks : ι → Task κ ans ε α
  shared : σ

/-- Who moved, from which state, and how far the call got if it broke. -/
structure Move (ι κ : Type) (ans : κ → Type) (ε σ α : Type) where
  before : Team ι κ ans ε σ α
  mover : ι
  fault : Option Nat

namespace Team
variable {ι κ : Type} {ans : κ → Type} {ε σ α : Type}

/-- A task is over when it has no call left to make. -/
def Ended (t : Team ι κ ans ε σ α) (i : ι) : Prop :=
  (∃ a, t.tasks i = .done a) ∨ ∃ e, t.tasks i = .fail e

section Steps
variable [DecidableEq ι] (m : Machine κ ans ε σ)

/-- The next call of one task, answered or broken off. -/
def step (t : Team ι κ ans ε σ α) (i : ι) (fault : Option Nat) : Option (Team ι κ ans ε σ α) :=
  match t.tasks i with
  | .done _ => none
  | .fail _ => none
  | .call c next => match fault with
    | none =>
      some ⟨update t.tasks i (next (m.answer c t.shared).2), (m.answer c t.shared).1⟩
    | some k => (m.breaks c k t.shared).map fun r => ⟨update t.tasks i (next (.error r.2)), r.1⟩

/-- The runs from `t₀`, with their moves. -/
inductive Runs (t₀ : Team ι κ ans ε σ α) :
    List (Move ι κ ans ε σ α) → Team ι κ ans ε σ α → Prop where
  | start : Runs t₀ [] t₀
  | step {moves : List (Move ι κ ans ε σ α)} {t t' : Team ι κ ans ε σ α} (i : ι) (fault : Option Nat) :
      Runs t₀ moves t → t.step m i fault = some t' → Runs t₀ (moves ++ [⟨t, i, fault⟩]) t'

/-- A run given by who moves and what breaks. -/
def play (t : Team ι κ ans ε σ α) : List (ι × Option Nat) → Option (Team ι κ ans ε σ α)
  | [] => some t
  | (i, fault) :: rest => (t.step m i fault).bind fun t' => t'.play rest

variable {m}

theorem Runs.play {t₀ t t' : Team ι κ ans ε σ α} {moves : List (Move ι κ ans ε σ α)}
    {turns : List (ι × Option Nat)} (hr : Runs m t₀ moves t) (hp : t.play m turns = some t') :
    ∃ later, Runs m t₀ (moves ++ later) t' ∧ later.map (fun e => (e.mover, e.fault)) = turns := by
  induction turns generalizing t moves with
  | nil =>
    cases hp
    exact ⟨[], by rwa [List.append_nil], rfl⟩
  | cons first rest ih =>
    obtain ⟨t₁, hs, hrest⟩ := Option.bind_eq_some_iff.mp hp
    obtain ⟨later, hl, he⟩ := ih (.step first.1 first.2 hr hs) hrest
    exact ⟨⟨t, first.1, first.2⟩ :: later, by simpa using hl, by simp [he]⟩

/-- What a step does: the call is answered, or it breaks off. -/
theorem step_cases {t t' : Team ι κ ans ε σ α} {i : ι} {fault : Option Nat}
    (h : t.step m i fault = some t') : ∃ c next, t.tasks i = .call c next ∧
      ((fault = none ∧
          t' = ⟨update t.tasks i (next (m.answer c t.shared).2), (m.answer c t.shared).1⟩) ∨
        ∃ k s e, fault = some k ∧ m.breaks c k t.shared = some (s, e) ∧
          t' = ⟨update t.tasks i (next (.error e)), s⟩) := by
  unfold step at h
  cases ht : t.tasks i with
  | done a => simp [ht] at h
  | fail e => simp [ht] at h
  | call c next =>
    rw [ht] at h
    refine ⟨c, next, rfl, ?_⟩
    cases fault with
    | none =>
      cases h
      exact Or.inl ⟨rfl, rfl⟩
    | some k =>
      obtain ⟨⟨s, e⟩, hb, hm⟩ := Option.map_eq_some_iff.mp h
      cases hm
      exact Or.inr ⟨k, s, e, rfl, hb, rfl⟩

/-- A step moves one task. -/
theorem step_other {t t' : Team ι κ ans ε σ α} {i j : ι} {fault : Option Nat}
    (h : t.step m i fault = some t') (hj : j ≠ i) : t'.tasks j = t.tasks j := by
  obtain ⟨c, next, -, ⟨-, rfl⟩ | ⟨k, s, e, -, -, rfl⟩⟩ := step_cases h <;> exact update_of_ne hj _ _

/-- What every step keeps, every run keeps. -/
theorem Runs.keeps {P : Team ι κ ans ε σ α → Prop} {t₀ t : Team ι κ ans ε σ α}
    {moves : List (Move ι κ ans ε σ α)} (hr : Runs m t₀ moves t) (h₀ : P t₀)
    (hs : ∀ t t' i fault, P t → t.step m i fault = some t' → P t') : P t := by
  induction hr with
  | start => exact h₀
  | step i fault _ h ih => exact hs _ _ i fault ih h

/-- A run goes on from the state before any of its moves. -/
theorem Runs.split {t₀ t : Team ι κ ans ε σ α} {moves : List (Move ι κ ans ε σ α)}
    {e : Move ι κ ans ε σ α} (hr : Runs m t₀ moves t) (he : e ∈ moves) :
    ∃ earlier later t', Runs m t₀ earlier e.before ∧ e.before.step m e.mover e.fault = some t' ∧
      Runs m t' later t := by
  induction hr with
  | start => cases he
  | step i fault hr h ih =>
    rcases List.mem_append.mp he with he | he
    · obtain ⟨earlier, later, t', h₁, h₂, h₃⟩ := ih he
      exact ⟨earlier, _, t', h₁, h₂, .step i fault h₃ h⟩
    · obtain rfl := List.mem_singleton.mp he
      exact ⟨_, [], _, hr, h, .start⟩

/-- A task bound to fail stays so. -/
theorem step_fails {t t' : Team ι κ ans ε σ α} {i j : ι} {fault : Option Nat}
    (h : t.step m j fault = some t') (hi : (t.tasks i).Fails) : (t'.tasks i).Fails := by
  by_cases hij : i = j
  · subst hij
    obtain ⟨c, next, hc, ⟨-, rfl⟩ | ⟨k, s, e, -, -, rfl⟩⟩ := step_cases h
    all_goals
      rw [hc] at hi
      simp only [update_self]
      exact hi _
  · rwa [step_other h hij]

theorem step_propagates {p : κ → Prop} {t t' : Team ι κ ans ε σ α} {i j : ι} {fault : Option Nat}
    (h : t.step m j fault = some t') (hi : (t.tasks i).Propagates p) :
    (t'.tasks i).Propagates p := by
  by_cases hij : i = j
  · subst hij
    obtain ⟨c, next, hc, ⟨-, rfl⟩ | ⟨k, s, e, -, -, rfl⟩⟩ := step_cases h
    all_goals
      rw [hc] at hi
      simp only [update_self]
      exact hi.2 _
  · rwa [step_other h hij]

theorem step_only {p : κ → Prop} {t t' : Team ι κ ans ε σ α} {i : ι} {fault : Option Nat}
    (h : t.step m i fault = some t') (hi : (t.tasks i).Only p) : (t'.tasks i).Only p := by
  obtain ⟨c, next, hc, ⟨-, rfl⟩ | ⟨k, s, e, -, -, rfl⟩⟩ := step_cases h
  all_goals
    rw [hc] at hi
    simp only [update_self]
    exact hi.2 _

/-- A task that makes a call in `p` has settled from then on. -/
theorem step_settles {p q : κ → Prop} {t t' : Team ι κ ans ε σ α} {i : ι} {fault : Option Nat}
    (h : t.step m i fault = some t') (hi : (t.tasks i).Settles p q) :
    (t'.tasks i).Settles p q ∧ ∀ c next, t.tasks i = .call c next → p c → (t'.tasks i).Only q := by
  obtain ⟨c, next, hc, ⟨-, rfl⟩ | ⟨k, s, e, -, -, rfl⟩⟩ := step_cases h
  all_goals
    rw [hc] at hi ⊢
    simp only [update_self]
    refine ⟨hi.2 _, fun c' next' he hp => ?_⟩
    cases he
    exact hi.1 hp _

end Steps
end Team

/-- The terms a task works under: what others may do between its calls, what each
of its own may do, and which of them may break. -/
structure Terms (κ σ : Type) where
  rely : σ → σ → Prop
  guar : σ → σ → Prop
  may : κ → σ → Prop
  refl : ∀ s, rely s s
  trans : ∀ {a b c}, rely a b → rely b c → rely a c

namespace Task
variable {κ : Type} {ans : κ → Type} {ε σ α β : Type}
variable (m : Machine κ ans ε σ) (T : Terms κ σ)

/-- Resumed from `s` on, among others that keep to `rely`, the task keeps to `guar`
and ends with `post`. -/
def Safe (post : Except ε α → σ → Prop) : Task κ ans ε α → σ → Prop
  | done a, s => ∀ s', T.rely s s' → post (.ok a) s'
  | fail e, s => ∀ s', T.rely s s' → post (.error e) s'
  | call c next, s => ∀ s', T.rely s s' →
      (T.guar s' (m.answer c s').1 ∧ (next (m.answer c s').2).Safe post (m.answer c s').1) ∧
      ∀ k s'' e, T.may c s' → m.breaks c k s' = some (s'', e) →
        T.guar s' s'' ∧ (next (.error e)).Safe post s''

variable {m T} {post : Except ε α → σ → Prop} {s : σ}

theorem Safe.after {t : Task κ ans ε α} {s' : σ} (h : t.Safe m T post s) (hs : T.rely s s') :
    t.Safe m T post s' := by
  cases t with
  | done a => exact fun s'' h' => h s'' (T.trans hs h')
  | fail e => exact fun s'' h' => h s'' (T.trans hs h')
  | call c next => exact fun s'' h' => h s'' (T.trans hs h')

/-- Left to itself, it ends as it must. -/
theorem Safe.run {t : Task κ ans ε α} (h : t.Safe m T post s) : post (m.run t s).2 (m.run t s).1 := by
  induction t generalizing s with
  | done a => exact h s (T.refl s)
  | fail e => exact h s (T.refl s)
  | call c next ih => exact ih _ (h s (T.refl s)).1.2

theorem Safe.weaken {t : Task κ ans ε α} {post' : Except ε α → σ → Prop} (h : t.Safe m T post s)
    (hp : ∀ r s, post r s → post' r s) : t.Safe m T post' s := by
  induction t generalizing s with
  | done a => exact fun s' hs => hp _ _ (h s' hs)
  | fail e => exact fun s' hs => hp _ _ (h s' hs)
  | call c next ih =>
    intro s' hs
    obtain ⟨⟨hg, hn⟩, hb⟩ := h s' hs
    refine ⟨⟨hg, ih _ hn⟩, fun k s'' e hm he => ?_⟩
    obtain ⟨hg', hn'⟩ := hb k s'' e hm he
    exact ⟨hg', ih _ hn'⟩

/-- The rest of a task after its first part has ended with `r`. -/
def restSafe (m : Machine κ ans ε σ) (T : Terms κ σ) (post : Except ε β → σ → Prop)
    (f : α → Task κ ans ε β) (r : Except ε α) (s : σ) : Prop :=
  match r with
  | .ok a => (f a).Safe m T post s
  | .error e => (fail e : Task κ ans ε β).Safe m T post s

theorem safe_bind {t : Task κ ans ε α} {f : α → Task κ ans ε β} {post : Except ε β → σ → Prop}
    (h : t.Safe m T (restSafe m T post f) s) : (t.bind f).Safe m T post s := by
  induction t generalizing s with
  | done a => exact h s (T.refl s)
  | fail e => exact h s (T.refl s)
  | call c next ih =>
    intro s' hs
    obtain ⟨⟨hg, hn⟩, hb⟩ := h s' hs
    refine ⟨⟨hg, ih _ hn⟩, fun k s'' e hm he => ?_⟩
    obtain ⟨hg', hn'⟩ := hb k s'' e hm he
    exact ⟨hg', ih _ hn'⟩

/-- The handler takes over from an error. -/
def handled (m : Machine κ ans ε σ) (T : Terms κ σ) (post : Except ε α → σ → Prop)
    (f : ε → Task κ ans ε α) (r : Except ε α) (s : σ) : Prop :=
  match r with
  | .ok a => (done a : Task κ ans ε α).Safe m T post s
  | .error e => (f e).Safe m T post s

theorem safe_catching {t : Task κ ans ε α} {f : ε → Task κ ans ε α}
    (h : t.Safe m T (handled m T post f) s) : (t.catching f).Safe m T post s := by
  induction t generalizing s with
  | done a => exact h s (T.refl s)
  | fail e => exact h s (T.refl s)
  | call c next ih =>
    intro s' hs
    obtain ⟨⟨hg, hn⟩, hb⟩ := h s' hs
    refine ⟨⟨hg, ih _ hn⟩, fun k s'' e hm he => ?_⟩
    obtain ⟨hg', hn'⟩ := hb k s'' e hm he
    exact ⟨hg', ih _ hn'⟩

theorem safe_lift {r : Except ε α} (h : ∀ s', T.rely s s' → post r s') :
    (lift r : Task κ ans ε α).Safe m T post s := by
  cases r <;> exact h

/-- One call: what its answer leaves, and what it leaves when it breaks. -/
theorem safe_perform {c : κ} {post : Except ε (ans c) → σ → Prop}
    (h : ∀ s', T.rely s s' → T.guar s' (m.answer c s').1 ∧
      ∀ s'', T.rely (m.answer c s').1 s'' → post (m.answer c s').2 s'')
    (hb : ∀ s', T.rely s s' → ∀ k s'' e, T.may c s' → m.breaks c k s' = some (s'', e) →
      T.guar s' s'' ∧ ∀ s₃, T.rely s'' s₃ → post (.error e) s₃) :
    (perform c : Task κ ans ε (ans c)).Safe m T post s := by
  intro s' hs
  exact ⟨⟨(h s' hs).1, safe_lift (h s' hs).2⟩, hb s' hs⟩

/-- A call that cannot break and whose answer is not looked at. -/
theorem safe_ignore {c : κ} {post : Except ε Unit → σ → Prop} (hn : ∀ k s, m.breaks c k s = none)
    (h : ∀ s', T.rely s s' → T.guar s' (m.answer c s').1 ∧
      ∀ s'', T.rely (m.answer c s').1 s'' → post (.ok ()) s'') :
    (ignore c : Task κ ans ε Unit).Safe m T post s := by
  intro s' hs
  refine ⟨h s' hs, fun k s'' e _ he => ?_⟩
  rw [hn] at he
  cases he

end Task

namespace Team
variable {ι κ : Type} {ans : κ → Type} {ε σ α : Type} [DecidableEq ι]
variable {m : Machine κ ans ε σ} {T : ι → Terms κ σ} {post : ι → Except ε α → σ → Prop}

/-- A move whose call does not break, or is one that may. -/
def Allowed (T : ι → Terms κ σ) (e : Move ι κ ans ε σ α) : Prop :=
  ∀ k, e.fault = some k → ∀ c next, e.before.tasks e.mover = .call c next →
    (T e.mover).may c e.before.shared

/-- Each task keeps to its terms while the others keep to theirs. -/
def AllSafe (m : Machine κ ans ε σ) (T : ι → Terms κ σ) (post : ι → Except ε α → σ → Prop)
    (t : Team ι κ ans ε σ α) : Prop :=
  ∀ i, (t.tasks i).Safe m (T i) (post i) t.shared

/-- A move of a safe task keeps to its terms, and leaves it safe. -/
theorem step_safe {T : Terms κ σ} {post : Except ε α → σ → Prop} {t t' : Team ι κ ans ε σ α} {i : ι}
    {fault : Option Nat} (h : (t.tasks i).Safe m T post t.shared) (hs : t.step m i fault = some t')
    (ha : ∀ k, fault = some k → ∀ c next, t.tasks i = .call c next → T.may c t.shared) :
    T.guar t.shared t'.shared ∧ (t'.tasks i).Safe m T post t'.shared := by
  obtain ⟨c, next, hc, hcase⟩ := step_cases hs
  rw [hc] at h
  obtain ⟨hok, hbad⟩ := h t.shared (T.refl _)
  rcases hcase with ⟨-, rfl⟩ | ⟨k, s, e, hf, hb, rfl⟩
  · simp only [update_self]
    exact hok
  · simp only [update_self]
    exact hbad k s e (ha k hf c next hc) hb

/-- One move of a safe team keeps to the mover's terms, so the team stays safe. -/
theorem AllSafe.step {t t' : Team ι κ ans ε σ α} {i : ι} {fault : Option Nat}
    (share : ∀ i j, j ≠ i → ∀ s s', (T i).guar s s' → (T j).rely s s') (h : AllSafe m T post t)
    (hs : t.step m i fault = some t') (ha : Allowed T ⟨t, i, fault⟩) :
    (T i).guar t.shared t'.shared ∧ AllSafe m T post t' := by
  have key := step_safe (h i) hs ha
  refine ⟨key.1, fun j => ?_⟩
  by_cases hj : j = i
  · subst hj
    exact key.2
  · rw [step_other hs hj]
    exact (h j).after (share i j hj _ _ key.1)

/-- The parallel rule: tasks safe one by one are safe in every run whose faults
their terms allow. -/
theorem Runs.safe {t₀ t : Team ι κ ans ε σ α} {moves : List (Move ι κ ans ε σ α)}
    (share : ∀ i j, j ≠ i → ∀ s s', (T i).guar s s' → (T j).rely s s') (h₀ : AllSafe m T post t₀)
    (hr : Runs m t₀ moves t) (ha : ∀ e ∈ moves, Allowed T e) : AllSafe m T post t := by
  induction hr with
  | start => exact h₀
  | step i fault hr hs ih =>
    have hsafe := ih fun e he => ha e (List.mem_append_left _ he)
    exact (hsafe.step share hs (ha _ (by simp))).2

/-- What every call of the team keeps, every such run keeps. -/
theorem Runs.invariant {Inv : σ → Prop} {t₀ t : Team ι κ ans ε σ α}
    {moves : List (Move ι κ ans ε σ α)}
    (share : ∀ i j, j ≠ i → ∀ s s', (T i).guar s s' → (T j).rely s s') (h₀ : AllSafe m T post t₀)
    (hinv : Inv t₀.shared) (keep : ∀ i s s', (T i).guar s s' → Inv s → Inv s')
    (hr : Runs m t₀ moves t) (ha : ∀ e ∈ moves, Allowed T e) : Inv t.shared := by
  induction hr with
  | start => exact hinv
  | step i fault hr hs ih =>
    have hprev : ∀ e ∈ _, Allowed T e := fun e he => ha e (List.mem_append_left _ he)
    have hsafe := hr.safe share h₀ hprev
    exact keep i _ _ (hsafe.step share hs (ha _ (by simp))).1 (ih hprev)

omit [DecidableEq ι] in
/-- A task that has returned met its postcondition. -/
theorem AllSafe.done {t : Team ι κ ans ε σ α} {i : ι} {a : α} (h : AllSafe m T post t)
    (hi : t.tasks i = .done a) : post i (.ok a) t.shared := by
  have hd := h i
  rw [hi] at hd
  exact hd t.shared ((T i).refl _)

omit [DecidableEq ι] in
theorem AllSafe.failed {t : Team ι κ ans ε σ α} {i : ι} {e : ε} (h : AllSafe m T post t)
    (hi : t.tasks i = .fail e) : post i (.error e) t.shared := by
  have hd := h i
  rw [hi] at hd
  exact hd t.shared ((T i).refl _)

end Team
end Telegraph.Lib
