import Mathlib.Tactic.ByContra

namespace Telegraph.Lib

/-- One step of a run: the states around it and what it was. -/
structure Turn (σ τ : Type) where
  before : σ
  what : τ
  after : σ

/-- The runs of a step relation from `s₀`, with their turns in order. -/
inductive History {σ τ : Type} (step : σ → τ → σ → Prop) (s₀ : σ) : List (Turn σ τ) → σ → Prop where
  | start : History step s₀ [] s₀
  | turn {turns : List (Turn σ τ)} {s s' : σ} (l : τ) :
      History step s₀ turns s → step s l s' → History step s₀ (turns ++ [⟨s, l, s'⟩]) s'

namespace History
variable {σ τ : Type} {step : σ → τ → σ → Prop} {s₀ s : σ} {turns : List (Turn σ τ)}

/-- What every step keeps, every run keeps. -/
theorem keeps {Inv : σ → Prop} (h : History step s₀ turns s) (h₀ : Inv s₀)
    (hs : ∀ s l s', Inv s → step s l s' → Inv s') : Inv s := by
  induction h with
  | start => exact h₀
  | turn l _ hstep ih => exact hs _ l _ ih hstep

theorem step_of_mem (h : History step s₀ turns s) {t : Turn σ τ} (ht : t ∈ turns) :
    step t.before t.what t.after := by
  induction h with
  | start => cases ht
  | turn l _ hstep ih =>
    rcases List.mem_append.mp ht with ht | ht
    · exact ih ht
    · rw [List.mem_singleton.mp ht]
      exact hstep

/-- Up to the start of any of its turns, a run is a run. -/
theorem upTo (h : History step s₀ turns s) {earlier later : List (Turn σ τ)} {t : Turn σ τ}
    (he : turns = earlier ++ t :: later) : History step s₀ earlier t.before := by
  induction h generalizing later with
  | start => simp at he
  | turn l hr hstep ih =>
    rcases List.eq_nil_or_concat later with rfl | ⟨later, u, rfl⟩
    · obtain ⟨rfl, ht⟩ := List.append_inj' he rfl
      cases List.head_eq_of_cons_eq ht
      exact hr
    · rw [List.concat_eq_append, ← List.cons_append, ← List.append_assoc] at he
      exact ih (List.append_inj' he rfl).1

/-- From the end of any of its turns, the rest of a run is a run. -/
theorem since (h : History step s₀ turns s) {earlier later : List (Turn σ τ)} {t : Turn σ τ}
    (he : turns = earlier ++ t :: later) : History step t.after later s := by
  induction h generalizing later with
  | start => simp at he
  | turn l hr hstep ih =>
    rcases List.eq_nil_or_concat later with rfl | ⟨later, u, rfl⟩
    · obtain ⟨-, ht⟩ := List.append_inj' he rfl
      cases List.head_eq_of_cons_eq ht
      exact .start
    · rw [List.concat_eq_append, ← List.cons_append, ← List.append_assoc] at he
      obtain ⟨hpre, hu⟩ := List.append_inj' he rfl
      cases List.head_eq_of_cons_eq hu
      rw [List.concat_eq_append]
      exact .turn l (ih hpre) hstep

/-- A run comes to an end where its last turn does. -/
theorem last {t : Turn σ τ} (h : History step s₀ (turns ++ [t]) s) : s = t.after := by
  generalize he : turns ++ [t] = all at h
  cases h with
  | start => simp at he
  | turn l _ _ =>
    obtain ⟨-, ht⟩ := List.append_inj' he rfl
    cases List.head_eq_of_cons_eq ht
    rfl

/-- A run in two parts. -/
theorem split {later : List (Turn σ τ)} (h : History step s₀ (turns ++ later) s) :
    ∃ s₁, History step s₀ turns s₁ ∧ History step s₁ later s := by
  generalize he : turns ++ later = all at h
  induction h generalizing later with
  | start =>
    obtain ⟨rfl, rfl⟩ := List.append_eq_nil_iff.mp he
    exact ⟨s₀, .start, .start⟩
  | turn l hr hstep ih =>
    rcases List.eq_nil_or_concat later with rfl | ⟨rest, t, rfl⟩
    · rw [List.append_nil] at he
      exact ⟨_, he ▸ .turn l hr hstep, .start⟩
    · rw [List.concat_eq_append, ← List.append_assoc] at he
      obtain ⟨hpre, ht⟩ := List.append_inj' he rfl
      cases List.head_eq_of_cons_eq ht
      obtain ⟨s₁, h₁, h₂⟩ := ih hpre
      rw [List.concat_eq_append]
      exact ⟨s₁, h₁, .turn l h₂ hstep⟩

/-- What no step undoes still holds at the end. -/
theorem stays {P : σ → Prop} (h : History step s₀ turns s)
    (hs : ∀ s l s', step s l s' → P s → P s') {t : Turn σ τ} (ht : t ∈ turns) (hp : P t.after) :
    P s := by
  obtain ⟨earlier, later, he⟩ := List.append_of_mem ht
  exact (h.since he).keeps hp fun s l s' hps hstep => hs s l s' hstep hps

/-- What no step undoes comes about at most once. -/
theorem once {P : σ → Prop} (h : History step s₀ turns s) (hs : ∀ s l s', step s l s' → P s → P s') :
    turns.Pairwise fun t u => ¬ ((¬ P t.before ∧ P t.after) ∧ ¬ P u.before ∧ P u.after) := by
  induction h with
  | start => exact .nil
  | turn l hr hstep ih =>
    refine List.pairwise_append.mpr ⟨ih, List.pairwise_singleton _ _, ?_⟩
    intro t ht u hu
    rw [List.mem_singleton.mp hu]
    exact fun hb => hb.2.1 (hr.stays hs ht hb.1.2)

/-- What holds at the start and after every turn holds before every turn. -/
theorem before_of_after {P : σ → Prop} (h : History step s₀ turns s) (h₀ : P s₀)
    (ha : ∀ t ∈ turns, P t.after) : P s ∧ ∀ t ∈ turns, P t.before := by
  induction h with
  | start => exact ⟨h₀, by simp⟩
  | @turn turns s s' l _ _ ih =>
    obtain ⟨hs, hb⟩ := ih fun t ht => ha t (List.mem_append_left _ ht)
    refine ⟨ha ⟨s, l, s'⟩ (by simp), fun t ht => ?_⟩
    rcases List.mem_append.mp ht with ht | ht
    · exact hb t ht
    · rw [List.mem_singleton.mp ht]
      exact hs

/-- Where each turn that spends lowers a potential and only turns that gain raise it, a
run spends no more than it started with and gained. -/
theorem potential {Φ : σ → Nat} {spends gains : Turn σ τ → Bool} (h : History step s₀ turns s)
    (hs : ∀ t ∈ turns, Φ t.after + (spends t).toNat ≤ Φ t.before + (gains t).toNat) :
    turns.countP spends + Φ s ≤ Φ s₀ + turns.countP gains := by
  induction h with
  | start => simp
  | @turn turns s s' l _ _ ih =>
    have hrest := ih fun t ht => hs t (List.mem_append_left _ ht)
    have hlast := hs ⟨s, l, s'⟩ (by simp)
    rw [List.countP_append, List.countP_append, List.countP_singleton, List.countP_singleton]
    cases hsp : spends ⟨s, l, s'⟩ <;> cases hg : gains ⟨s, l, s'⟩ <;>
      simp only [hsp, hg, Bool.toNat_true, Bool.toNat_false] at hlast <;> simp <;> omega

/-- A run given by its labels, where each step is a function of its label. -/
def play (next : σ → τ → Option σ) (s : σ) : List τ → Option (List (Turn σ τ) × σ)
  | [] => some ([], s)
  | l :: ls => (next s l).bind fun s' => (play next s' ls).map fun r => (⟨s, l, s'⟩ :: r.1, r.2)

theorem play_from {next : σ → τ → Option σ} {ls : List τ} {later : List (Turn σ τ)} {s' : σ}
    (h : History (fun s l s' => next s l = some s') s₀ turns s)
    (hp : play next s ls = some (later, s')) :
    History (fun s l s' => next s l = some s') s₀ (turns ++ later) s' := by
  induction ls generalizing s turns later with
  | nil =>
    cases hp
    rwa [List.append_nil]
  | cons l ls ih =>
    obtain ⟨s₁, hs, hrest⟩ := Option.bind_eq_some_iff.mp hp
    obtain ⟨⟨tail, last⟩, ht, he⟩ := Option.map_eq_some_iff.mp hrest
    cases he
    have hgo := ih (.turn l h hs) ht
    rwa [List.append_assoc, List.singleton_append] at hgo

theorem of_play {next : σ → τ → Option σ} {ls : List τ} (hp : play next s₀ ls = some (turns, s)) :
    History (fun s l s' => next s l = some s') s₀ turns s :=
  play_from .start hp

end History
end Telegraph.Lib
