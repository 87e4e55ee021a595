import Telegraph.Lib.Footprint
import Telegraph.Lib.Serial

namespace Telegraph.Lib.Program
variable {ω σ ε α β : Type} {view : ω → σ} {later : ω → ω → Prop} {w w₁ w' : ω}
variable {f : β → Program σ ε α} {r : Except ε α}

/-- A program that only reads, while others change what it reads: each of its statements
sees the world as it is `later` than at the one before. -/
inductive Sees (view : ω → σ) (later : ω → ω → Prop) : ω → Program σ ε α → ω → Except ε α → Prop where
  | returned {w : ω} {a : α} : Sees view later w (done a) w (.ok a)
  | failed {w : ω} {e : ε} : Sees view later w (fail e) w (.error e)
  | selected {w w₁ w' : ω} {next : σ → Program σ ε α} {r : Except ε α} (h : later w w₁)
      (hs : Sees view later w₁ (next (view w₁)) w' r) : Sees view later w (select next) w' r

theorem Sees.of_done {a : α} (h : Sees view later w (done a : Program σ ε α) w' r) :
    w' = w ∧ r = .ok a := by
  cases h
  exact ⟨rfl, rfl⟩

/-- What is read first is of some later world, and the rest is read later still. -/
theorem Sees.of_query {q : σ → β} (h : Sees view later w ((query q).bind f) w' r) :
    ∃ w₁, later w w₁ ∧ Sees view later w₁ (f (q (view w₁))) w' r := by
  cases h with
  | selected hl hs => exact ⟨_, hl, hs⟩

theorem Sees.query {q : σ → β} (hl : later w w₁) (h : Sees view later w₁ (f (q (view w₁))) w' r) :
    Sees view later w ((Program.query q).bind f) w' r :=
  .selected hl h

/-- What makes no statement keeps to every footprint. -/
theorem Reads.always {R : σ → σ → Prop} {p : Program σ ε α} (h : p.Reads) : p.Always R := by
  intro c
  induction p with
  | done a => trivial
  | fail e => trivial
  | select next ih => exact ih _ (h _)
  | _ => exact h.elim

end Telegraph.Lib.Program
