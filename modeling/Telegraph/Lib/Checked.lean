import Mathlib.Algebra.Group.Int.Defs
import Mathlib.Algebra.Group.Nat.Defs

namespace Telegraph.Lib

/-- Why a computation stops before it returns. -/
inductive Trap where
  | overflow
  | zeroDivisor
  | outOfBounds
  | wrongLength
  | endless
deriving DecidableEq, Repr

/-- What a computation returns if all its run-time checks pass. -/
abbrev Checked (α : Type) := Except Trap α

namespace Checked
variable {α : Type}

/-- A result of unsigned arithmetic. -/
def unsigned (bits n : Nat) : Checked Nat := if n < 2 ^ bits then .ok n else .error .overflow

/-- A result of signed arithmetic in two's complement. -/
def signed (bits : Nat) (n : Int) : Checked Int :=
  if -2 ^ (bits - 1) ≤ n ∧ n < 2 ^ (bits - 1) then .ok n else .error .overflow

/-- Signed division, rounded to zero. -/
def quotient (bits : Nat) (n d : Int) : Checked Int :=
  if d = 0 then .error .zeroDivisor else signed bits (n.tdiv d)

/-- `l[i]` -/
def element (l : List α) (i : Nat) : Checked α :=
  match l[i]? with
  | some a => .ok a
  | none => .error .outOfBounds

/-- `l[start..stop]` -/
def part (l : List α) (start stop : Nat) : Checked (List α) :=
  if start ≤ stop ∧ stop ≤ l.length then .ok ((l.drop start).take (stop - start))
  else .error .outOfBounds

/-- A slice taken for an array of `n` elements. -/
def array (n : Nat) (l : List α) : Checked (List α) :=
  if l.length = n then .ok l else .error .wrongLength

@[simp] theorem ok_bind {β : Type} (a : α) (f : α → Checked β) :
    ((.ok a : Checked α) >>= f) = f a := rfl

theorem unsigned_ok {bits n : Nat} (h : n < 2 ^ bits) : unsigned bits n = .ok n := if_pos h

theorem signed_ok {bits : Nat} {n : Int} (h : -2 ^ (bits - 1) ≤ n) (h' : n < 2 ^ (bits - 1)) :
    signed bits n = .ok n := if_pos ⟨h, h'⟩

theorem element_ok {l : List α} {i : Nat} (h : i < l.length) : element l i = .ok l[i] := by
  simp [element, h]

theorem part_ok {l : List α} {start stop : Nat} (h : start ≤ stop) (h' : stop ≤ l.length) :
    part l start stop = .ok ((l.drop start).take (stop - start)) := if_pos ⟨h, h'⟩

theorem array_ok {l : List α} {n : Nat} (h : l.length = n) : array n l = .ok l := if_pos h

end Checked
end Telegraph.Lib
