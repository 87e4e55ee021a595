import Mathlib.Algebra.Group.Nat.Defs
import Mathlib.Data.List.Basic

namespace Telegraph.Lib.Riff

/-- The `width` low bytes of a number, the lowest first. -/
def leBytes : Nat → Nat → List UInt8
  | 0, _ => []
  | width + 1, n => UInt8.ofNat n :: leBytes width (n / 256)

@[simp] theorem length_leBytes (width n : Nat) : (leBytes width n).length = width := by
  induction width generalizing n with
  | zero => rfl
  | succ width ih => simp [leBytes, ih]

/-- A chunk that can be written: its id has four bytes, and its size fits into four. -/
structure Chunk where
  id : List UInt8
  body : List UInt8
  padding : UInt8
  id_length : id.length = 4
  body_lt : body.length < 2 ^ 32

namespace Chunk

/-- The eight bytes before the body. -/
def header (c : Chunk) : List UInt8 := c.id ++ leBytes 4 c.body.length

/-- The header, the body, and one more byte after a body of odd size. -/
def bytes (c : Chunk) : List UInt8 :=
  c.header ++ c.body ++ List.replicate (c.body.length % 2) c.padding

@[simp] theorem length_header (c : Chunk) : c.header.length = 8 := by
  simp [header, c.id_length]

@[simp] theorem length_bytes (c : Chunk) :
    c.bytes.length = 8 + c.body.length + c.body.length % 2 := by
  simp [bytes, Nat.add_assoc]

end Chunk

/-- Records one behind the other: which offsets hold one, which of these end a walk,
and where the next record starts. -/
structure Layout where
  holds : Nat → Bool
  ends : Nat → Bool
  next : Nat → Nat

namespace Layout

/-- The records passed from an offset on, and the one the walk ends at, if any. -/
def walk (l : Layout) : Nat → Nat → List Nat × Option Nat
  | 0, _ => ([], none)
  | fuel + 1, o =>
    if l.holds o then
      if l.ends o then ([], some o)
      else (o :: (l.walk fuel (l.next o)).1, (l.walk fuel (l.next o)).2)
    else ([], none)

/-- The records lie in the first `bound` bytes, each behind the one before. -/
structure Ordered (l : Layout) (bound : Nat) : Prop where
  inside : ∀ o, l.holds o = true → o < bound
  forward : ∀ o, l.holds o = true → o < l.next o

/-- What `l` holds, `l'` holds in the same way. -/
def Within (l l' : Layout) : Prop :=
  ∀ o, l.holds o = true → l'.holds o = true ∧ l'.ends o = l.ends o ∧ l'.next o = l.next o

section Walk
variable {l l' : Layout} {bound n o p : Nat}

theorem walk_none (h : l.holds o = false) : l.walk n o = ([], none) := by
  cases n with
  | zero => rfl
  | succ n => simp [walk, h]

theorem walk_end (h : l.holds o = true) (he : l.ends o = true) :
    l.walk (n + 1) o = ([], some o) := by
  simp [walk, h, he]

theorem walk_pass (h : l.holds o = true) (he : l.ends o = false) :
    l.walk (n + 1) o = (o :: (l.walk n (l.next o)).1, (l.walk n (l.next o)).2) := by
  simp [walk, h, he]

/-- A record passed is no end. -/
theorem passed_holds (hp : p ∈ (l.walk n o).1) : l.holds p = true ∧ l.ends p = false := by
  induction n generalizing o with
  | zero => simp [walk] at hp
  | succ n ih =>
    cases hh : l.holds o with
    | false => simp [walk_none hh] at hp
    | true =>
      cases he : l.ends o with
      | true => simp [walk_end hh he] at hp
      | false =>
        rw [walk_pass hh he] at hp
        rcases List.mem_cons.mp hp with rfl | hp
        · exact ⟨hh, he⟩
        · exact ih hp

theorem end_holds {d : Nat} (hd : (l.walk n o).2 = some d) : l.holds d = true := by
  induction n generalizing o with
  | zero => simp [walk] at hd
  | succ n ih =>
    cases hh : l.holds o with
    | false => simp [walk_none hh] at hd
    | true =>
      cases he : l.ends o with
      | true =>
        rw [walk_end hh he] at hd
        cases hd
        exact hh
      | false =>
        rw [walk_pass hh he] at hd
        exact ih hd

theorem Ordered.walk_outside (h : l.Ordered bound) (ho : bound ≤ o) : l.walk n o = ([], none) := by
  apply walk_none
  rw [Bool.eq_false_iff]
  intro hh
  have hlt := h.inside o hh
  omega

/-- With fuel for the bytes that are left, a walk needs no more. -/
theorem Ordered.walk_fuel (h : l.Ordered bound) {m : Nat} (hm : bound ≤ o + m)
    (hn : bound ≤ o + n) : l.walk m o = l.walk n o := by
  induction m generalizing n o with
  | zero => rw [h.walk_outside (by omega), h.walk_outside (by omega)]
  | succ m ih =>
    cases n with
    | zero => rw [h.walk_outside (by omega), h.walk_outside (by omega)]
    | succ n =>
      cases hh : l.holds o with
      | false => rw [walk_none hh, walk_none hh]
      | true =>
        cases he : l.ends o with
        | true => rw [walk_end hh he, walk_end hh he]
        | false =>
          have hlt := h.forward o hh
          have hrest : l.walk m (l.next o) = l.walk n (l.next o) := ih (by omega) (by omega)
          rw [walk_pass hh he, walk_pass hh he, hrest]

/-- The records passed are over before the one the walk ends at. -/
theorem Ordered.next_le_end (h : l.Ordered bound) {d : Nat} (hd : (l.walk n o).2 = some d) :
    o ≤ d ∧ ∀ p ∈ (l.walk n o).1, l.next p ≤ d := by
  induction n generalizing o with
  | zero => simp [walk] at hd
  | succ n ih =>
    cases hh : l.holds o with
    | false => simp [walk_none hh] at hd
    | true =>
      cases he : l.ends o with
      | true =>
        rw [walk_end hh he] at hd ⊢
        cases hd
        simp
      | false =>
        rw [walk_pass hh he] at hd ⊢
        obtain ⟨hle, hpassed⟩ := ih hd
        have hnext := h.forward o hh
        refine ⟨by omega, fun p hp => ?_⟩
        rcases List.mem_cons.mp hp with rfl | hp
        · exact hle
        · exact hpassed p hp

/-- A walk that ends goes the same way where more is held. -/
theorem Within.walk_of_end (h : l.Within l') {d : Nat} (hd : (l.walk n o).2 = some d) :
    l'.walk n o = l.walk n o := by
  induction n generalizing o with
  | zero => rfl
  | succ n ih =>
    cases hh : l.holds o with
    | false => simp [walk_none hh] at hd
    | true =>
      obtain ⟨hh', he', hn'⟩ := h o hh
      cases he : l.ends o with
      | true => rw [walk_end hh he, walk_end hh' (he'.trans he)]
      | false =>
        rw [walk_pass hh he] at hd
        rw [walk_pass hh he, walk_pass hh' (he'.trans he), hn', ih hd]

/-- A walk goes the same way where less is held, as long as all it comes to is. -/
theorem Within.walk_of_held (h : l.Within l') (hp : ∀ p ∈ (l'.walk n o).1, l.holds p = true)
    (hd : ∀ d, (l'.walk n o).2 = some d → l.holds d = true) : l.walk n o = l'.walk n o := by
  induction n generalizing o with
  | zero => rfl
  | succ n ih =>
    cases hh' : l'.holds o with
    | false =>
      have hh : l.holds o = false := by
        rw [Bool.eq_false_iff]
        intro hh
        rw [(h o hh).1] at hh'
        cases hh'
      rw [walk_none hh, walk_none hh']
    | true =>
      cases he' : l'.ends o with
      | true =>
        have hh := hd o (by rw [walk_end hh' he'])
        rw [walk_end hh' he', walk_end hh ((h o hh).2.1.symm.trans he')]
      | false =>
        rw [walk_pass hh' he'] at hp hd ⊢
        have hh := hp o (List.mem_cons_self ..)
        obtain ⟨-, he, hn⟩ := h o hh
        rw [hn] at hp hd ⊢
        rw [walk_pass hh (he.symm.trans he'),
          ih (fun p hm => hp p (List.mem_cons_of_mem _ hm)) hd]

end Walk
end Layout
end Telegraph.Lib.Riff
