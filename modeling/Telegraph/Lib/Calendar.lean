import Mathlib.Tactic.IntervalCases

namespace Telegraph.Lib.Calendar

/-- Days from 0000-01-01 to the first day of year `y`, proleptic Gregorian. -/
def daysBeforeYear (y : Nat) : Nat :=
  365 * y + (y + 3) / 4 - (y + 99) / 100 + (y + 399) / 400

/-- The year that contains day `n`. The quotient is off by at most one year. -/
def yearOf (n : Nat) : Nat :=
  let y := n * 400 / 146097
  if n < daysBeforeYear y then y - 1
  else if daysBeforeYear (y + 1) ≤ n then y + 1 else y

def isLeap (y : Nat) : Bool := y % 4 == 0 && (y % 100 != 0 || y % 400 == 0)

def monthLengths (y : Nat) : List Nat :=
  [31, if isLeap y then 29 else 28, 31, 30, 31, 30, 31, 31, 30, 31, 30, 31]

/-- Walk the months, returning the zero-based month and day. -/
def splitMonth : List Nat → Nat → Nat × Nat
  | [], n => (0, n)
  | l :: ls, n => if n < l then (0, n) else ((splitMonth ls (n - l)).1 + 1, (splitMonth ls (n - l)).2)

structure Date where
  year : Nat
  month : Nat
  day : Nat
deriving DecidableEq, Repr

/-- The civil date of day `n`, with day 0 being 0000-01-01. -/
def dateOf (n : Nat) : Date :=
  let y := yearOf n
  let md := splitMonth (monthLengths y) (n - daysBeforeYear y)
  ⟨y, md.1 + 1, md.2 + 1⟩

theorem daysBeforeYear_near (y : Nat) :
    146097 * y ≤ 400 * daysBeforeYear y + 1100 ∧
      400 * daysBeforeYear y ≤ 146097 * y + 1100 := by
  have h4 : ∃ q j, (y + 3) / 4 = q ∧ 4 * q = y + j ∧ j ≤ 3 :=
    ⟨(y + 3) / 4, 4 * ((y + 3) / 4) - y, by omega⟩
  have h100 : ∃ q j, (y + 99) / 100 = q ∧ 100 * q = y + j ∧ j ≤ 99 :=
    ⟨(y + 99) / 100, 100 * ((y + 99) / 100) - y, by omega⟩
  have h400 : ∃ q j, (y + 399) / 400 = q ∧ 400 * q = y + j ∧ j ≤ 399 :=
    ⟨(y + 399) / 400, 400 * ((y + 399) / 400) - y, by omega⟩
  obtain ⟨a, i, ha, ha', hi⟩ := h4
  obtain ⟨b, j, hb, hb', hj⟩ := h100
  obtain ⟨c, k, hc, hc', hk⟩ := h400
  rw [daysBeforeYear, ha, hb, hc]
  clear ha hb hc
  omega

theorem daysBeforeYear_succ (y : Nat) :
    daysBeforeYear (y + 1) = daysBeforeYear y + (if isLeap y then 366 else 365) := by
  have h4 : (y + 1 + 3) / 4 = (y + 3) / 4 + (if y % 4 = 0 then 1 else 0) := by
    split <;> omega
  have h100 : (y + 1 + 99) / 100 = (y + 99) / 100 + (if y % 100 = 0 then 1 else 0) := by
    split <;> omega
  have h400 : (y + 1 + 399) / 400 = (y + 399) / 400 + (if y % 400 = 0 then 1 else 0) := by
    split <;> omega
  have hle : (y + 99) / 100 ≤ y + (y + 3) / 4 := by omega
  simp only [daysBeforeYear, h4, h100, h400, isLeap, Bool.and_eq_true, Bool.or_eq_true, beq_iff_eq,
    bne_iff_ne]
  by_cases hm4 : y % 4 = 0 <;> by_cases hm100 : y % 100 = 0 <;> by_cases hm400 : y % 400 = 0 <;>
    simp only [hm4, hm100, hm400, ne_eq, not_true_eq_false, not_false_eq_true, if_true, if_false,
      true_and, false_and, or_true, or_false] <;> omega

theorem daysBeforeYear_mono {a b : Nat} (h : a ≤ b) : daysBeforeYear a ≤ daysBeforeYear b := by
  induction b with
  | zero => rw [Nat.le_zero.mp h]
  | succ b ih =>
    rcases Nat.eq_or_lt_of_le h with rfl | hlt
    · exact Nat.le_refl _
    · have := ih (by omega)
      rw [daysBeforeYear_succ]
      omega

/-- The corrected quotient is the year whose days include `n`. -/
theorem yearOf_spec (n : Nat) :
    daysBeforeYear (yearOf n) ≤ n ∧ n < daysBeforeYear (yearOf n + 1) := by
  unfold yearOf
  generalize hy : n * 400 / 146097 = y
  have hb := daysBeforeYear_near y
  have hb' := daysBeforeYear_near (y + 1)
  have hs' := daysBeforeYear_succ (y + 1)
  dsimp only
  split
  · rename_i h
    cases y with
    | zero => simp [daysBeforeYear] at h
    | succ y =>
      have hs := daysBeforeYear_succ y
      simp only [Nat.add_sub_cancel]
      refine ⟨?_, h⟩
      split at hs <;> omega
  · split
    · refine ⟨by assumption, ?_⟩
      split at hs' <;> omega
    · omega

theorem yearOf_lt {n : Nat} (h : n < daysBeforeYear y) : yearOf n < y := by
  by_contra hn
  have := daysBeforeYear_mono (Nat.le_of_not_lt hn)
  have := (yearOf_spec n).1
  omega

theorem monthLengths_sum (y : Nat) :
    (monthLengths y).sum = if isLeap y then 366 else 365 := by
  cases h : isLeap y <;> simp [monthLengths, h]

theorem splitMonth_bounds {ls : List Nat} {n : Nat} (h : n < ls.sum) (hl : ∀ l ∈ ls, l ≤ 31) :
    (splitMonth ls n).1 < ls.length ∧ (splitMonth ls n).2 < 31 := by
  induction ls generalizing n with
  | nil => simp at h
  | cons l ls ih =>
    unfold splitMonth
    split
    · have := hl l (by simp)
      simp only [List.length_cons]
      omega
    · simp only [List.sum_cons] at h
      have := ih (n := n - l) (by omega) (fun m hm => hl m (List.mem_cons_of_mem _ hm))
      simp only [List.length_cons]
      omega

/-- A later day of the year is in a later month, or later in the same month. -/
theorem splitMonth_lt {ls : List Nat} {a b : Nat} (h : a < b) :
    (splitMonth ls a).1 < (splitMonth ls b).1 ∨
      ((splitMonth ls a).1 = (splitMonth ls b).1 ∧ (splitMonth ls a).2 < (splitMonth ls b).2) := by
  induction ls generalizing a b with
  | nil => exact Or.inr ⟨rfl, h⟩
  | cons l ls ih =>
    unfold splitMonth
    split <;> split
    · exact Or.inr ⟨rfl, h⟩
    · exact Or.inl (Nat.succ_pos _)
    · omega
    · have := ih (a := a - l) (b := b - l) (by omega)
      omega

theorem dateOf_fields (n : Nat) :
    (dateOf n).month ≤ 12 ∧ (dateOf n).day ≤ 31 := by
  have hy := yearOf_spec n
  have hs := daysBeforeYear_succ (yearOf n)
  have hlen : ∀ l ∈ monthLengths (yearOf n), l ≤ 31 := by
    intro l hl
    simp only [monthLengths, List.mem_cons, List.not_mem_nil, or_false] at hl
    split at hl <;> omega
  have hb := splitMonth_bounds (n := n - daysBeforeYear (yearOf n))
    (by rw [monthLengths_sum]; omega) hlen
  simp only [monthLengths, List.length_cons, List.length_nil] at hb
  simp only [dateOf, monthLengths]
  omega

/-- Dates advance with the day number, most significant field first. -/
theorem dateOf_lt {a b : Nat} (h : a < b) :
    (dateOf a).year < (dateOf b).year ∨ ((dateOf a).year = (dateOf b).year ∧
      ((dateOf a).month < (dateOf b).month ∨ ((dateOf a).month = (dateOf b).month ∧
        (dateOf a).day < (dateOf b).day))) := by
  have ha := yearOf_spec a
  have hb := yearOf_spec b
  rcases Nat.lt_trichotomy (yearOf a) (yearOf b) with hy | hy | hy
  · exact Or.inl hy
  · have hs := @splitMonth_lt (monthLengths (yearOf b)) _ _
      (show a - daysBeforeYear (yearOf b) < b - daysBeforeYear (yearOf b) by rw [hy] at ha; omega)
    refine Or.inr ⟨hy, ?_⟩
    simp only [dateOf, hy]
    rcases hs with hs | ⟨hm, hd⟩
    · exact Or.inl (Nat.succ_lt_succ hs)
    · exact Or.inr ⟨congrArg (· + 1) hm, Nat.succ_lt_succ hd⟩
  · have := daysBeforeYear_mono (show yearOf b + 1 ≤ yearOf a from hy)
    omega

end Telegraph.Lib.Calendar
