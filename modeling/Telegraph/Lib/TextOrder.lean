import Mathlib.Data.List.Lex
import Mathlib.Data.List.DropRight
import Mathlib.Data.Char
import Mathlib.Tactic.IntervalCases

namespace Telegraph.Lib.TextOrder

section Lex
variable {α : Type} [LinearOrder α]

/-- Fixed-width fields compare field by field. -/
theorem append_lt_append_iff {x y u v : List α} (h : x.length = y.length) :
    x ++ u < y ++ v ↔ x < y ∨ (x = y ∧ u < v) := by
  induction x generalizing y with
  | nil =>
    cases y with
    | nil => simp
    | cons b ys => simp at h
  | cons a xs ih =>
    cases y with
    | nil => simp at h
    | cons b ys =>
      have hl : xs.length = ys.length := by simpa using h
      simp only [List.cons_append, List.cons_lt_cons_iff, ih hl, List.cons.injEq]
      tauto

theorem append_lt_append_left_iff {x u v : List α} : x ++ u < x ++ v ↔ u < v := by
  rw [append_lt_append_iff rfl]
  simp

/-- A proper prefix is the smaller text. -/
theorem lt_of_prefix {x y : List α} (h : x <+: y) (hne : x ≠ y) : x < y := by
  obtain ⟨r, rfl⟩ := h
  cases r with
  | nil => simp at hne
  | cons a r =>
    have hx : x ++ [] < x ++ a :: r := append_lt_append_left_iff.mpr (List.nil_lt_cons a r)
    simpa using hx

/-- A terminator above every symbol turns a proper prefix into the larger text. -/
theorem terminated_gt_of_prefix {x y : List α} {z : α} (hy : ∀ a ∈ y, a < z)
    (h : x <+: y) (hne : x ≠ y) : y ++ [z] < x ++ [z] := by
  obtain ⟨r, rfl⟩ := h
  cases r with
  | nil => simp at hne
  | cons a r =>
    rw [List.append_assoc, append_lt_append_left_iff, List.cons_append, List.cons_lt_cons_iff]
    exact Or.inl (hy a (by simp))

/-- Texts that differ before either ends compare there, terminator or not. -/
theorem terminated_lt_iff {x y : List α} (z : α) (hxy : ¬ x <+: y) (hyx : ¬ y <+: x) :
    x ++ [z] < y ++ [z] ↔ x < y := by
  induction x generalizing y with
  | nil => simp at hxy
  | cons a xs ih =>
    cases y with
    | nil => simp at hyx
    | cons b ys =>
      simp only [List.cons_append, List.cons_lt_cons_iff]
      by_cases hab : a = b
      · subst b
        simp only [List.prefix_cons_inj] at hxy hyx
        simp only [lt_self_iff_false, true_and, false_or]
        exact ih hxy hyx
      · simp [hab]

/-- Stripping a least symbol from the ends of two equally long texts keeps
their order. -/
theorem lt_of_padded_lt {x y : List α} {z : α} {i j : Nat}
    (hx : ∀ a ∈ x, z ≤ a) (hl : x.length + i = y.length + j)
    (h : x ++ List.replicate i z < y ++ List.replicate j z) : x < y := by
  induction x generalizing y i j with
  | nil =>
    cases y with
    | nil =>
      have hij : i = j := by simpa using hl
      subst j
      exact absurd h (lt_irrefl _)
    | cons b ys => exact List.nil_lt_cons b ys
  | cons a xs ih =>
    have hxs : ∀ b ∈ xs, z ≤ b := fun b hb => hx b (List.mem_cons_of_mem _ hb)
    cases y with
    | nil =>
      cases j with
      | zero => simp at hl
      | succ j =>
        rw [List.nil_append, List.replicate_succ, List.cons_append, List.cons_lt_cons_iff] at h
        rcases h with h | ⟨_, h⟩
        · exact absurd h (not_lt.mpr (hx a (by simp)))
        · have ht := ih (y := []) (i := i) (j := j) hxs
            (by simp only [List.length_cons, List.length_nil] at hl ⊢; omega) (by simpa using h)
          exact absurd ht (List.not_lt_nil xs)
    | cons b ys =>
      rw [List.cons_append, List.cons_append, List.cons_lt_cons_iff] at h
      rw [List.cons_lt_cons_iff]
      rcases h with h | ⟨he, h⟩
      · exact Or.inl h
      · exact Or.inr ⟨he, ih hxs (by simp only [List.length_cons] at hl; omega) h⟩

end Lex

/-- The decimal digit `d`, for `d < 10`. -/
def digit (d : Nat) : Char := Char.ofNat (48 + d)

theorem digit_lt_iff {d e : Nat} (hd : d < 10) (he : e < 10) : digit d < digit e ↔ d < e := by
  interval_cases d <;> interval_cases e <;> decide

theorem digit_inj {d e : Nat} (hd : d < 10) (he : e < 10) (h : digit d = digit e) : d = e := by
  rcases Nat.lt_trichotomy d e with hlt | heq | hlt
  · exact absurd ((digit_lt_iff hd he).mpr hlt) (h ▸ lt_irrefl _)
  · exact heq
  · exact absurd ((digit_lt_iff he hd).mpr hlt) (h ▸ lt_irrefl _)

theorem digit_range {d : Nat} (hd : d < 10) : '0' ≤ digit d ∧ digit d ≤ '9' := by
  interval_cases d <;> decide

/-- The last `w` decimal digits of `n`, most significant first. -/
def padded : Nat → Nat → List Char
  | 0, _ => []
  | w + 1, n => padded w (n / 10) ++ [digit (n % 10)]

@[simp] theorem padded_length (w n : Nat) : (padded w n).length = w := by
  induction w generalizing n with
  | zero => rfl
  | succ w ih => simp [padded, ih]

theorem padded_range (w n : Nat) : ∀ c ∈ padded w n, '0' ≤ c ∧ c ≤ '9' := by
  induction w generalizing n with
  | zero => simp [padded]
  | succ w ih =>
    intro c hc
    rcases List.mem_append.mp hc with hc | hc
    · exact ih _ c hc
    · rw [List.mem_singleton.mp hc]
      exact digit_range (Nat.mod_lt _ (by decide))

theorem padded_inj {w a b : Nat} (ha : a < 10 ^ w) (hb : b < 10 ^ w)
    (h : padded w a = padded w b) : a = b := by
  induction w generalizing a b with
  | zero => simp at ha hb; omega
  | succ w ih =>
    obtain ⟨hq, hr⟩ := List.append_inj h (by simp)
    have hd := digit_inj (Nat.mod_lt _ (by decide)) (Nat.mod_lt _ (by decide)) (List.singleton_inj.mp hr)
    have hi := ih (by rw [pow_succ] at ha; omega) (by rw [pow_succ] at hb; omega) hq
    omega

theorem padded_eq_iff {w a b : Nat} (ha : a < 10 ^ w) (hb : b < 10 ^ w) :
    padded w a = padded w b ↔ a = b :=
  ⟨padded_inj ha hb, congrArg _⟩

/-- Numerals of one width compare as numbers. -/
theorem padded_lt_iff {w a b : Nat} (ha : a < 10 ^ w) (hb : b < 10 ^ w) :
    padded w a < padded w b ↔ a < b := by
  induction w generalizing a b with
  | zero => simp at ha hb; simp [padded, ha, hb]
  | succ w ih =>
    have ha' : a / 10 < 10 ^ w := by rw [pow_succ] at ha; omega
    have hb' : b / 10 < 10 ^ w := by rw [pow_succ] at hb; omega
    rw [padded, padded, append_lt_append_iff (by simp), ih ha' hb', List.cons_lt_cons_iff,
      digit_lt_iff (Nat.mod_lt _ (by decide)) (Nat.mod_lt _ (by decide))]
    constructor
    · rintro (h | ⟨he, h | ⟨_, h⟩⟩)
      · omega
      · have := padded_inj ha' hb' he
        omega
      · exact absurd h (lt_irrefl _)
    · intro h
      rcases Nat.lt_or_ge (a / 10) (b / 10) with hq | hq
      · exact Or.inl hq
      · have he : a / 10 = b / 10 := by omega
        exact Or.inr ⟨congrArg _ he, Or.inl (by omega)⟩

/-- A numeral without its trailing zeros. -/
def significant (w n : Nat) : List Char := (padded w n).rdropWhile (· == '0')

theorem padded_eq_significant (w n : Nat) :
    ∃ k, padded w n = significant w n ++ List.replicate k '0' := by
  refine ⟨((padded w n).rtakeWhile (· == '0')).length, ?_⟩
  have hz : ∀ c ∈ (padded w n).rtakeWhile (· == '0'), c = '0' := by
    intro c hc
    simpa using List.mem_rtakeWhile_imp hc
  rw [← List.eq_replicate_of_mem hz]
  exact (List.rdropWhile_append_rtakeWhile (p := (· == '0'))).symm

theorem significant_range (w n : Nat) : ∀ c ∈ significant w n, '0' ≤ c ∧ c ≤ '9' := by
  intro c hc
  exact padded_range w n c ((List.rdropWhile_prefix _ _).subset hc)

theorem significant_nil_iff {w n : Nat} (hn : n < 10 ^ w) : significant w n = [] ↔ n = 0 := by
  have hz : padded w 0 = List.replicate w '0' := by
    clear hn
    induction w with
    | zero => rfl
    | succ w ih =>
      rw [padded, Nat.zero_div, ih, List.replicate_succ']
      rfl
  constructor
  · intro h
    obtain ⟨k, hk⟩ := padded_eq_significant w n
    rw [h, List.nil_append] at hk
    have hl : w = k := by simpa using congrArg List.length hk
    subst hl
    exact padded_inj hn (by positivity) (hk.trans hz.symm)
  · rintro rfl
    rw [significant, hz, List.rdropWhile_eq_nil_iff]
    intro c hc
    simpa using List.eq_of_mem_replicate hc

/-- Fractions compare as numbers even after their trailing zeros are gone. -/
theorem significant_lt_iff {w a b : Nat} (ha : a < 10 ^ w) (hb : b < 10 ^ w) :
    significant w a < significant w b ↔ a < b := by
  have step : ∀ {m n}, m < 10 ^ w → n < 10 ^ w → m < n → significant w m < significant w n := by
    intro m n hm hn h
    obtain ⟨i, hi⟩ := padded_eq_significant w m
    obtain ⟨j, hj⟩ := padded_eq_significant w n
    have hlt := (padded_lt_iff hm hn).mpr h
    have hl := congrArg List.length hi
    have hr := congrArg List.length hj
    rw [padded_length, List.length_append, List.length_replicate] at hl hr
    rw [hi, hj] at hlt
    exact lt_of_padded_lt (fun c hc => (significant_range w m c hc).1) (by omega) hlt
  constructor
  · intro h
    rcases Nat.lt_trichotomy a b with hlt | heq | hlt
    · exact hlt
    · exact absurd h (heq ▸ lt_irrefl _)
    · exact absurd (h.trans (step hb ha hlt)) (lt_irrefl _)
  · exact step ha hb

end Telegraph.Lib.TextOrder
