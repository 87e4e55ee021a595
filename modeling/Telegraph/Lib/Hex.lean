import Mathlib.Data.List.Basic

namespace Telegraph.Lib.Hex

/-- The lowercase digits `0`-`9` and `a`-`f`. -/
def digit (n : Nat) : Char := Char.ofNat (if n < 10 then 48 + n else 87 + n)

def pair (b : UInt8) : List Char := [digit (b.toNat / 16), digit (b.toNat % 16)]

def text (bytes : List UInt8) : String := String.ofList (bytes.flatMap pair)

theorem digit_inj {m n : Nat} (hm : m < 16) (hn : n < 16) (h : digit m = digit n) : m = n := by
  have all : ∀ a < 16, ∀ b < 16, digit a = digit b → a = b := by decide
  exact all m hm n hn h

theorem pair_inj {a b : UInt8} (h : pair a = pair b) : a = b := by
  have ha := a.toNat_lt
  have hb := b.toNat_lt
  simp only [pair, List.cons.injEq, and_true] at h
  have hhigh := digit_inj (by omega) (by omega) h.1
  have hlow := digit_inj (by omega) (by omega) h.2
  apply UInt8.toNat_inj.mp
  omega

/-- No two byte strings have the same text. -/
theorem text_inj {a b : List UInt8} (h : text a = text b) : a = b := by
  replace h : a.flatMap pair = b.flatMap pair := String.ofList_injective h
  induction a generalizing b with
  | nil =>
    cases b with
    | nil => rfl
    | cons y b => simp [pair] at h
  | cons x a ih =>
    cases b with
    | nil => simp [pair] at h
    | cons y b =>
      rw [List.flatMap_cons, List.flatMap_cons] at h
      obtain ⟨hp, hr⟩ := List.append_inj h rfl
      rw [pair_inj hp, ih hr]

theorem text_ne {bytes : List UInt8} (h : bytes ≠ []) : text bytes ≠ "" := by
  obtain ⟨b, bytes, rfl⟩ := List.exists_cons_of_ne_nil h
  simp [text, pair]

/-- A text has digits only. -/
theorem mem_text {bytes : List UInt8} {c : Char} (h : c ∈ (text bytes).toList) :
    ∃ n < 16, c = digit n := by
  rw [text, String.toList_ofList, List.mem_flatMap] at h
  obtain ⟨b, _, hc⟩ := h
  have hb := b.toNat_lt
  simp only [pair, List.mem_cons, List.not_mem_nil, or_false] at hc
  rcases hc with rfl | rfl
  · exact ⟨_, by omega, rfl⟩
  · exact ⟨_, by omega, rfl⟩

end Telegraph.Lib.Hex
