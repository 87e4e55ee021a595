import Mathlib.Data.List.Forall2

/-! UTF-8 decoded with U+FFFD for what is malformed. -/

namespace Telegraph.Lib.Utf8

/-- The ranges of the bytes after a first byte, in well-formed UTF-8. -/
def following (first : Nat) : Option (List (Nat × Nat)) :=
  if first < 0x80 then some []
  else if first < 0xC2 then none
  else if first < 0xE0 then some [(0x80, 0xBF)]
  else if first = 0xE0 then some [(0xA0, 0xBF), (0x80, 0xBF)]
  else if first = 0xED then some [(0x80, 0x9F), (0x80, 0xBF)]
  else if first < 0xF0 then some [(0x80, 0xBF), (0x80, 0xBF)]
  else if first = 0xF0 then some [(0x90, 0xBF), (0x80, 0xBF), (0x80, 0xBF)]
  else if first < 0xF4 then some [(0x80, 0xBF), (0x80, 0xBF), (0x80, 0xBF)]
  else if first = 0xF4 then some [(0x80, 0x8F), (0x80, 0xBF), (0x80, 0xBF)]
  else none

/-- A byte in the range allowed for it. -/
def InRange (range : Nat × Nat) (b : UInt8) : Prop := range.1 ≤ b.toNat ∧ b.toNat ≤ range.2

instance (range : Nat × Nat) (b : UInt8) : Decidable (InRange range b) :=
  inferInstanceAs (Decidable (range.1 ≤ b.toNat ∧ b.toNat ≤ range.2))

/-- How many of the next bytes are in their ranges, up to the first that is not. -/
def accepted : List (Nat × Nat) → List UInt8 → Nat
  | range :: ranges, b :: bytes =>
    if InRange range b then accepted ranges bytes + 1 else 0
  | _, _ => 0

/-- What a first byte adds to a character of `more` further bytes. -/
def lead (first : Nat) : Nat → Nat
  | 0 => first
  | 1 => first - 0xC0
  | 2 => first - 0xE0
  | _ => first - 0xF0

def assemble (first : Nat) (more : List UInt8) : Char :=
  Char.ofNat (more.foldl (fun value b => value * 64 + (b.toNat - 0x80)) (lead first more.length))

def replacement : Char := Char.ofNat 0xFFFD

/-- One replacement stands for the longest start of a character that is cut off. -/
def decode : Nat → List UInt8 → List Char
  | 0, _ => []
  | _, [] => []
  | fuel + 1, b :: bytes =>
    match following b.toNat with
    | none => replacement :: decode fuel bytes
    | some ranges =>
      let n := accepted ranges bytes
      let c := if n = ranges.length then assemble b.toNat (bytes.take n) else replacement
      c :: decode fuel (bytes.drop n)

/-- The text of any bytes. -/
def lossy (bytes : List UInt8) : String := String.ofList (decode bytes.length bytes)

section Text
variable {ranges : List (Nat × Nat)} {more rest : List UInt8} {b : UInt8} {fuel : Nat}

theorem accepted_append (h : List.Forall₂ InRange ranges more) :
    accepted ranges (more ++ rest) = ranges.length := by
  induction h with
  | nil => rfl
  | cons hrange _ ih => rw [List.cons_append, accepted, if_pos hrange, ih, List.length_cons]

/-- A well-formed sequence is one character. -/
theorem decode_sequence {c : Char} (hb : following b.toNat = some ranges)
    (h : List.Forall₂ InRange ranges more) (hc : assemble b.toNat more = c) :
    decode (fuel + 1) (b :: (more ++ rest)) = c :: decode fuel rest := by
  rw [decode, hb]
  simp [accepted_append h, List.Forall₂.length_eq h, hc]

theorem assemble_two (first : Nat) (second : UInt8) :
    assemble first [second] = Char.ofNat ((first - 0xC0) * 64 + (second.toNat - 0x80)) := rfl

theorem assemble_three (first : Nat) (second third : UInt8) :
    assemble first [second, third] =
      Char.ofNat (((first - 0xE0) * 64 + (second.toNat - 0x80)) * 64 + (third.toNat - 0x80)) := rfl

theorem assemble_four (first : Nat) (second third fourth : UInt8) :
    assemble first [second, third, fourth] =
      Char.ofNat ((((first - 0xF0) * 64 + (second.toNat - 0x80)) * 64 + (third.toNat - 0x80)) * 64 +
        (fourth.toNat - 0x80)) := rfl

theorem toNat_ofNat {n : Nat} (h : n < 256) : (UInt8.ofNat n).toNat = n := by
  rw [UInt8.toNat_ofNat', Nat.mod_eq_of_lt h]

theorem following_two {first : Nat} (hl : 0xC2 ≤ first) (hu : first < 0xE0) :
    following first = some [(0x80, 0xBF)] := by
  simp only [following]
  grind

/-- The second of three bytes keeps clear of overlong forms and surrogates. -/
theorem following_three {first second third : UInt8} (hl : 0xE0 ≤ first.toNat) (hu : first.toNat < 0xF0)
    (hs : InRange (0x80, 0xBF) second) (ht : InRange (0x80, 0xBF) third)
    (hlow : first.toNat = 0xE0 → 0xA0 ≤ second.toNat)
    (hhigh : first.toNat = 0xED → second.toNat ≤ 0x9F) :
    ∃ ranges, following first.toNat = some ranges ∧ List.Forall₂ InRange ranges [second, third] := by
  by_cases h1 : first.toNat = 0xE0
  · refine ⟨[(0xA0, 0xBF), (0x80, 0xBF)], by simp [following, h1], ?_⟩
    exact .cons ⟨hlow h1, hs.2⟩ (.cons ht .nil)
  · by_cases h2 : first.toNat = 0xED
    · refine ⟨[(0x80, 0x9F), (0x80, 0xBF)], by simp [following, h2], ?_⟩
      exact .cons ⟨hs.1, hhigh h2⟩ (.cons ht .nil)
    · refine ⟨[(0x80, 0xBF), (0x80, 0xBF)], ?_, .cons hs (.cons ht .nil)⟩
      simp only [following]
      grind

theorem following_four {first second third fourth : UInt8} (hl : 0xF0 ≤ first.toNat)
    (hu : first.toNat ≤ 0xF4) (hs : InRange (0x80, 0xBF) second) (ht : InRange (0x80, 0xBF) third)
    (hf : InRange (0x80, 0xBF) fourth) (hlow : first.toNat = 0xF0 → 0x90 ≤ second.toNat)
    (hhigh : first.toNat = 0xF4 → second.toNat ≤ 0x8F) :
    ∃ ranges, following first.toNat = some ranges ∧
      List.Forall₂ InRange ranges [second, third, fourth] := by
  by_cases h1 : first.toNat = 0xF0
  · refine ⟨[(0x90, 0xBF), (0x80, 0xBF), (0x80, 0xBF)], by simp [following, h1], ?_⟩
    exact .cons ⟨hlow h1, hs.2⟩ (.cons ht (.cons hf .nil))
  · by_cases h2 : first.toNat = 0xF4
    · refine ⟨[(0x80, 0x8F), (0x80, 0xBF), (0x80, 0xBF)], by simp [following, h2], ?_⟩
      exact .cons ⟨hs.1, hhigh h2⟩ (.cons ht (.cons hf .nil))
    · refine ⟨[(0x80, 0xBF), (0x80, 0xBF), (0x80, 0xBF)], ?_, .cons hs (.cons ht (.cons hf .nil))⟩
      simp only [following]
      grind

theorem toNat_further (n : Nat) : (UInt8.ofNat (n % 0x40 + 0x80)).toNat = n % 0x40 + 0x80 :=
  toNat_ofNat (by omega)

theorem inRange_further (n : Nat) : InRange (0x80, 0xBF) (UInt8.ofNat (n % 0x40 + 0x80)) := by
  rw [InRange, toNat_further]
  omega

variable {v : Nat}

theorem decode_one (h : v ≤ 0x7F) :
    decode (fuel + 1) (UInt8.ofNat v :: rest) = Char.ofNat v :: decode fuel rest := by
  have hfirst : (UInt8.ofNat v).toNat = v := toNat_ofNat (by omega)
  have hnone : following (UInt8.ofNat v).toNat = some [] := by
    rw [hfirst, following, if_pos (by omega)]
  have hvalue : assemble (UInt8.ofNat v).toNat [] = Char.ofNat v := by
    rw [hfirst]
    rfl
  exact decode_sequence hnone .nil hvalue

theorem decode_two (hl : 0x7F < v) (hu : v ≤ 0x7FF) :
    decode (fuel + 1) (UInt8.ofNat (v / 64 % 0x20 + 0xC0) :: UInt8.ofNat (v % 0x40 + 0x80) :: rest) =
      Char.ofNat v :: decode fuel rest := by
  have hfirst : (UInt8.ofNat (v / 64 % 0x20 + 0xC0)).toNat = v / 64 % 0x20 + 0xC0 :=
    toNat_ofNat (by omega)
  have hone := following_two (by rw [hfirst]; omega : 0xC2 ≤ (UInt8.ofNat (v / 64 % 0x20 + 0xC0)).toNat)
    (by rw [hfirst]; omega)
  have hvalue : assemble (UInt8.ofNat (v / 64 % 0x20 + 0xC0)).toNat [UInt8.ofNat (v % 0x40 + 0x80)] =
      Char.ofNat v := by
    rw [assemble_two, hfirst, toNat_further]
    exact congrArg Char.ofNat (by omega)
  exact decode_sequence hone (.cons (inRange_further v) .nil) hvalue

theorem decode_three (hl : 0x7FF < v) (hu : v ≤ 0xFFFF) (hv : v < 0xD800 ∨ 0xDFFF < v) :
    decode (fuel + 1) (UInt8.ofNat (v / 4096 % 0x10 + 0xE0) ::
        UInt8.ofNat (v / 64 % 0x40 + 0x80) :: UInt8.ofNat (v % 0x40 + 0x80) :: rest) =
      Char.ofNat v :: decode fuel rest := by
  have hfirst : (UInt8.ofNat (v / 4096 % 0x10 + 0xE0)).toNat = v / 4096 % 0x10 + 0xE0 :=
    toNat_ofNat (by omega)
  obtain ⟨ranges, hfollowing, hranges⟩ := following_three
    (by rw [hfirst]; omega : 0xE0 ≤ (UInt8.ofNat (v / 4096 % 0x10 + 0xE0)).toNat)
    (by rw [hfirst]; omega) (inRange_further (v / 64)) (inRange_further v)
    (by rw [hfirst, toNat_further]; omega) (by rw [hfirst, toNat_further]; omega)
  have hvalue : assemble (UInt8.ofNat (v / 4096 % 0x10 + 0xE0)).toNat
      [UInt8.ofNat (v / 64 % 0x40 + 0x80), UInt8.ofNat (v % 0x40 + 0x80)] = Char.ofNat v := by
    rw [assemble_three, hfirst, toNat_further, toNat_further]
    exact congrArg Char.ofNat (by omega)
  exact decode_sequence hfollowing hranges hvalue

theorem decode_four (hl : 0xFFFF < v) (hu : v < 0x110000) :
    decode (fuel + 1) (UInt8.ofNat (v / 262144 % 0x08 + 0xF0) ::
        UInt8.ofNat (v / 4096 % 0x40 + 0x80) :: UInt8.ofNat (v / 64 % 0x40 + 0x80) ::
        UInt8.ofNat (v % 0x40 + 0x80) :: rest) =
      Char.ofNat v :: decode fuel rest := by
  have hfirst : (UInt8.ofNat (v / 262144 % 0x08 + 0xF0)).toNat = v / 262144 % 0x08 + 0xF0 :=
    toNat_ofNat (by omega)
  obtain ⟨ranges, hfollowing, hranges⟩ := following_four
    (by rw [hfirst]; omega : 0xF0 ≤ (UInt8.ofNat (v / 262144 % 0x08 + 0xF0)).toNat)
    (by rw [hfirst]; omega) (inRange_further (v / 4096)) (inRange_further (v / 64))
    (inRange_further v) (by rw [hfirst, toNat_further]; omega)
    (by rw [hfirst, toNat_further]; omega)
  have hvalue : assemble (UInt8.ofNat (v / 262144 % 0x08 + 0xF0)).toNat
      [UInt8.ofNat (v / 4096 % 0x40 + 0x80), UInt8.ofNat (v / 64 % 0x40 + 0x80),
        UInt8.ofNat (v % 0x40 + 0x80)] = Char.ofNat v := by
    rw [assemble_four, hfirst, toNat_further, toNat_further, toNat_further]
    exact congrArg Char.ofNat (by omega)
  exact decode_sequence hfollowing hranges hvalue

theorem encodeChar_eq (c : Char) : String.utf8EncodeChar c =
    if c.toNat ≤ 0x7F then [UInt8.ofNat c.toNat]
    else if c.toNat ≤ 0x7FF then
      [UInt8.ofNat (c.toNat / 64 % 0x20 + 0xC0), UInt8.ofNat (c.toNat % 0x40 + 0x80)]
    else if c.toNat ≤ 0xFFFF then
      [UInt8.ofNat (c.toNat / 4096 % 0x10 + 0xE0), UInt8.ofNat (c.toNat / 64 % 0x40 + 0x80),
        UInt8.ofNat (c.toNat % 0x40 + 0x80)]
    else
      [UInt8.ofNat (c.toNat / 262144 % 0x08 + 0xF0), UInt8.ofNat (c.toNat / 4096 % 0x40 + 0x80),
        UInt8.ofNat (c.toNat / 64 % 0x40 + 0x80), UInt8.ofNat (c.toNat % 0x40 + 0x80)] := by
  unfold String.utf8EncodeChar
  rfl

/-- The bytes of a character are decoded to it. -/
theorem decode_char (c : Char) (rest : List UInt8) (fuel : Nat) :
    decode (fuel + 1) (String.utf8EncodeChar c ++ rest) = c :: decode fuel rest := by
  have hvalid : c.toNat < 0xD800 ∨ 0xDFFF < c.toNat ∧ c.toNat < 0x110000 := c.valid
  have hc : Char.ofNat c.toNat = c := Char.ofNat_toNat c
  rw [encodeChar_eq]
  split
  · next h1 => rw [List.singleton_append, decode_one h1, hc]
  · next h1 =>
    split
    · next h2 => exact (decode_two (by omega) h2).trans (by rw [hc]; rfl)
    · next h2 =>
      split
      · next h3 => exact (decode_three (by omega) h3 (by omega)).trans (by rw [hc]; rfl)
      · next h3 => exact (decode_four (by omega) (by omega)).trans (by rw [hc]; rfl)

/-- Well-formed text is read as it was written. -/
theorem decode_text (l : List Char) (h : (l.flatMap String.utf8EncodeChar).length ≤ fuel) :
    decode fuel (l.flatMap String.utf8EncodeChar) = l := by
  induction l generalizing fuel with
  | nil => cases fuel <;> rfl
  | cons c l ih =>
    have hpos := c.utf8Size_pos
    rw [List.flatMap_cons, List.length_append, String.length_utf8EncodeChar] at h
    obtain ⟨fuel, rfl⟩ : ∃ n, fuel = n + 1 := ⟨fuel - 1, by omega⟩
    rw [List.flatMap_cons, decode_char, ih (by omega)]

/-- A text is decoded from its own bytes. -/
theorem lossy_text (s : String) : lossy (s.toList.flatMap String.utf8EncodeChar) = s := by
  rw [lossy, decode_text _ (Nat.le_refl _), String.ofList_toList]

/-- A character cut off after two of its three bytes, then a lone continuation byte. -/
example : (lossy [0xE2, 0x82, 0x21, 0x82]).toList = [replacement, '!', replacement] := by
  decide +kernel

end Text

end Telegraph.Lib.Utf8
