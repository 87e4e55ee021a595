import Telegraph.Proofs.Spelling

namespace Telegraph
open Lib

/-- `a`-`z` or `0`-`9` -/
def IsTagStart (c : Char) : Prop := (97 ≤ c.toNat ∧ c.toNat ≤ 122) ∨ (48 ≤ c.toNat ∧ c.toNat ≤ 57)

def IsTagChar (c : Char) : Prop := IsTagStart c ∨ c = '_' ∨ c = '-'

/-- What a tag looks like: 1 to 32 of these characters. -/
def IsTag (tag : String) : Prop :=
  ∃ first rest, tag.toList = first :: rest ∧ rest.length + 1 ≤ maxTagLen ∧ IsTagStart first ∧
    ∀ c ∈ rest, IsTagChar c

section Bytes

/-- The bytes of a text, character by character. -/
theorem utf8_toList (s : String) : utf8 s = s.toList.flatMap String.utf8EncodeChar := by
  rw [utf8, String.toUTF8_eq_toByteArray, ← String.utf8Encode_toList, List.utf8Encode,
    List.toList_data_toByteArray]

/-- Only the characters of ASCII have a byte below 128. -/
theorem ascii_of_byte {c : Char} {b : UInt8} (hb : b ∈ String.utf8EncodeChar c) (h : b.toNat < 128) :
    c.toNat = b.toNat := by
  have hhigh : ∀ n, 128 ≤ n → n < 256 → b ≠ UInt8.ofNat n := by
    intro n hn hlt he
    rw [he, UInt8.toNat_ofNat', Nat.mod_eq_of_lt (by omega)] at h
    omega
  simp only [String.utf8EncodeChar] at hb
  split at hb
  · next hsmall =>
    rw [List.mem_singleton] at hb
    rw [hb, UInt8.toNat_ofNat', Nat.mod_eq_of_lt (by omega)]
    rfl
  · split at hb
    · simp only [List.mem_cons, List.not_mem_nil, or_false] at hb
      rcases hb with hb | hb <;> exact absurd hb (hhigh _ (by omega) (by omega))
    · split at hb
      · simp only [List.mem_cons, List.not_mem_nil, or_false] at hb
        rcases hb with hb | hb | hb <;> exact absurd hb (hhigh _ (by omega) (by omega))
      · simp only [List.mem_cons, List.not_mem_nil, or_false] at hb
        rcases hb with hb | hb | hb | hb <;> exact absurd hb (hhigh _ (by omega) (by omega))

/-- A text whose bytes are visible ASCII. -/
theorem visible_of_bytes {s : String} (h : ∀ b ∈ utf8 s, 32 ≤ b.toNat ∧ b.toNat < 127) :
    Visible s := by
  intro c hc
  obtain ⟨b, hb⟩ := List.exists_mem_of_ne_nil _ (String.utf8EncodeChar_ne_nil (c := c))
  have hmem : b ∈ utf8 s := by
    rw [utf8_toList]
    exact List.mem_flatMap_of_mem hc hb
  have hrange := h b hmem
  rw [ascii_of_byte hb (by omega)]
  exact hrange

theorem tagStart_iff {c : Char} (h : c.toNat < 127) :
    (isAsciiLowercase c.toNat.toUInt8 || isAsciiDigit c.toNat.toUInt8) = true ↔ IsTagStart c := by
  have hn : c.toNat.toUInt8.toNat = c.toNat := Nat.mod_eq_of_lt (by omega)
  simp [isAsciiLowercase, isAsciiDigit, IsTagStart, UInt8.le_iff_toNat_le, hn]

theorem tagChar_iff {c : Char} (h : c.toNat < 127) :
    (isAsciiLowercase c.toNat.toUInt8 || isAsciiDigit c.toNat.toUInt8 || c.toNat.toUInt8 == 95 ||
      c.toNat.toUInt8 == 45) = true ↔ IsTagChar c := by
  have hn : c.toNat.toUInt8.toNat = c.toNat := Nat.mod_eq_of_lt (by omega)
  have hscore : c.toNat.toUInt8 = 95 ↔ c = '_' := by
    rw [← UInt8.toNat_inj, hn, ← Char.toNat_inj]
    rfl
  have hdash : c.toNat.toUInt8 = 45 ↔ c = '-' := by
    rw [← UInt8.toNat_inj, hn, ← Char.toNat_inj]
    rfl
  rw [Bool.or_eq_true, Bool.or_eq_true, tagStart_iff h, beq_iff_eq, beq_iff_eq, hscore, hdash,
    IsTagChar, or_assoc]

theorem IsTagStart.visible {c : Char} (h : IsTagStart c) : 32 ≤ c.toNat ∧ c.toNat < 127 := by
  rcases h with ⟨hl, hu⟩ | ⟨hl, hu⟩ <;> omega

theorem IsTagChar.visible {c : Char} (h : IsTagChar c) : 32 ≤ c.toNat ∧ c.toNat < 127 := by
  rcases h with h | rfl | rfl
  · exact h.visible
  · decide
  · decide

theorem IsTag.chars {tag : String} (h : IsTag tag) : ∀ c ∈ tag.toList, IsTagChar c := by
  obtain ⟨first, rest, hl, -, hfirst, hrest⟩ := h
  rw [hl]
  intro c hc
  rcases List.mem_cons.mp hc with rfl | hc
  · exact Or.inl hfirst
  · exact hrest c hc

/-- On visible text the check of the bytes is a check of the characters. -/
theorem isValidTag_visible {tag : String} (h : Visible tag) : isValidTag tag = true ↔ IsTag tag := by
  have hbytes : tag.toUTF8.data.toList = tag.toList.map fun c => c.toNat.toUInt8 := utf8_visible h
  unfold isValidTag IsTag
  rw [hbytes]
  cases hl : tag.toList with
  | nil => simp
  | cons first rest =>
    have hfirst := (h first (by simp [hl])).2
    have hrest : ∀ c ∈ rest, c.toNat < 127 := fun c hc => (h c (by simp [hl, hc])).2
    have hall : ((rest.map fun c => c.toNat.toUInt8).all fun b =>
        isAsciiLowercase b || isAsciiDigit b || b == 95 || b == 45) = true ↔
          ∀ c ∈ rest, IsTagChar c := by
      rw [List.all_map, List.all_eq_true]
      exact forall₂_congr fun c hc => tagChar_iff (hrest c hc)
    simp only [List.map_cons, Bool.and_eq_true, decide_eq_true_eq, List.length_map,
      tagStart_iff hfirst, hall]
    constructor
    · rintro ⟨⟨hlen, hs⟩, hr⟩
      exact ⟨first, rest, rfl, hlen, hs, hr⟩
    · rintro ⟨_, _, he, hlen, hs, hr⟩
      cases he
      exact ⟨⟨hlen, hs⟩, hr⟩

theorem valid_bytes {tag : String} (h : isValidTag tag = true) :
    ∀ b ∈ utf8 tag, 32 ≤ b.toNat ∧ b.toNat < 127 := by
  have hbyte : ∀ b : UInt8, (isAsciiLowercase b || isAsciiDigit b || b == 95 || b == 45) = true →
      32 ≤ b.toNat ∧ b.toNat < 127 := by
    intro b hb
    simp only [isAsciiLowercase, isAsciiDigit, Bool.or_eq_true, Bool.and_eq_true, decide_eq_true_eq,
      UInt8.le_iff_toNat_le, beq_iff_eq, ← UInt8.toNat_inj, UInt8.reduceToNat] at hb
    omega
  unfold isValidTag at h
  intro b hb
  change b ∈ tag.toUTF8.data.toList at hb
  cases hl : tag.toUTF8.data.toList with
  | nil =>
    rw [hl] at hb
    cases hb
  | cons first rest =>
    rw [hl] at h hb
    simp only [Bool.and_eq_true, decide_eq_true_eq, List.all_eq_true] at h
    apply hbyte
    rcases List.mem_cons.mp hb with rfl | hb
    · rw [h.1.2]
      rfl
    · exact h.2 b hb

/-- `is_valid_tag` accepts 1 to 32 bytes of `a`-`z`, `0`-`9`, `_` and `-`, the first a
letter or a digit. -/
theorem isValidTag_iff {tag : String} : isValidTag tag = true ↔ IsTag tag := by
  constructor
  · intro h
    exact (isValidTag_visible (visible_of_bytes (valid_bytes h))).mp h
  · intro h
    exact (isValidTag_visible fun c hc => (h.chars c hc).visible).mpr h

end Bytes

namespace Tags

section Canonical

theorem tagChar_fixed {c : Char} (h : IsTagChar c) : isWhitespace c = false ∧ c.toLower = c := by
  have hrange : c.toNat = 45 ∨ (48 ≤ c.toNat ∧ c.toNat ≤ 57) ∨ c.toNat = 95 ∨
      (97 ≤ c.toNat ∧ c.toNat ≤ 122) := by
    rcases h with (hletter | hdigit) | rfl | rfl
    · exact Or.inr (Or.inr (Or.inr hletter))
    · exact Or.inr (Or.inl hdigit)
    · exact Or.inr (Or.inr (Or.inl rfl))
    · exact Or.inl rfl
  constructor
  · simp only [isWhitespace, Bool.or_eq_false_iff, Bool.and_eq_false_iff, decide_eq_false_iff_not,
      beq_eq_false_iff_ne]
    omega
  · have hno : ¬ (c.val ≥ 'A'.val ∧ c.val ≤ 'Z'.val) := by
      rintro ⟨hl, hu⟩
      have hl' : 65 ≤ c.toNat := hl
      have hu' : c.toNat ≤ 90 := hu
      omega
    unfold Char.toLower
    rw [dif_neg hno]

/-- A tag is its own spelling. -/
theorem spelling_of_isTag {tag : String} (h : IsTag tag) : spelling tag = tag := by
  apply String.toList_injective
  rw [spelling, toList_toAsciiLowercase, toList_trim,
    Strip.strip_of_none fun c hc => (tagChar_fixed (h.chars c hc)).1]
  refine (List.map_congr_left fun c hc => ?_).trans (List.map_id _)
  exact (tagChar_fixed (h.chars c hc)).2

/-- Raw tags that differ in letter case, in surrounding whitespace and in repeated items. -/
inductive Redundant : List String → List String → Prop where
  | recased {l m : List String} {x y : String} : toAsciiLowercase x = toAsciiLowercase y →
      Redundant (l ++ x :: m) (l ++ y :: m)
  | padded {l m : List String} {x lead tail : String} :
      (∀ c ∈ lead.toList, isWhitespace c = true) → (∀ c ∈ tail.toList, isWhitespace c = true) →
      Redundant (l ++ x :: m) (l ++ (lead ++ x ++ tail) :: m)
  | repeated {l m : List String} {x : String} : x ∈ l → Redundant (l ++ m) (l ++ x :: m)
  | refl (l : List String) : Redundant l l
  | symm {l m : List String} : Redundant l m → Redundant m l
  | trans {l m n : List String} : Redundant l m → Redundant m n → Redundant l n

/-- Such tags have the same distinct spellings in the same order. -/
theorem Redundant.spellings {a b : List String} (h : Redundant a b) :
    (a.map spelling).eraseDups = (b.map spelling).eraseDups := by
  induction h with
  | recased he => simp [spelling_recased he]
  | padded hl ht => simp [spelling, trim_pad hl ht]
  | repeated hx =>
    rw [List.map_append, List.map_append, List.map_cons,
      FirstSeen.eraseDups_repeat (List.mem_map_of_mem hx)]
  | refl => rfl
  | symm _ ih => exact ih.symm
  | trans _ _ ih ih' => exact ih.trans ih'

/-- The trimmed, lowercased items, each where it occurs first. -/
def distinct (raw : List String) : List String := (raw.map spelling).eraseDups

/-- `Tags::new` by the distinct spellings of its items. -/
theorem new_distinct (raw : List String) : new raw =
    if maxTags < (distinct raw).length then .error (.tooMany (distinct raw).length maxTags)
    else ((distinct raw).find? fun tag => !isValidTag tag).elim (.ok ⟨distinct raw⟩) fun tag =>
      .error (.invalid tag) := by
  have he : normalize raw = distinct raw := normalize_spellings raw
  rw [new, he]
  cases (distinct raw).find? fun tag => !isValidTag tag <;> rfl

theorem new_ok_distinct {raw : List String} {tags : Tags} : new raw = .ok tags ↔
    tags.values = distinct raw ∧ (distinct raw).length ≤ maxTags ∧
      ∀ tag ∈ distinct raw, IsTag tag := by
  have he : normalize raw = distinct raw := normalize_spellings raw
  simp only [new_ok, he, isValidTag_iff]

/-- Tags that are their own spellings, each once, are what they come to. -/
theorem distinct_of_tags {tags : List String} (hn : tags.Nodup) (h : ∀ tag ∈ tags, IsTag tag) :
    distinct tags = tags := by
  have hmap : tags.map spelling = tags :=
    (List.map_congr_left fun tag ht => spelling_of_isTag (h tag ht)).trans (List.map_id _)
  rw [distinct, hmap, FirstSeen.eraseDups_of_nodup hn]

/-- What `Tags::new` computes. -/
structure Canonical (raw : List String) : Prop where
  nodup : (distinct raw).Nodup
  members : ∀ tag, tag ∈ distinct raw ↔ ∃ item ∈ raw, spelling item = tag
  ordered : (distinct raw).Pairwise fun a b =>
    (raw.map spelling).idxOf a < (raw.map spelling).idxOf b
  accepted : (∃ tags, new raw = .ok tags) ↔
    (distinct raw).length ≤ maxTags ∧ ∀ tag ∈ distinct raw, IsTag tag
  values : ∀ tags, new raw = .ok tags → tags.values = distinct raw
  stable : ∀ tags, new raw = .ok tags → new tags.values = .ok tags
  invariant : ∀ other, Redundant raw other → new other = new raw
  tooMany : maxTags < (distinct raw).length →
    new raw = .error (.tooMany (distinct raw).length maxTags)
  invalid : ∀ good tag rest, (distinct raw).length ≤ maxTags → distinct raw = good ++ tag :: rest →
    (∀ t ∈ good, IsTag t) → ¬ IsTag tag → new raw = .error (.invalid tag)

/-- `Tags::new` computes a canonical form. -/
theorem new_canonical (raw : List String) : Canonical raw where
  nodup := FirstSeen.eraseDups_nodup _
  members tag := by simp [distinct]
  ordered := FirstSeen.eraseDups_ordered _
  accepted := by
    constructor
    · rintro ⟨tags, h⟩
      exact (new_ok_distinct.mp h).2
    · intro h
      exact ⟨⟨distinct raw⟩, new_ok_distinct.mpr ⟨rfl, h⟩⟩
  values tags h := (new_ok_distinct.mp h).1
  stable tags h := by
    obtain ⟨hv, hlen, htags⟩ := new_ok_distinct.mp h
    have hsame : distinct tags.values = tags.values := by
      rw [hv]
      exact distinct_of_tags (FirstSeen.eraseDups_nodup _) htags
    exact new_ok_distinct.mpr ⟨hsame.symm, by rwa [hsame, hv], by rwa [hsame, hv]⟩
  invariant other h := by
    have hsame : distinct other = distinct raw := h.spellings.symm
    rw [new_distinct, new_distinct, hsame]
  tooMany h := by rw [new_distinct, if_pos h]
  invalid good tag rest hlen he hgood hbad := by
    have hrefused : isValidTag tag = false := by simpa [← isValidTag_iff] using hbad
    have hfind : ((distinct raw).find? fun tag => !isValidTag tag) = some tag := by
      rw [he, List.find?_append, List.find?_eq_none.mpr]
      · simp [hrefused]
      · intro t ht
        simpa [isValidTag_iff] using hgood t ht
    rw [new_distinct, if_neg (by omega), hfind, Option.elim_some]

end Canonical
end Tags
end Telegraph
