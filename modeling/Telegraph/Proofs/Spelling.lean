import Telegraph.Lib.FirstSeen
import Telegraph.Lib.Strip
import Telegraph.Tags

namespace Telegraph
open Lib

theorem toList_trim (s : String) : (trim s).toList = strip isWhitespace s.toList :=
  String.toList_ofList

/-- Whitespace around a text does not show in its trimmed form. -/
theorem trim_pad {lead tail : String} (hl : ∀ c ∈ lead.toList, isWhitespace c = true)
    (ht : ∀ c ∈ tail.toList, isWhitespace c = true) (s : String) :
    trim (lead ++ s ++ tail) = trim s := by
  apply String.toList_injective
  rw [toList_trim, toList_trim, String.toList_append, String.toList_append, Strip.strip_pad hl ht]

theorem isWhitespace_letter {c : Char} (hl : 65 ≤ c.toNat) (hu : c.toNat ≤ 122) :
    isWhitespace c = false := by
  simp only [isWhitespace, Bool.or_eq_false_iff, Bool.and_eq_false_iff, decide_eq_false_iff_not,
    beq_eq_false_iff_ne]
  omega

theorem isWhitespace_toLower (c : Char) : isWhitespace c.toLower = isWhitespace c := by
  by_cases h : c.val ≥ 'A'.val ∧ c.val ≤ 'Z'.val
  · have hl : 65 ≤ c.toNat := h.1
    have hu : c.toNat ≤ 90 := h.2
    have hn : c.toLower.toNat = c.toNat + 32 := by
      unfold Char.toLower
      rw [dif_pos h]
      change (c.val + ('a'.val - 'A'.val)).toNat = c.val.toNat + 32
      rw [UInt32.toNat_add]
      exact Nat.mod_eq_of_lt (Nat.lt_of_le_of_lt (Nat.add_le_add_right hu _) (by decide))
    rw [isWhitespace_letter (by omega) (by omega), isWhitespace_letter hl (by omega)]
  · unfold Char.toLower
    rw [dif_neg h]

theorem toList_toAsciiLowercase (s : String) :
    (toAsciiLowercase s).toList = s.toList.map Char.toLower :=
  String.toList_ofList

/-- Letter case and surrounding whitespace do not get in each other's way. -/
theorem toAsciiLowercase_trim (s : String) : toAsciiLowercase (trim s) = trim (toAsciiLowercase s) := by
  apply String.toList_injective
  rw [toList_toAsciiLowercase, toList_trim, toList_trim, toList_toAsciiLowercase,
    Strip.strip_map fun c _ => isWhitespace_toLower c]

/-- The form a raw tag is compared in. -/
def spelling (item : String) : String := toAsciiLowercase (trim item)

theorem spelling_recased {a b : String} (h : toAsciiLowercase a = toAsciiLowercase b) :
    spelling a = spelling b := by
  rw [spelling, spelling, toAsciiLowercase_trim, toAsciiLowercase_trim, h]

namespace Tags

/-- One pass of the loop of `Tags::new`. -/
def add (normalized : List String) (item : String) : List String :=
  if normalized.contains (spelling item) then normalized else normalized ++ [spelling item]

theorem normalize_eq (raw : List String) : normalize raw = raw.foldl add [] := rfl

/-- The distinct spellings, in order of first occurrence. -/
theorem normalize_spellings (raw : List String) :
    normalize raw = (raw.map spelling).eraseDups := by
  rw [normalize_eq]
  exact FirstSeen.foldl_push spelling raw []

theorem mem_normalize {raw : List String} {tag : String} :
    tag ∈ normalize raw ↔ ∃ item ∈ raw, spelling item = tag := by
  rw [normalize_spellings, List.mem_eraseDups, List.mem_map]

theorem nodup_normalize (raw : List String) : (normalize raw).Nodup := by
  rw [normalize_spellings]
  exact FirstSeen.eraseDups_nodup _

theorem new_ok {raw : List String} {tags : Tags} : new raw = .ok tags ↔
    tags.values = normalize raw ∧ (normalize raw).length ≤ maxTags ∧
      ∀ tag ∈ normalize raw, isValidTag tag = true := by
  unfold new
  dsimp only
  split
  · next hmany =>
    constructor
    · intro h
      cases h
    · intro h
      omega
  · next hfew =>
    cases hf : (normalize raw).find? fun tag => !isValidTag tag with
    | some tag =>
      simp only [reduceCtorEq, false_iff, not_and]
      intro _ _ h
      have := h tag (List.mem_of_find?_eq_some hf)
      have hbad := List.find?_some hf
      simp [this] at hbad
    | none =>
      have hgood : ∀ tag ∈ normalize raw, isValidTag tag = true := by
        simpa using List.find?_eq_none.mp hf
      constructor
      · intro h
        cases h
        exact ⟨rfl, by omega, hgood⟩
      · rintro ⟨hv, -, -⟩
        rw [← hv]

theorem intersects_iff {a b : Tags} : a.intersects b = true ↔ ∃ tag ∈ a.values, tag ∈ b.values := by
  simp [intersects]

/-- The same tags, written another way. -/
inductive Respelled : List String → List String → Prop where
  | permuted {a b : List String} : a.Perm b → Respelled a b
  | duplicated {a : List String} {x : String} : x ∈ a → Respelled a (x :: a)
  | recased {a : List String} {x y : String} :
      toAsciiLowercase x = toAsciiLowercase y → Respelled (x :: a) (y :: a)
  | padded {a : List String} {x lead tail : String} :
      (∀ c ∈ lead.toList, isWhitespace c = true) → (∀ c ∈ tail.toList, isWhitespace c = true) →
      Respelled (x :: a) ((lead ++ x ++ tail) :: a)
  | symm {a b : List String} : Respelled a b → Respelled b a
  | trans {a b c : List String} : Respelled a b → Respelled b c → Respelled a c

theorem Respelled.refl (a : List String) : Respelled a a := .permuted (List.Perm.refl a)

theorem Respelled.mem_normalize {a b : List String} (h : Respelled a b) (tag : String) :
    tag ∈ normalize a ↔ tag ∈ normalize b := by
  induction h with
  | permuted hp =>
    simp only [Tags.mem_normalize]
    exact ⟨fun ⟨x, hx, he⟩ => ⟨x, hp.subset hx, he⟩, fun ⟨x, hx, he⟩ => ⟨x, hp.symm.subset hx, he⟩⟩
  | duplicated hx =>
    simp only [Tags.mem_normalize, List.exists_mem_cons_iff]
    exact ⟨Or.inr, fun h => h.elim (fun he => ⟨_, hx, he⟩) id⟩
  | recased he => simp only [Tags.mem_normalize, List.exists_mem_cons_iff, spelling_recased he]
  | padded hl ht =>
    simp only [Tags.mem_normalize, List.exists_mem_cons_iff, spelling, trim_pad hl ht]
  | symm _ ih => exact ih.symm
  | trans _ _ ih ih' => exact ih.trans ih'

/-- Another spelling is accepted too, and stands for the same tags. -/
theorem Respelled.new {a b : List String} {tags : Tags} (h : Respelled a b)
    (ha : Tags.new a = .ok tags) : ∃ tags', Tags.new b = .ok tags' ∧
      ∀ tag, tag ∈ tags'.values ↔ tag ∈ tags.values := by
  obtain ⟨hv, hlen, hgood⟩ := new_ok.mp ha
  have hperm : (normalize a).Perm (normalize b) :=
    (List.perm_ext_iff_of_nodup (nodup_normalize a) (nodup_normalize b)).mpr h.mem_normalize
  refine ⟨⟨normalize b⟩, new_ok.mpr ⟨rfl, hperm.length_eq ▸ hlen, fun tag ht => ?_⟩, fun tag => ?_⟩
  · exact hgood tag ((h.mem_normalize tag).mpr ht)
  · rw [hv]
    exact (h.mem_normalize tag).symm

end Tags

/-- The bytes of a text as a Client sends it. -/
def utf8 (s : String) : List UInt8 := s.toUTF8.data.toList

/-- Visible ASCII and spaces. -/
def Visible (s : String) : Prop := ∀ c ∈ s.toList, 32 ≤ c.toNat ∧ c.toNat < 127

instance (s : String) : Decidable (Visible s) :=
  List.decidableBAll (fun c : Char => 32 ≤ c.toNat ∧ c.toNat < 127) s.toList

theorem utf8EncodeChar_ascii {c : Char} (h : c.toNat < 128) :
    String.utf8EncodeChar c = [c.toNat.toUInt8] := by
  have hv : c.val ≤ 0x7f := by
    rw [UInt32.le_iff_toNat_le]
    exact Nat.le_of_lt_succ h
  rw [String.utf8EncodeChar_eq_singleton (by simp [Char.utf8Size, hv])]
  rfl

theorem utf8_ascii {s : String} (h : ∀ c ∈ s.toList, c.toNat < 128) :
    utf8 s = s.toList.map fun c => c.toNat.toUInt8 := by
  have hbytes : ∀ l : List Char, (∀ c ∈ l, c.toNat < 128) →
      l.flatMap String.utf8EncodeChar = l.map fun c => c.toNat.toUInt8 := by
    intro l hl
    induction l with
    | nil => rfl
    | cons c l ih =>
      rw [List.flatMap_cons, utf8EncodeChar_ascii (hl c List.mem_cons_self),
        ih fun d hd => hl d (List.mem_cons_of_mem c hd)]
      rfl
  rw [utf8, String.toUTF8_eq_toByteArray, ← String.utf8Encode_toList, List.utf8Encode,
    List.toList_data_toByteArray, hbytes _ h]

theorem utf8_visible {s : String} (h : Visible s) :
    utf8 s = s.toList.map fun c => c.toNat.toUInt8 :=
  utf8_ascii fun c hc => Nat.lt_succ_of_lt (h c hc).2

end Telegraph
