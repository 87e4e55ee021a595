import Telegraph.Api

namespace Telegraph
open Lib Api

/-- A field as it was sent: its name and its whole content. -/
structure SentField where
  name : Option String
  content : Bytes
deriving DecidableEq

namespace SentField

def IsAudio (f : SentField) : Prop := f.name = some "audio"

def IsText (f : SentField) : Prop := f.name = some "tags" ∨ f.name = some "recorded_at"

instance (f : SentField) : Decidable f.IsAudio := inferInstanceAs (Decidable (_ = _))
instance (f : SentField) : Decidable f.IsText := inferInstanceAs (Decidable (_ ∨ _))

/-- The content as text, if it is UTF-8. -/
def text (f : SentField) : Option String := String.fromUTF8? ⟨f.content.toArray⟩

end SentField

/-- What an upload's fields come to. -/
structure Intake where
  audio : Option Bytes
  tagsRaw : Option String
  recordedAtRaw : Option String
  total : Nat
deriving DecidableEq

namespace Intake

def empty : Intake := ⟨none, none, none, 0⟩

/-- A field over the budget of `max` bytes, or over the limit of its own that a text
field has. -/
def TooLarge (max : Nat) (i : Intake) (f : SentField) : Prop :=
  max < i.total + f.content.length ∨ f.IsText ∧ maxTextFieldBytes < f.content.length

instance (max : Nat) (i : Intake) (f : SentField) : Decidable (TooLarge max i f) :=
  inferInstanceAs (Decidable (_ ∨ _))

def add (i : Intake) (f : SentField) : Intake where
  audio := if f.IsAudio then some f.content else i.audio
  tagsRaw := if f.name = some "tags" then f.text else i.tagsRaw
  recordedAtRaw := if f.name = some "recorded_at" then f.text else i.recordedAtRaw
  total := i.total + f.content.length

/-- One whole field. -/
def takeField (max : Nat) (i : Intake) (f : SentField) : Except ApiError Intake :=
  if f.IsAudio ∧ i.audio.isSome = true then .error .multipleAudio
  else if TooLarge max i f then .error .payloadTooLarge
  else if f.IsText ∧ f.text = none then .error .invalidMultipart
  else .ok (i.add f)

def takeFields (max : Nat) : Intake → List SentField → Except ApiError Intake
  | i, [] => .ok i
  | i, f :: rest =>
    match takeField max i f with
    | .ok next => takeFields max next rest
    | .error e => .error e

/-- All bytes of these fields. -/
def size (fields : List SentField) : Nat := (fields.map fun f => f.content.length).sum

def audios (fields : List SentField) : List SentField := fields.filter fun f => f.IsAudio

section Limits
variable {max : Nat} {i j : Intake} {f : SentField} {fields : List SentField}

@[simp] theorem add_total : (i.add f).total = i.total + f.content.length := rfl

theorem add_audio_of (h : f.IsAudio) : (i.add f).audio = some f.content := if_pos h

theorem add_audio_other (h : ¬ f.IsAudio) : (i.add f).audio = i.audio := if_neg h

@[simp] theorem size_nil : size [] = 0 := rfl
@[simp] theorem size_cons : size (f :: fields) = f.content.length + size fields := rfl

theorem takeField_ok (h : takeField max i f = .ok j) :
    j = i.add f ∧ ¬ (f.IsAudio ∧ i.audio.isSome = true) ∧ ¬ TooLarge max i f ∧
      ¬ (f.IsText ∧ f.text = none) := by
  unfold takeField at h
  split at h
  · cases h
  · next haudio =>
    split at h
    · cases h
    · next hlarge =>
      split at h
      · cases h
      · next htext =>
        cases h
        exact ⟨rfl, haudio, hlarge, htext⟩

theorem takeField_tooLarge_iff : takeField max i f = .error .payloadTooLarge ↔
    ¬ (f.IsAudio ∧ i.audio.isSome = true) ∧ TooLarge max i f := by
  unfold takeField
  split
  · next haudio => simp [haudio]
  · next haudio =>
    split
    · next hlarge => simp [haudio, hlarge]
    · next hlarge =>
      split <;> simp [hlarge]

/-- Accepted fields are within the budget, and each text field within its own limit. -/
theorem takeFields_within (h : takeFields max i fields = .ok j) (hi : i.total ≤ max) :
    j.total = i.total + size fields ∧ j.total ≤ max ∧
      ∀ f ∈ fields, f.IsText → f.content.length ≤ maxTextFieldBytes := by
  induction fields generalizing i with
  | nil =>
    cases h
    simp [hi]
  | cons f fields ih =>
    simp only [takeFields] at h
    cases hf : takeField max i f with
    | error e =>
      rw [hf] at h
      cases h
    | ok next =>
      rw [hf] at h
      obtain ⟨rfl, -, hlarge, -⟩ := takeField_ok hf
      simp only [TooLarge, not_or, Nat.not_lt, not_and] at hlarge
      obtain ⟨htotal, hmax, htexts⟩ := ih h hlarge.1
      refine ⟨?_, hmax, ?_⟩
      · rw [htotal, size_cons, add_total, Nat.add_assoc]
      · intro g hg
        rcases List.mem_cons.mp hg with rfl | hg
        · exact hlarge.2
        · exact htexts g hg

theorem audios_cons_of (h : f.IsAudio) : audios (f :: fields) = f :: audios fields := by
  simp [audios, h]

theorem audios_cons_other (h : ¬ f.IsAudio) : audios (f :: fields) = audios fields := by
  simp [audios, h]

/-- The audio taken in is the content of the only `audio` field. -/
theorem takeFields_audio (h : takeFields max i fields = .ok j) :
    (audios fields = [] ∧ j.audio = i.audio) ∨
    ∃ f, audios fields = [f] ∧ i.audio = none ∧ j.audio = some f.content := by
  induction fields generalizing i with
  | nil =>
    cases h
    exact Or.inl ⟨rfl, rfl⟩
  | cons f fields ih =>
    simp only [takeFields] at h
    cases hf : takeField max i f with
    | error e =>
      rw [hf] at h
      cases h
    | ok next =>
      rw [hf] at h
      obtain ⟨rfl, honce, -, -⟩ := takeField_ok hf
      by_cases ha : f.IsAudio
      · have hnone : i.audio = none := by simpa [ha] using honce
        rw [audios_cons_of ha]
        rcases ih h with ⟨hrest, hj⟩ | ⟨g, -, hno, -⟩
        · exact Or.inr ⟨f, by rw [hrest], hnone, by rw [hj, add_audio_of ha]⟩
        · rw [add_audio_of ha] at hno
          cases hno
      · rw [audios_cons_other ha]
        have hsame := ih h
        rwa [add_audio_other ha] at hsame

/-- The budget, or a text field's own limit, is exceeded at some field, and no second
`audio` field and no text field that is not UTF-8 comes before. -/
def Exceeds (max : Nat) (i : Intake) (fields : List SentField) : Prop :=
  ∃ earlier f later, fields = earlier ++ f :: later ∧
    i.audio.toList.length + (audios (earlier ++ [f])).length ≤ 1 ∧
    (∀ g ∈ earlier, g.IsText → g.text ≠ none) ∧
    (max < i.total + size (earlier ++ [f]) ∨ f.IsText ∧ maxTextFieldBytes < f.content.length)

theorem exceeds_here (hnot : ¬ (f.IsAudio ∧ i.audio.isSome = true)) (h : TooLarge max i f) :
    Exceeds max i (f :: fields) := by
  refine ⟨[], f, fields, rfl, ?_, by simp, ?_⟩
  · by_cases ha : f.IsAudio
    · have hnone : i.audio = none := by simpa [ha] using hnot
      simp [hnone, audios, ha]
    · cases i.audio <;> simp [audios, ha]
  · simpa [TooLarge] using h

/-- Past an accepted field the question is the same about the rest. -/
theorem exceeds_cons (hok : takeField max i f = .ok (i.add f)) :
    Exceeds max i (f :: fields) ↔ Exceeds max (i.add f) fields := by
  obtain ⟨-, honce, hlarge, htext⟩ := takeField_ok hok
  have hcount : ∀ l, i.audio.toList.length + (audios (f :: l)).length =
      (i.add f).audio.toList.length + (audios l).length := by
    intro l
    by_cases ha : f.IsAudio
    · have hnone : i.audio = none := by simpa [ha] using honce
      rw [audios_cons_of ha, add_audio_of ha, hnone]
      simp [Nat.add_comm]
    · rw [audios_cons_other ha, add_audio_other ha]
  constructor
  · rintro ⟨earlier, g, later, he, hone, hutf8, hover⟩
    cases earlier with
    | nil =>
      cases he
      exact absurd (by simpa [TooLarge] using hover) hlarge
    | cons first earlier =>
      cases he
      rw [List.cons_append, hcount] at hone
      refine ⟨earlier, g, later, rfl, hone, fun x hx => hutf8 x (List.mem_cons_of_mem _ hx), ?_⟩
      rw [List.cons_append, size_cons, ← Nat.add_assoc] at hover
      exact hover
  · rintro ⟨earlier, g, later, rfl, hone, hutf8, hover⟩
    refine ⟨f :: earlier, g, later, rfl, ?_, ?_, ?_⟩
    · rwa [List.cons_append, hcount]
    · intro x hx
      rcases List.mem_cons.mp hx with rfl | hx
      · exact fun ht hn => htext ⟨ht, hn⟩
      · exact hutf8 x hx
    · rw [List.cons_append, size_cons, ← Nat.add_assoc]
      exact hover

/-- Fields are too large exactly when a limit is exceeded before anything else is wrong. -/
theorem takeFields_tooLarge_iff :
    takeFields max i fields = .error .payloadTooLarge ↔ Exceeds max i fields := by
  induction fields generalizing i with
  | nil => simp [takeFields, Exceeds]
  | cons f fields ih =>
    by_cases haudio : f.IsAudio ∧ i.audio.isSome = true
    · have hf : takeField max i f = .error .multipleAudio := if_pos haudio
      obtain ⟨a, ha⟩ := Option.isSome_iff_exists.mp haudio.2
      simp only [takeFields, hf, Except.error.injEq, reduceCtorEq, false_iff]
      rintro ⟨earlier, g, later, he, hone, -, -⟩
      have hmem : f ∈ earlier ++ [g] := by
        cases earlier <;> cases he <;> simp
      have hin : f ∈ audios (earlier ++ [g]) := List.mem_filter.mpr ⟨hmem, by simpa using haudio.1⟩
      have hpos := List.length_pos_of_mem hin
      simp only [ha, Option.toList_some, List.length_singleton] at hone
      omega
    · by_cases hlarge : TooLarge max i f
      · have hf : takeField max i f = .error .payloadTooLarge :=
          takeField_tooLarge_iff.mpr ⟨haudio, hlarge⟩
        simp only [takeFields, hf, true_iff]
        exact exceeds_here haudio hlarge
      · by_cases htext : f.IsText ∧ f.text = none
        · have hf : takeField max i f = .error .invalidMultipart := by
            rw [takeField, if_neg haudio, if_neg hlarge, if_pos htext]
          simp only [takeFields, hf, Except.error.injEq, reduceCtorEq, false_iff]
          rintro ⟨earlier, g, later, he, -, hutf8, hover⟩
          cases earlier with
          | nil =>
            cases he
            exact hlarge (by simpa [TooLarge] using hover)
          | cons first earlier =>
            cases he
            exact hutf8 f (List.mem_cons_self ..) htext.1 htext.2
        · have hf : takeField max i f = .ok (i.add f) := by
            rw [takeField, if_neg haudio, if_neg hlarge, if_neg htext]
          simp only [takeFields, hf]
          rw [ih, exceeds_cons hf]

end Limits
end Intake
end Telegraph
