import Telegraph.Timestamp

namespace Telegraph.Proofs.TimestampOrder
open Lib Timestamp

/-- Within one second, the digits of one fraction start with all the digits of
the other. A whole second has no digits. -/
def FractionPrefix (a b : Int) : Prop :=
  a ≠ b ∧ second a = second b ∧
    (fractionDigits a <+: fractionDigits b ∨ fractionDigits b <+: fractionDigits a)

@[simp] theorem secondText_length (s : Nat) : (secondText s).length = 19 := by
  simp [secondText]

theorem format_lt_iff (a b : Int) : TextLt (format a) (format b) ↔
    secondText (second a) < secondText (second b) ∨
      (secondText (second a) = secondText (second b) ∧
        fractionText a ++ ['Z'] < fractionText b ++ ['Z']) := by
  rw [TextLt, format, format, String.toList_ofList, String.toList_ofList,
    TextOrder.append_lt_append_iff (by simp)]

theorem second_day {t : Int} (h : InYears t) : second t / 86400 < 3652425 := by
  simp only [InYears, yearZero, yearTenThousand, Duration.hours, Duration.minutes,
    Duration.seconds] at h
  simp only [second, yearZero, Duration.hours, Duration.minutes, Duration.seconds]
  omega

/-- A later second has the larger text, field by field. -/
theorem secondText_lt {s u : Nat} (hs : s / 86400 < 3652425) (hu : u / 86400 < 3652425)
    (h : s < u) : secondText s < secondText u := by
  have hys : (Calendar.dateOf (s / 86400)).year < 10000 := Calendar.yearOf_lt hs
  have hyu : (Calendar.dateOf (u / 86400)).year < 10000 := Calendar.yearOf_lt hu
  have hfs := Calendar.dateOf_fields (s / 86400)
  have hfu := Calendar.dateOf_fields (u / 86400)
  simp only [secondText, List.append_assoc]
  simp (disch := simp) only [TextOrder.append_lt_append_iff, List.cons_lt_cons_iff,
    lt_self_iff_false, false_or, true_and, List.cons.injEq]
  simp (disch := omega) only [TextOrder.padded_lt_iff, TextOrder.padded_eq_iff]
  have hd : s / 86400 < u / 86400 ∨ s / 86400 = u / 86400 := by omega
  rcases hd with hd | hd
  · have := Calendar.dateOf_lt hd
    omega
  · simp only [hd, lt_self_iff_false, true_and, false_or]
    omega

theorem secondText_lt_iff {s u : Nat} (hs : s / 86400 < 3652425) (hu : u / 86400 < 3652425) :
    secondText s < secondText u ↔ s < u := by
  refine ⟨fun h => ?_, secondText_lt hs hu⟩
  rcases Nat.lt_trichotomy s u with hlt | heq | hlt
  · exact hlt
  · exact absurd h (heq ▸ lt_irrefl _)
  · exact absurd (h.trans (secondText_lt hu hs hlt)) (lt_irrefl _)

theorem instant_eq {a b : Int} (ha : InYears a) (hb : InYears b)
    (hs : second a = second b) (hn : nanosecond a = nanosecond b) : a = b := by
  simp only [InYears] at ha hb
  simp only [second, nanosecond] at hs hn
  omega

theorem instant_lt_iff {a b : Int} (ha : InYears a) (hb : InYears b) :
    a < b ↔ second a < second b ∨ (second a = second b ∧ nanosecond a < nanosecond b) := by
  simp only [InYears] at ha hb
  simp only [second, nanosecond]
  omega

theorem nanosecond_lt (t : Int) : nanosecond t < 10 ^ 9 := Nat.mod_lt _ (by decide)

theorem fractionDigits_lt_iff (a b : Int) :
    fractionDigits a < fractionDigits b ↔ nanosecond a < nanosecond b :=
  TextOrder.significant_lt_iff (nanosecond_lt a) (nanosecond_lt b)

theorem fractionDigits_nil_iff (t : Int) : fractionDigits t = [] ↔ nanosecond t = 0 :=
  TextOrder.significant_nil_iff (nanosecond_lt t)

theorem fractionDigits_lt_terminator (t : Int) : ∀ c ∈ fractionDigits t, c < 'Z' := by
  intro c hc
  exact lt_of_le_of_lt (TextOrder.significant_range _ _ c hc).2 (by decide)

/-- The text after the seconds compares as the digit string and its `Z` do: a
whole second's `Z` and a fraction's `.` already decide as `Z` and a digit would. -/
theorem fractionText_lt_iff (a b : Int) :
    fractionText a ++ ['Z'] < fractionText b ++ ['Z'] ↔
      fractionDigits a ++ ['Z'] < fractionDigits b ++ ['Z'] := by
  have dot : ('.' : Char) < 'Z' := by decide
  by_cases ha : nanosecond a = 0 <;> by_cases hb : nanosecond b = 0
  · simp [fractionText, ha, hb, (fractionDigits_nil_iff _).mpr]
  · obtain ⟨c, cs, he⟩ := List.exists_cons_of_ne_nil (mt (fractionDigits_nil_iff b).mp hb)
    have hc : c < 'Z' := fractionDigits_lt_terminator b c (by simp [he])
    rw [(fractionDigits_nil_iff a).mpr ha, he]
    simp [fractionText, ha, hb, List.cons_lt_cons_iff, not_lt_of_gt hc, hc.ne', not_lt_of_gt dot]
  · obtain ⟨c, cs, he⟩ := List.exists_cons_of_ne_nil (mt (fractionDigits_nil_iff a).mp ha)
    have hc : c < 'Z' := fractionDigits_lt_terminator a c (by simp [he])
    rw [(fractionDigits_nil_iff b).mpr hb, he]
    simp [fractionText, ha, hb, List.cons_lt_cons_iff, hc, dot]
  · simp [fractionText, ha, hb]

/-- Different seconds are compared by the fixed-width part alone. -/
theorem format_lt_of_second_ne {a b : Int} (ha : InYears a) (hb : InYears b)
    (h : second a ≠ second b) : TextLt (format a) (format b) ↔ a < b := by
  have hlt := secondText_lt_iff (second_day ha) (second_day hb)
  have hgt := secondText_lt_iff (second_day hb) (second_day ha)
  rw [format_lt_iff, instant_lt_iff ha hb, hlt]
  constructor
  · rintro (hs | ⟨he, _⟩)
    · exact Or.inl hs
    · rcases Nat.lt_or_gt_of_ne h with hs | hs
      · exact absurd (hlt.mpr hs) (he ▸ lt_irrefl _)
      · exact absurd (hgt.mpr hs) (he ▸ lt_irrefl _)
  · rintro (hs | ⟨he, _⟩)
    · exact Or.inl hs
    · exact absurd he h

theorem format_lt_of_second_eq {a b : Int} (ha : InYears a) (hb : InYears b)
    (h : second a = second b) :
    (TextLt (format a) (format b) ↔ fractionDigits a ++ ['Z'] < fractionDigits b ++ ['Z']) ∧
      (a < b ↔ fractionDigits a < fractionDigits b) := by
  constructor
  · simp [format_lt_iff, h, fractionText_lt_iff]
  · simp [instant_lt_iff ha hb, h, fractionDigits_lt_iff]

/-- Stored timestamps sort as text in the order of time exactly where neither
fraction's digits start the other's within the same second. -/
theorem format_lt_iff_lt {a b : Int} (ha : InYears a) (hb : InYears b) :
    (TextLt (format a) (format b) ↔ a < b) ↔ ¬ FractionPrefix a b := by
  by_cases hs : second a = second b
  · obtain ⟨htext, htime⟩ := format_lt_of_second_eq ha hb hs
    rw [htext, htime]
    by_cases hab : a = b
    · subst b
      simp [FractionPrefix]
    have hne : fractionDigits a ≠ fractionDigits b := by
      intro he
      have hirrefl : ¬fractionDigits b < fractionDigits b := lt_irrefl _
      have h1 := (fractionDigits_lt_iff a b).not.mp (by rwa [he])
      have h2 := (fractionDigits_lt_iff b a).not.mp (by rwa [he])
      exact hab (instant_eq ha hb hs (by omega))
    by_cases hpre : fractionDigits a <+: fractionDigits b
    · have hgt := TextOrder.terminated_gt_of_prefix (fractionDigits_lt_terminator b) hpre hne
      have hlt := TextOrder.lt_of_prefix hpre hne
      simp [FractionPrefix, hab, hs, hpre, hlt, not_lt_of_gt hgt]
    by_cases hpre' : fractionDigits b <+: fractionDigits a
    · have hlt := TextOrder.terminated_gt_of_prefix (fractionDigits_lt_terminator a) hpre' hne.symm
      have hgt := TextOrder.lt_of_prefix hpre' hne.symm
      simp [FractionPrefix, hab, hs, hpre', hlt, not_lt_of_gt hgt]
    · simp [FractionPrefix, hpre, hpre', TextOrder.terminated_lt_iff 'Z' hpre hpre']
  · simp [FractionPrefix, hs, format_lt_of_second_ne ha hb hs]

/-- `2026-06-23T12:00:00.25Z` and `2026-06-23T12:00:00.5Z`: fractions of two and of one
digit, stored in the order of their instants. -/
theorem format_lt_iff_lt_in_second :
    TextLt (format (Duration.seconds 1782216000 + 250000000))
        (format (Duration.seconds 1782216000 + 500000000)) ↔
      Duration.seconds 1782216000 + 250000000 < Duration.seconds 1782216000 + 500000000 :=
  (format_lt_iff_lt (by decide) (by decide)).mpr fun h => absurd h.2.2 (by decide)

/-- `2026-06-23T12:00:00Z` is stored as a larger text than `2026-06-23T12:00:00.5Z`. -/
theorem format_order_fails : ¬ ∀ a b, InYears a → InYears b →
    (TextLt (format a) (format b) ↔ a < b) := by
  intro h
  have he := h (Duration.seconds 1782216000) (Duration.seconds 1782216000 + 500000000)
    (by decide) (by decide)
  exact absurd (he.mpr (by decide)) (by decide)

section Offsets

theorem secondText_inj {s u : Nat} (hs : s / 86400 < 3652425) (hu : u / 86400 < 3652425)
    (h : secondText s = secondText u) : s = u := by
  rcases Nat.lt_trichotomy s u with hlt | heq | hlt
  · exact absurd (secondText_lt hs hu hlt) (h ▸ lt_irrefl _)
  · exact heq
  · exact absurd (secondText_lt hu hs hlt) (h ▸ lt_irrefl _)

theorem fractionText_inj {a b : Int} (h : fractionText a = fractionText b) : nanosecond a = nanosecond b := by
  have hdigits : ∀ t, (fractionText t).tail = fractionDigits t := by
    intro t
    by_cases ht : nanosecond t = 0
    · rw [fractionText, if_pos ht, (fractionDigits_nil_iff t).mpr ht]
      rfl
    · rw [fractionText, if_neg ht, List.tail_cons]
  have he : fractionDigits a = fractionDigits b := by rw [← hdigits a, h, hdigits b]
  have hlt := (fractionDigits_lt_iff a b).not.mp (he ▸ lt_irrefl _)
  have hgt := (fractionDigits_lt_iff b a).not.mp (he ▸ lt_irrefl _)
  omega

/-- A character that may begin the text of an offset, and no fraction has. -/
def startsOffset (c : Char) : Bool := c == 'Z' || c == '+' || c == '-'

theorem fractionText_plain (t : Int) : ∀ c ∈ fractionText t, startsOffset c = false := by
  intro c hc
  unfold fractionText at hc
  split at hc
  · cases hc
  · rcases List.mem_cons.mp hc with rfl | hc
    · rfl
    · obtain ⟨hlow, hhigh⟩ := TextOrder.significant_range _ _ c hc
      have hz : c ≠ 'Z' := fun he => absurd hhigh (by rw [he]; decide)
      have hplus : c ≠ '+' := fun he => absurd hlow (by rw [he]; decide)
      have hminus : c ≠ '-' := fun he => absurd hlow (by rw [he]; decide)
      simp [startsOffset, hz, hplus, hminus]

theorem offsetText_starts (m : Int) :
    ∃ c rest, OffsetDateTime.offsetText m = c :: rest ∧ startsOffset c = true := by
  unfold OffsetDateTime.offsetText
  split
  · exact ⟨'Z', [], rfl, rfl⟩
  · split
    · exact ⟨'-', _, rfl, rfl⟩
    · exact ⟨'+', _, rfl, rfl⟩

theorem offsetText_inj {m n : Int} (hm : -1440 < m ∧ m < 1440) (hn : -1440 < n ∧ n < 1440)
    (h : OffsetDateTime.offsetText m = OffsetDateTime.offsetText n) : m = n := by
  unfold OffsetDateTime.offsetText at h
  by_cases hm0 : m = 0 <;> by_cases hn0 : n = 0
  · rw [hm0, hn0]
  · rw [if_pos hm0, if_neg hn0] at h
    have hsign := (List.cons.inj h).1
    split at hsign <;> cases hsign
  · rw [if_neg hm0, if_pos hn0] at h
    have hsign := (List.cons.inj h).1
    split at hsign <;> cases hsign
  · rw [if_neg hm0, if_neg hn0] at h
    obtain ⟨hsign, hrest⟩ := List.cons.inj h
    obtain ⟨hhours, hminutes⟩ := List.append_inj hrest (by simp)
    have hh := TextOrder.padded_inj (by omega) (by omega) hhours
    have hmin := TextOrder.padded_inj (by omega) (by omega) (List.cons.inj hminutes).2
    by_cases hneg : m < 0 <;> by_cases hneg' : n < 0
    · omega
    · simp [hneg, hneg'] at hsign
    · simp [hneg, hneg'] at hsign
    · omega

theorem takeWhile_fraction (t : Int) (m : Int) :
    (fractionText t ++ OffsetDateTime.offsetText m).takeWhile (fun c => !startsOffset c) = fractionText t := by
  obtain ⟨c, rest, he, hc⟩ := offsetText_starts m
  rw [List.takeWhile_append_of_pos (by simpa using fractionText_plain t), he,
    List.takeWhile_cons_of_neg (by simp [hc]), List.append_nil]

/-- What is stored of a time with an offset gives that very time back, offset and all. -/
theorem offset_format_inj {a b : OffsetDateTime} (h : a.format = b.format) : a = b := by
  have hlist := String.ofList_injective h
  obtain ⟨hsecond, hrest⟩ := List.append_inj hlist (by simp)
  have hfraction : fractionText a.localTime = fractionText b.localTime := by
    rw [← takeWhile_fraction a.localTime a.offset, hrest, takeWhile_fraction]
  have hoffset : a.offset = b.offset := by
    rw [hfraction] at hrest
    exact offsetText_inj a.withinDay b.withinDay (List.append_cancel_left hrest)
  have hlocal : a.localTime = b.localTime :=
    instant_eq a.inYears b.inYears (secondText_inj (second_day a.inYears) (second_day b.inYears) hsecond)
      (fractionText_inj hfraction)
  have hinstant : a.instant = b.instant := by
    unfold OffsetDateTime.localTime at hlocal
    rw [hoffset] at hlocal
    exact add_right_cancel hlocal
  cases a
  cases b
  simp_all

end Offsets

end Telegraph.Proofs.TimestampOrder
