import Telegraph.Proofs.WavLayout
import Telegraph.RuntimeChecks

namespace Telegraph.Wav
open Lib Checked

section Reads
variable {bytes : List UInt8} {n start stop : Nat}

theorem usize_ok (h : n < 2 ^ 64) : usize n = .ok n := unsigned_ok h

theorem checkedU32_ok (h : stop = start + 4) (hs : stop ≤ bytes.length) :
    checkedU32 bytes start stop = .ok (littleEndian (slice bytes start stop)) := by
  have hlen : ((bytes.drop start).take (stop - start)).length = 4 := by
    rw [List.length_take, List.length_drop]
    omega
  rw [checkedU32, part_ok (by omega) hs, ok_bind, array_ok hlen]
  rfl

theorem checkedU16_ok (h : stop = start + 1) (hs : stop < bytes.length) :
    checkedU16 bytes start stop = .ok (littleEndian (slice bytes start (start + 2))) := by
  subst h
  have hslice : slice bytes start (start + 2) = [bytes[start], bytes[start + 1]] := by
    rw [slice, Nat.add_sub_cancel_left, List.drop_eq_getElem_cons (by omega),
      List.drop_eq_getElem_cons hs]
    rfl
  rw [checkedU16, element_ok (by omega), ok_bind, element_ok hs, ok_bind, hslice]
  rfl

theorem checkedFmt_ok {body : Nat} (h : body + fmtBodyLen ≤ bytes.length)
    (hb : bytes.length < 2 ^ 63) : checkedFmt bytes body = .ok (fmtAt bytes body) := by
  simp only [fmtBodyLen] at h
  have hoffset : ∀ k ≤ 16, usize (body + k) = .ok (body + k) := fun k hk => usize_ok (by omega)
  have hu16 : ∀ k, k + 2 ≤ 16 → checkedU16 bytes (body + k) (body + (k + 1)) =
      .ok (littleEndian (slice bytes (body + k) (body + k + 2))) :=
    fun k hk => checkedU16_ok (by omega) (by omega)
  have hu32 : ∀ k, k + 4 ≤ 16 → checkedU32 bytes (body + k) (body + (k + 4)) =
      .ok (littleEndian (slice bytes (body + k) (body + (k + 4)))) :=
    fun k hk => checkedU32_ok (by omega) (by omega)
  simp only [checkedFmt, hoffset _ (show 2 ≤ 16 by decide), hoffset _ (show 3 ≤ 16 by decide),
    hoffset _ (show 4 ≤ 16 by decide), hoffset _ (show 8 ≤ 16 by decide),
    hoffset _ (show 12 ≤ 16 by decide), hoffset _ (show 14 ≤ 16 by decide),
    hoffset _ (show 15 ≤ 16 by decide), ok_bind, hu16 2 (by decide), hu16 14 (by decide),
    hu32 4 (by decide), hu32 8 (by decide)]
  rfl

theorem checkedAdvance_ok {offset size : Nat} (h : offset + (8 + size + size % 2) < 2 ^ 64) :
    checkedAdvance offset size = .ok (offset + (8 + size + size % 2)) := by
  rw [checkedAdvance, usize_ok (by omega), ok_bind, usize_ok (by omega), ok_bind, usize_ok h]

/-- A number of four bytes fits into a `u32`. -/
theorem littleEndian_four (h : stop = start + 4) : littleEndian (slice bytes start stop) < 2 ^ 32 := by
  have hlen : (slice bytes start stop).length ≤ 4 := by
    rw [slice, List.length_take]
    omega
  exact (littleEndian_lt _).trans_le (Nat.pow_le_pow_right (n := 256) (by decide) hlen)

/-- The scan ends within its fuel and none of its checks fails: before each round the
offset is at most a chunk past the slice, and the fuel covers the bytes left. -/
theorem checkedScan_ok {fuel offset : Nat} {fmt : Option Fmt} (hb : bytes.length < 2 ^ 63)
    (ho : offset < 2 ^ 63 + 2 ^ 33) (hfuel : 0 < fuel) (hleft : bytes.length < offset + fuel) :
    checkedScan bytes fuel offset fmt = .ok (scan bytes fuel offset fmt) := by
  induction fuel generalizing offset fmt with
  | zero => omega
  | succ fuel ih =>
    by_cases hin : offset + 8 ≤ bytes.length
    · have hsize : littleEndian (slice bytes (offset + 4) (offset + 8)) < 2 ^ 32 :=
        littleEndian_four rfl
      have hid : part bytes offset (offset + 4) = .ok (slice bytes offset (offset + 4)) :=
        part_ok (by omega) (by omega)
      have hu32 : checkedU32 bytes (offset + 4) (offset + 8) =
          .ok (littleEndian (slice bytes (offset + 4) (offset + 8))) := checkedU32_ok rfl hin
      have h4 : usize (offset + 4) = .ok (offset + 4) := usize_ok (by omega)
      have h8 : usize (offset + 8) = .ok (offset + 8) := usize_ok (by omega)
      have h24 : usize (offset + 8 + fmtBodyLen) = .ok (offset + 8 + fmtBodyLen) := by
        apply usize_ok
        simp only [fmtBodyLen]
        omega
      have hadvance : ∀ size < 2 ^ 32, checkedAdvance offset size =
          .ok (offset + (8 + size + size % 2)) := fun size hlt => checkedAdvance_ok (by omega)
      simp only [checkedScan, scan, h4, h8, h24, hid, hu32, hadvance _ hsize, ok_bind, hin, if_true]
      generalize littleEndian (slice bytes (offset + 4) (offset + 8)) = size at *
      have hrest : ∀ fmt, checkedScan bytes fuel (offset + (8 + size + size % 2)) fmt =
          .ok (scan bytes fuel (offset + (8 + size + size % 2)) fmt) :=
        fun fmt => ih (by omega) (by omega) (by omega)
      split
      · split
        · rfl
        · next hroom =>
          rw [checkedFmt_ok (by omega) hb, ok_bind, hrest]
      · split
        · rfl
        · rw [hrest]
    · have h8 : usize (offset + 8) = .ok (offset + 8) := usize_ok (by omega)
      simp only [checkedScan, scan, h8, ok_bind, hin, if_false]
      rfl

/-- On any slice `parse_header` returns, and no index or offset goes wrong. -/
theorem checkedParseHeader_ok (hb : bytes.length < 2 ^ 63) :
    checkedParseHeader bytes = .ok (parseHeader bytes) := by
  by_cases hlong : bytes.length < 12
  · simp only [checkedParseHeader, parseHeader, hlong, if_true]
    rfl
  · have hriff : part bytes 0 4 = .ok (slice bytes 0 4) := part_ok (by decide) (by omega)
    have hwave : part bytes 8 12 = .ok (slice bytes 8 12) := part_ok (by decide) (by omega)
    have hscan : checkedScan bytes bytes.length 12 none = .ok (scan bytes bytes.length 12 none) :=
      checkedScan_ok hb (by decide) (by omega) (by omega)
    simp only [checkedParseHeader, parseHeader, hlong, if_false, hriff, hwave, hscan, ok_bind]
    split
    · rfl
    · split
      · rfl
      · rcases scan bytes bytes.length 12 none with e | ⟨fmt | fmt, dataLen⟩ <;> rfl

end Reads

section Duration
variable {bytes : List UInt8} {info : WavInfo}

/-- The length of a header fits into the field it comes from. -/
theorem parseHeader_dataLen (h : parseHeader bytes = .ok info) :
    ∀ len, info.dataLenBytes = some len → len < 2 ^ 32 := by
  obtain ⟨-, -, o, -, rfl⟩ := parseHeader_ok_iff.mp h
  intro len hlen
  obtain ⟨d, -, rfl⟩ := Option.map_eq_some_iff.mp hlen
  exact littleEndian_four rfl

/-- With a `u32` length the product fits into an `i64`, and so does the quotient. -/
theorem checkedDurationMs_ok (h : ∀ len, info.dataLenBytes = some len → len < 2 ^ 32) :
    info.checkedDurationMs = .ok info.durationMs := by
  cases hlen : info.dataLenBytes with
  | none => simp only [WavInfo.checkedDurationMs, WavInfo.durationMs, hlen]; rfl
  | some len =>
    have hlt := h len hlen
    by_cases hrate : 0 < info.byteRate
    · have hproduct : signed 64 ((len : Int) * 1000) = .ok ((len : Int) * 1000) :=
        signed_ok (by omega) (by omega)
      have hdiv : ((len : Int) * 1000).tdiv info.byteRate = ((len * 1000 / info.byteRate : Nat) : Int) := by
        rw [Int.tdiv_eq_ediv_of_nonneg (by omega)]
        push_cast
        rfl
      have hle : len * 1000 / info.byteRate ≤ len * 1000 := Nat.div_le_self _ _
      have hquotient : quotient 64 ((len : Int) * 1000) info.byteRate =
          .ok ((len * 1000 / info.byteRate : Nat) : Int) := by
        rw [quotient, if_neg (by omega), hdiv]
        generalize len * 1000 / info.byteRate = ms at hle
        exact signed_ok (by omega) (by omega)
      simp only [WavInfo.checkedDurationMs, WavInfo.durationMs, hlen, hrate, if_true, hproduct,
        hquotient, ok_bind]
      rfl
    · simp only [WavInfo.checkedDurationMs, WavInfo.durationMs, hlen, hrate, if_false]
      rfl

end Duration
end Telegraph.Wav

namespace Telegraph.Retry
open Lib Checked

section Window

/-- What the window is before the cap. -/
def uncapped (audioDurationMs : Option Int) : Int :=
  match audioDurationMs with
  | some ms =>
    if 0 < ms then max (Duration.hours 2) (min (ms * 2) 9223372036854775807 * 1000000)
    else Duration.hours 2
  | none => Duration.hours 2

theorem transcriptionWindow_eq (ms : Option Int) :
    transcriptionWindow ms = min (uncapped ms) (Duration.hours 24) := by
  cases ms <;> rfl

theorem le_uncapped (ms : Option Int) : Duration.hours 2 ≤ uncapped ms := by
  cases ms with
  | none => exact le_refl _
  | some ms =>
    simp only [uncapped]
    split
    · exact le_max_left _ _
    · exact le_refl _

theorem le_transcriptionWindow (ms : Option Int) : Duration.hours 2 ≤ transcriptionWindow ms := by
  rw [transcriptionWindow_eq]
  exact le_min (le_uncapped ms) (by decide)

/-- A longer recording has no shorter window. -/
theorem transcriptionWindow_mono {a b : Int} (h : a ≤ b) :
    transcriptionWindow (some a) ≤ transcriptionWindow (some b) := by
  rw [transcriptionWindow_eq, transcriptionWindow_eq]
  apply min_le_min_right
  by_cases ha : 0 < a
  · have hb : 0 < b := ha.trans_le h
    simp only [uncapped, ha, hb, if_true]
    apply max_le_max_left
    omega
  · have hfloor : uncapped (some a) = Duration.hours 2 := by simp only [uncapped, ha, if_false]
    rw [hfloor]
    exact le_uncapped _

theorem checkedMilliseconds_ok {ms : Int} (h : -2 ^ 63 ≤ ms) (h' : ms < 2 ^ 63) :
    checkedMilliseconds ms = .ok (ms * 1000000) := by
  have hsum := Int.tmod_add_tdiv_mul ms 1000
  have hlow := Int.lt_tmod_of_pos ms (b := 1000) (by decide)
  have hhigh := Int.tmod_lt_of_pos ms (b := 1000) (by decide)
  rw [checkedMilliseconds]
  generalize ms.tdiv 1000 = seconds at *
  generalize ms.tmod 1000 = rest at *
  rw [signed_ok (by omega) (by omega), ok_bind, signed_ok (by omega) (by omega), ok_bind,
    Duration.seconds]
  congr 1
  omega

/-- No duration makes the window overflow. -/
theorem checkedTranscriptionWindow_ok (ms : Option Int) :
    checkedTranscriptionWindow ms = .ok (transcriptionWindow ms) := by
  cases ms with
  | none => rfl
  | some ms =>
    by_cases hpos : 0 < ms
    · have hdouble : saturatingMul ms 2 = min (ms * 2) 9223372036854775807 := by
        simp only [saturatingMul]
        omega
      have hms : checkedMilliseconds (min (ms * 2) 9223372036854775807) =
          .ok (min (ms * 2) 9223372036854775807 * 1000000) :=
        checkedMilliseconds_ok (by omega) (by omega)
      simp only [checkedTranscriptionWindow, transcriptionWindow, hpos, if_true, hdouble, hms]
      rfl
    · simp only [checkedTranscriptionWindow, transcriptionWindow, hpos, if_false]
      rfl

/-- Durations that come from a header are doubled without saturation. -/
theorem transcriptionWindow_double {ms : Nat} (h : ms < 2 ^ 62) : transcriptionWindow (some ms) =
    min (Duration.hours 24) (max (Duration.hours 2) (2 * ms * 1000000)) := by
  rw [transcriptionWindow_eq, min_comm]
  congr 1
  by_cases hpos : 0 < ms
  · have hms : (0 : Int) < ms := by omega
    have hmin : min ((ms : Int) * 2) 9223372036854775807 = 2 * ms := by omega
    simp only [uncapped, hms, if_true, hmin]
  · have hzero : ms = 0 := by omega
    subst hzero
    rfl

end Window
end Telegraph.Retry

namespace Telegraph.Wav
open Lib Checked Retry

section Header
variable {i : WavInfo} {len : Nat}

theorem durationMs_some (h : i.dataLenBytes = some len) (hrate : 0 < i.byteRate) :
    i.durationMs = some ((len * 1000 / i.byteRate : Nat) : Int) := by
  simp only [WavInfo.durationMs, h, hrate, if_true]

theorem durationMs_none (h : i.dataLenBytes = none ∨ i.byteRate = 0) : i.durationMs = none := by
  rcases h with h | h
  · simp only [WavInfo.durationMs, h]
  · cases hlen : i.dataLenBytes <;> simp [WavInfo.durationMs, hlen, h]

/-- What a header comes to as a retry window. -/
structure SoundWindow (i : WavInfo) : Prop where
  duration : i.checkedDurationMs = .ok i.durationMs
  known : ∀ len, i.dataLenBytes = some len → 0 < i.byteRate → transcriptionWindow i.durationMs =
    min (Duration.hours 24)
      (max (Duration.hours 2) (2 * (len * 1000 / i.byteRate : Nat) * 1000000))
  unknown : i.dataLenBytes = none ∨ i.byteRate = 0 →
    transcriptionWindow i.durationMs = Duration.hours 2
  longer : ∀ len more, i.dataLenBytes = some len → len ≤ more →
    transcriptionWindow i.durationMs ≤
      transcriptionWindow { i with dataLenBytes := some more }.durationMs

theorem soundWindow (h : ∀ len, i.dataLenBytes = some len → len < 2 ^ 32) : SoundWindow i := by
  refine ⟨checkedDurationMs_ok h, fun len hlen hrate => ?_, fun hnone => ?_,
    fun len more hlen hle => ?_⟩
  · have hlt := h len hlen
    have hdiv : len * 1000 / i.byteRate ≤ len * 1000 := Nat.div_le_self _ _
    rw [durationMs_some hlen hrate]
    exact transcriptionWindow_double (by omega)
  · rw [durationMs_none hnone]
    rfl
  · by_cases hrate : 0 < i.byteRate
    · have hmore : { i with dataLenBytes := some more }.durationMs =
          some ((more * 1000 / i.byteRate : Nat) : Int) := durationMs_some rfl hrate
      rw [durationMs_some hlen hrate, hmore]
      apply transcriptionWindow_mono
      exact_mod_cast Nat.div_le_div_right (Nat.mul_le_mul_right 1000 hle)
    · rw [durationMs_none (Or.inr (by omega))]
      exact le_transcriptionWindow _

/-- No upload's header can make the parser, the duration or the retry window go wrong,
and no stored duration the window. -/
theorem header_arithmetic :
    (∀ s : ByteSlice, checkedParseHeader s.bytes = .ok (parseHeader s.bytes) ∧
      ∀ info, parseHeader s.bytes = .ok info → SoundWindow info) ∧
    (∀ ms, checkedTranscriptionWindow ms = .ok (transcriptionWindow ms) ∧
      Duration.hours 2 ≤ transcriptionWindow ms ∧ transcriptionWindow ms ≤ Duration.hours 24) ∧
    ∀ a b : Int, a ≤ b → transcriptionWindow (some a) ≤ transcriptionWindow (some b) :=
  ⟨fun s => ⟨checkedParseHeader_ok s.fits, fun _ h => soundWindow (parseHeader_dataLen h)⟩,
    fun ms => ⟨checkedTranscriptionWindow_ok ms, le_transcriptionWindow ms,
      transcriptionWindow_le ms⟩,
    fun _ _ => transcriptionWindow_mono⟩

end Header
end Telegraph.Wav
