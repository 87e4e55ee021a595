import Mathlib.Data.List.Infix
import Telegraph.Lib.Riff
import Telegraph.Wav

namespace Telegraph.Wav
open Lib Riff

/-- The id in the chunk header at an offset. -/
def idAt (bytes : List UInt8) (o : Nat) : List UInt8 := slice bytes o (o + 4)

/-- The size the chunk header at an offset declares. -/
def sizeAt (bytes : List UInt8) (o : Nat) : Nat := littleEndian (slice bytes (o + 4) (o + 8))

/-- The chunk headers of a file; a scan ends at a `data` chunk. -/
def layout (bytes : List UInt8) : Layout where
  holds o := o + 8 ≤ bytes.length
  ends o := idAt bytes o = dataId
  next o := o + (8 + sizeAt bytes o + sizeAt bytes o % 2)

/-- The chunks scanned, and the `data` chunk after them. -/
def chunks (bytes : List UInt8) : List Nat × Option Nat := (layout bytes).walk bytes.length 12

def fmtChunks (bytes : List UInt8) : List Nat :=
  (chunks bytes).1.filter fun o => idAt bytes o = fmtId

def dataChunk (bytes : List UInt8) : Option Nat := (chunks bytes).2

/-- What a `fmt ` chunk and a `data` chunk say together. -/
def infoAt (bytes : List UInt8) (o : Nat) (data : Option Nat) : WavInfo :=
  let fmt := fmtAt bytes (o + 8)
  ⟨fmt.sampleRate, fmt.channels, fmt.bitsPerSample, fmt.byteRate, data.map (sizeAt bytes)⟩

section Scan
variable {bytes : List UInt8}

theorem layout_holds {o : Nat} : (layout bytes).holds o = true ↔ o + 8 ≤ bytes.length := by
  simp [layout]

theorem layout_ends {o : Nat} : (layout bytes).ends o = true ↔ idAt bytes o = dataId := by
  simp [layout]

theorem layout_ordered (bytes : List UInt8) : (layout bytes).Ordered bytes.length := by
  refine ⟨fun o ho => ?_, fun o _ => ?_⟩
  · have := layout_holds.mp ho
    omega
  · simp only [layout]
    omega

/-- A scan goes wrong at a `fmt ` chunk without sixteen bytes after its header. -/
def cutShort (bytes : List UInt8) (fmts : List Nat) : Bool :=
  fmts.any fun o => bytes.length < o + 8 + fmtBodyLen

/-- What a scan finds that comes to these `fmt ` chunks and this `data` chunk. -/
def found (bytes : List UInt8) (acc : Option Fmt) (fmts : List Nat) (data : Option Nat) :
    Except WavError (Option Fmt × Option Nat) :=
  if cutShort bytes fmts = true then .error .malformed
  else .ok ((fmts.getLast?.map fun o => fmtAt bytes (o + 8)).or acc, data.map (sizeAt bytes))

def scanned (bytes : List UInt8) (acc : Option Fmt) (w : List Nat × Option Nat) :
    Except WavError (Option Fmt × Option Nat) :=
  found bytes acc (w.1.filter fun o => idAt bytes o = fmtId) w.2

theorem cutShort_cons (o : Nat) (fmts : List Nat) : cutShort bytes (o :: fmts) = true ↔
    bytes.length < o + 8 + fmtBodyLen ∨ cutShort bytes fmts = true := by
  simp [cutShort]

theorem scanned_nil {data : Option Nat} {acc : Option Fmt} :
    scanned bytes acc ([], data) = .ok (acc, data.map (sizeAt bytes)) := by
  simp [scanned, found, cutShort]

theorem found_cons {o : Nat} {fmts : List Nat} {data : Option Nat} {acc : Option Fmt} :
    found bytes acc (o :: fmts) data =
      if bytes.length < o + 8 + fmtBodyLen then .error .malformed
      else found bytes (some (fmtAt bytes (o + 8))) fmts data := by
  by_cases hroom : bytes.length < o + 8 + fmtBodyLen
  · rw [if_pos hroom, found, if_pos ((cutShort_cons o fmts).mpr (Or.inl hroom))]
  · have hcut : cutShort bytes (o :: fmts) = true ↔ cutShort bytes fmts = true := by
      rw [cutShort_cons]
      simp [hroom]
    rw [if_neg hroom, found, found]
    simp only [hcut, List.getLast?_cons]
    cases fmts.getLast? <;> simp

theorem scanned_fmt {o : Nat} {w : List Nat × Option Nat} {acc : Option Fmt}
    (h : idAt bytes o = fmtId) : scanned bytes acc (o :: w.1, w.2) =
      if bytes.length < o + 8 + fmtBodyLen then .error .malformed
      else scanned bytes (some (fmtAt bytes (o + 8))) w := by
  simp only [scanned, List.filter_cons, h, decide_true, if_true, found_cons]

theorem scanned_other {o : Nat} {w : List Nat × Option Nat} {acc : Option Fmt}
    (h : idAt bytes o ≠ fmtId) : scanned bytes acc (o :: w.1, w.2) = scanned bytes acc w := by
  simp [scanned, h]

/-- The scan is a walk over the chunk headers. -/
theorem scan_eq (fuel o : Nat) (acc : Option Fmt) :
    scan bytes fuel o acc = scanned bytes acc ((layout bytes).walk fuel o) := by
  induction fuel generalizing o acc with
  | zero => rw [scan, Layout.walk, scanned_nil, Option.map_none]
  | succ fuel ih =>
    simp only [scan]
    split
    · next hin =>
      have hh := layout_holds.mpr hin
      split
      · next hf =>
        have he : (layout bytes).ends o = false := by
          rw [Bool.eq_false_iff, Ne, layout_ends, idAt, hf]
          decide
        rw [Layout.walk_pass hh he, scanned_fmt hf, ih]
        rfl
      · next hf =>
        split
        · next hd =>
          rw [Layout.walk_end hh (layout_ends.mpr hd), scanned_nil, Option.map_some, sizeAt]
        · next hd =>
          have he : (layout bytes).ends o = false := by
            rw [Bool.eq_false_iff, Ne, layout_ends]
            exact hd
          rw [Layout.walk_pass hh he, scanned_other hf, ih]
          rfl
    · next hin =>
      have hh : (layout bytes).holds o = false := by
        rw [Bool.eq_false_iff, Ne, layout_holds]
        exact hin
      rw [Layout.walk_none hh, scanned_nil, Option.map_none]

/-- The three checks before the scan. -/
structure Marked (bytes : List UInt8) : Prop where
  long : 12 ≤ bytes.length
  riff : slice bytes 0 4 = riffId
  wave : slice bytes 8 12 = waveId

/-- What `parse_header` makes of the chunks of a marked file. -/
def parsed (bytes : List UInt8) (fmts : List Nat) (data : Option Nat) : Except WavError WavInfo :=
  if cutShort bytes fmts = true then .error .malformed
  else match fmts.getLast? with
    | none => .error .missingFmt
    | some o => .ok (infoAt bytes o data)

theorem parseHeader_long (h : 12 ≤ bytes.length) : parseHeader bytes =
    if slice bytes 0 4 ≠ riffId then .error .notRiff
    else if slice bytes 8 12 ≠ waveId then .error .notWave
    else parsed bytes (fmtChunks bytes) (dataChunk bytes) := by
  have hscan : scan bytes bytes.length 12 none =
      found bytes none (fmtChunks bytes) (dataChunk bytes) := scan_eq _ _ _
  simp only [parseHeader, Nat.not_lt.mpr h, if_false]
  congr 1
  congr 1
  rw [hscan]
  by_cases hcut : cutShort bytes (fmtChunks bytes) = true
  · simp [found, parsed, hcut]
  · cases hlast : (fmtChunks bytes).getLast? <;> simp [found, parsed, hcut, hlast, infoAt]

theorem parseHeader_marked (h : Marked bytes) :
    parseHeader bytes = parsed bytes (fmtChunks bytes) (dataChunk bytes) := by
  rw [parseHeader_long h.long, if_neg (not_not.mpr h.riff), if_neg (not_not.mpr h.wave)]

/-- `parse_header` succeeds with what the last `fmt ` chunk and the `data` chunk say. -/
theorem parseHeader_ok_iff {info : WavInfo} : parseHeader bytes = .ok info ↔
    Marked bytes ∧ cutShort bytes (fmtChunks bytes) = false ∧
      ∃ o, (fmtChunks bytes).getLast? = some o ∧ info = infoAt bytes o (dataChunk bytes) := by
  constructor
  · intro h
    have hlong : 12 ≤ bytes.length := by
      by_contra hshort
      rw [parseHeader, if_pos (by omega)] at h
      cases h
    have hm : Marked bytes := by
      rw [parseHeader_long hlong] at h
      split at h
      · cases h
      · next hriff =>
        split at h
        · cases h
        · next hwave => exact ⟨hlong, not_not.mp hriff, not_not.mp hwave⟩
    rw [parseHeader_marked hm, parsed] at h
    by_cases hcut : cutShort bytes (fmtChunks bytes) = true
    · simp [hcut] at h
    · cases hlast : (fmtChunks bytes).getLast? with
      | none => simp [hcut, hlast] at h
      | some o =>
        simp only [hcut, hlast, Bool.false_eq_true, if_false, Except.ok.injEq] at h
        exact ⟨hm, by simpa using hcut, o, rfl, h.symm⟩
  · rintro ⟨hm, hcut, o, hlast, rfl⟩
    simp [parseHeader_marked hm, parsed, hcut, hlast]

theorem mem_fmtChunks {o : Nat} :
    o ∈ fmtChunks bytes ↔ o ∈ (chunks bytes).1 ∧ idAt bytes o = fmtId := by
  simp [fmtChunks]

end Scan

section Declared

/-- Where the four fields stand in a `fmt ` body. -/
def fieldSpans : List (Nat × Nat) := [(4, 8), (2, 4), (14, 16), (8, 12)]

def WavInfo.fields (i : WavInfo) : List Nat :=
  [i.sampleRateHz, i.channels, i.bitsPerSample, i.byteRate]

/-- The fields were decoded inside the declared body of a `fmt ` chunk. -/
def FromFmtBody (bytes : List UInt8) (info : WavInfo) : Prop :=
  ∃ o ∈ fmtChunks bytes, (∀ span ∈ fieldSpans, span.2 ≤ sizeAt bytes o) ∧
    info.fields = fieldSpans.map fun span =>
      littleEndian (slice bytes (o + 8 + span.1) (o + 8 + span.2))

/-- A parse that succeeds takes its fields from a `fmt ` body, and none succeeds after
a `fmt ` chunk too small for them. -/
structure FormatFromFmt (bytes : List UInt8) : Prop where
  inside : ∀ info, parseHeader bytes = .ok info → FromFmtBody bytes info
  refused : ∀ o ∈ fmtChunks bytes, sizeAt bytes o < fmtBodyLen →
    ∀ info, parseHeader bytes ≠ .ok info

/-- Exactly the files with a `fmt ` chunk declared too small, and nothing else wrong,
have their format read from behind it. -/
theorem formatFromFmt_iff (bytes : List UInt8) : FormatFromFmt bytes ↔
    (∀ o ∈ fmtChunks bytes, fmtBodyLen ≤ sizeAt bytes o) ∨ ¬ Marked bytes ∨
      ∃ o ∈ fmtChunks bytes, bytes.length < o + 8 + fmtBodyLen := by
  constructor
  · intro h
    by_contra hno
    simp only [not_or, not_forall, not_not, not_exists, not_and, Nat.not_le] at hno
    obtain ⟨⟨o, ho, hsmall⟩, hm, hroom⟩ := hno
    have hcut : cutShort bytes (fmtChunks bytes) = false := by
      simp only [cutShort, List.any_eq_false, decide_eq_true_eq]
      exact fun o ho => hroom o ho
    obtain ⟨last, hlast⟩ : ∃ last, (fmtChunks bytes).getLast? = some last := by
      cases hl : (fmtChunks bytes).getLast? with
      | none =>
        rw [List.getLast?_eq_none_iff] at hl
        rw [hl] at ho
        cases ho
      | some last => exact ⟨last, rfl⟩
    exact h.refused o ho hsmall _ (parseHeader_ok_iff.mpr ⟨hm, hcut, last, hlast, rfl⟩)
  · intro h
    refine ⟨fun info hok => ?_, fun o ho hsmall info hok => ?_⟩
    all_goals
      obtain ⟨hm, hcut, last, hlast, rfl⟩ := parseHeader_ok_iff.mp hok
      have hsizes : ∀ o ∈ fmtChunks bytes, fmtBodyLen ≤ sizeAt bytes o := by
        rcases h with hall | hnot | ⟨o, ho, hshort⟩
        · exact hall
        · exact absurd hm hnot
        · simp only [cutShort, List.any_eq_false, decide_eq_true_eq] at hcut
          exact absurd hshort (hcut o ho)
    · have hmem := List.mem_of_getLast? hlast
      have hsize := hsizes last hmem
      refine ⟨last, hmem, fun span hspan => ?_, rfl⟩
      have hspans : ∀ span ∈ fieldSpans, span.2 ≤ fmtBodyLen := by decide
      exact (hspans span hspan).trans hsize
    · have := hsizes o ho
      omega

/-- A `fmt ` chunk without a body, right before the `data` chunk. -/
def bodilessFmt : List UInt8 :=
  riffId ++ [28, 0, 0, 0] ++ waveId ++ fmtId ++ [0, 0, 0, 0] ++ dataId ++ [8, 0, 0, 0] ++
    [1, 2, 3, 4, 5, 6, 7, 8]

/-- Its sample rate is the size of the `data` chunk. -/
theorem bodilessFmt_accepted : ¬ FormatFromFmt bodilessFmt := by
  intro h
  exact h.refused 12 (by decide) (by decide) ⟨8, 24948, 2055, 67305985, some 8⟩ (by decide)

end Declared
end Telegraph.Wav
