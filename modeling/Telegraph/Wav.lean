import Mathlib.Algebra.Group.Nat.Defs

namespace Telegraph.Wav

structure WavInfo where
  sampleRateHz : Nat
  channels : Nat
  bitsPerSample : Nat
  byteRate : Nat
  dataLenBytes : Option Nat
deriving DecidableEq, Repr

/-- Whole milliseconds, from the declared length and byte rate. -/
def WavInfo.durationMs (i : WavInfo) : Option Int :=
  match i.dataLenBytes with
  | some len => if 0 < i.byteRate then some ((len * 1000 / i.byteRate : Nat) : Int) else none
  | none => none

inductive WavError where
  | notRiff
  | notWave
  | missingFmt
  | malformed
deriving DecidableEq, Repr

def fmtBodyLen : Nat := 16

/-- `&bytes[start..stop]` -/
def slice (bytes : List UInt8) (start stop : Nat) : List UInt8 :=
  (bytes.drop start).take (stop - start)

/-- `from_le_bytes` -/
def littleEndian : List UInt8 → Nat
  | [] => 0
  | b :: bs => b.toNat + 256 * littleEndian bs

theorem slice_left {l rest : List UInt8} {start stop : Nat} (h : stop ≤ l.length) :
    slice (l ++ rest) start stop = slice l start stop := by
  have hroom : stop - start ≤ (l.drop start).length := by
    rw [List.length_drop]
    omega
  rw [slice, slice, List.drop_append, List.take_append_of_le_length hroom]

/-- A slice behind a part of known length. -/
theorem slice_append (front l : List UInt8) (start stop : Nat) :
    slice (front ++ l) (front.length + start) (front.length + stop) = slice l start stop := by
  rw [slice, slice, List.drop_length_add_append, Nat.add_sub_add_left]

theorem littleEndian_lt (l : List UInt8) : littleEndian l < 256 ^ l.length := by
  induction l with
  | nil => simp [littleEndian]
  | cons b l ih =>
    have hb := b.toNat_lt
    rw [List.length_cons, Nat.pow_succ', littleEndian]
    omega

def riffId : List UInt8 := [0x52, 0x49, 0x46, 0x46]
def waveId : List UInt8 := [0x57, 0x41, 0x56, 0x45]
def fmtId : List UInt8 := [0x66, 0x6D, 0x74, 0x20]
def dataId : List UInt8 := [0x64, 0x61, 0x74, 0x61]

/-- The fields of a `fmt ` body the parser keeps. -/
structure Fmt where
  sampleRate : Nat
  channels : Nat
  bitsPerSample : Nat
  byteRate : Nat
deriving DecidableEq, Repr

def fmtAt (bytes : List UInt8) (body : Nat) : Fmt where
  sampleRate := littleEndian (slice bytes (body + 4) (body + 8))
  channels := littleEndian (slice bytes (body + 2) (body + 4))
  bitsPerSample := littleEndian (slice bytes (body + 14) (body + 16))
  byteRate := littleEndian (slice bytes (body + 8) (body + 12))

/-- The scan over the chunks from `offset`, which moves on by eight bytes or more
each time: `fuel` is a bound on how often. -/
def scan (bytes : List UInt8) : Nat → Nat → Option Fmt → Except WavError (Option Fmt × Option Nat)
  | 0, _, fmt => .ok (fmt, none)
  | fuel + 1, offset, fmt =>
    if offset + 8 ≤ bytes.length then
      let id := slice bytes offset (offset + 4)
      let size := littleEndian (slice bytes (offset + 4) (offset + 8))
      let body := offset + 8
      -- Chunks are word-aligned.
      let advance := 8 + size + size % 2
      if id = fmtId then
        if bytes.length < body + fmtBodyLen then .error .malformed
        else scan bytes fuel (offset + advance) (some (fmtAt bytes body))
      else if id = dataId then .ok (fmt, some size)
      else scan bytes fuel (offset + advance) fmt
    else .ok (fmt, none)

/-- `parse_header` -/
def parseHeader (bytes : List UInt8) : Except WavError WavInfo :=
  if bytes.length < 12 then .error .malformed
  else if slice bytes 0 4 ≠ riffId then .error .notRiff
  else if slice bytes 8 12 ≠ waveId then .error .notWave
  else match scan bytes bytes.length 12 none with
    | .error e => .error e
    | .ok (none, _) => .error .missingFmt
    | .ok (some fmt, dataLen) =>
      .ok ⟨fmt.sampleRate, fmt.channels, fmt.bitsPerSample, fmt.byteRate, dataLen⟩

end Telegraph.Wav
