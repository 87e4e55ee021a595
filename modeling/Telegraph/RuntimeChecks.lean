import Telegraph.Backoff
import Telegraph.Lib.Checked
import Telegraph.Wav

/-! The arithmetic on audio headers with the checks it makes at run time: a `usize`
has 64 bits, and no slice is longer than `isize::MAX`. -/

namespace Telegraph
open Lib Checked

namespace Wav

/-- A byte slice as it can be in memory. -/
structure ByteSlice where
  bytes : List UInt8
  fits : bytes.length < 2 ^ 63

def usize (n : Nat) : Checked Nat := unsigned 64 n

/-- `u32::from_le_bytes(bytes[start..stop].try_into().unwrap())` -/
def checkedU32 (bytes : List UInt8) (start stop : Nat) : Checked Nat := do
  let four ← array 4 (← part bytes start stop)
  pure (littleEndian four)

/-- `u16::from_le_bytes([bytes[low], bytes[high]])` -/
def checkedU16 (bytes : List UInt8) (low high : Nat) : Checked Nat := do
  let first ← element bytes low
  let second ← element bytes high
  pure (littleEndian [first, second])

def checkedFmt (bytes : List UInt8) (body : Nat) : Checked Fmt := do
  let channels ← checkedU16 bytes (← usize (body + 2)) (← usize (body + 3))
  let sampleRate ← checkedU32 bytes (← usize (body + 4)) (← usize (body + 8))
  let byteRate ← checkedU32 bytes (← usize (body + 8)) (← usize (body + 12))
  let bitsPerSample ← checkedU16 bytes (← usize (body + 14)) (← usize (body + 15))
  pure ⟨sampleRate, channels, bitsPerSample, byteRate⟩

/-- `offset += 8 + size as usize + (size as usize & 1)` -/
def checkedAdvance (offset size : Nat) : Checked Nat := do
  let padded ← usize ((← usize (8 + size)) + size % 2)
  usize (offset + padded)

/-- The loop of `parse_header`; one that does not end is a trap. -/
def checkedScan (bytes : List UInt8) :
    Nat → Nat → Option Fmt → Checked (Except WavError (Option Fmt × Option Nat))
  | 0, _, _ => .error .endless
  | fuel + 1, offset, fmt => do
    let headerEnd ← usize (offset + 8)
    if headerEnd ≤ bytes.length then
      let id ← part bytes offset (← usize (offset + 4))
      let size ← checkedU32 bytes (← usize (offset + 4)) (← usize (offset + 8))
      let body ← usize (offset + 8)
      if id = fmtId then
        if bytes.length < (← usize (body + fmtBodyLen)) then pure (.error .malformed)
        else
          let fmt ← checkedFmt bytes body
          checkedScan bytes fuel (← checkedAdvance offset size) (some fmt)
      else if id = dataId then pure (.ok (fmt, some size))
      else checkedScan bytes fuel (← checkedAdvance offset size) fmt
    else pure (.ok (fmt, none))

def checkedParseHeader (bytes : List UInt8) : Checked (Except WavError WavInfo) := do
  if bytes.length < 12 then pure (.error .malformed)
  else
    let riff ← part bytes 0 4
    if riff ≠ riffId then pure (.error .notRiff)
    else
      let wave ← part bytes 8 12
      if wave ≠ waveId then pure (.error .notWave)
      else match ← checkedScan bytes bytes.length 12 none with
        | .error e => pure (.error e)
        | .ok (none, _) => pure (.error .missingFmt)
        | .ok (some fmt, dataLen) =>
          pure (.ok ⟨fmt.sampleRate, fmt.channels, fmt.bitsPerSample, fmt.byteRate, dataLen⟩)

def WavInfo.checkedDurationMs (i : WavInfo) : Checked (Option Int) :=
  match i.dataLenBytes with
  | some len =>
    if 0 < i.byteRate then do
      let product ← signed 64 (len * 1000)
      let ms ← quotient 64 product i.byteRate
      pure (some ms)
    else pure none
  | none => pure none

end Wav

namespace Retry

/-- `saturating_mul` of `i64` -/
def saturatingMul (a b : Int) : Int := max (-2 ^ 63) (min (a * b) (2 ^ 63 - 1))

/-- `Duration::milliseconds`: whole seconds in an `i64`, the nanoseconds in an `i32`. -/
def checkedMilliseconds (ms : Int) : Checked Int := do
  let seconds ← signed 64 (ms.tdiv 1000)
  let nanoseconds ← signed 32 (ms.tmod 1000 * 1000000)
  pure (Duration.seconds seconds + nanoseconds)

def checkedTranscriptionWindow (audioDurationMs : Option Int) : Checked Int := do
  let floor := Duration.hours 2
  let cap := Duration.hours 24
  let window ← match audioDurationMs with
    | some ms =>
      if 0 < ms then (max floor ·) <$> checkedMilliseconds (saturatingMul ms 2) else pure floor
    | none => pure floor
  pure (min window cap)

end Retry
end Telegraph
