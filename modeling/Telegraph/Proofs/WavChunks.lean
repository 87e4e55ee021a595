import Mathlib.Data.List.TakeWhile
import Telegraph.Lib.Riff
import Telegraph.Wav

namespace Telegraph.Wav
open Lib Riff

/-- A chunk as a WAV file may hold it. -/
structure WavChunk extends Chunk where
  fmt_long : id = fmtId → fmtBodyLen ≤ body.length

/-- What the first sixteen bytes of a `fmt ` body say. -/
structure Format where
  formatTag : UInt16
  channels : UInt16
  sampleRate : UInt32
  byteRate : UInt32
  blockAlign : UInt16
  bitsPerSample : UInt16

def Format.bytes (f : Format) : List UInt8 :=
  leBytes 2 f.formatTag.toNat ++ leBytes 2 f.channels.toNat ++ leBytes 4 f.sampleRate.toNat ++
    leBytes 4 f.byteRate.toNat ++ leBytes 2 f.blockAlign.toNat ++ leBytes 2 f.bitsPerSample.toNat

def Format.info (f : Format) (dataLen : Option Nat) : WavInfo :=
  ⟨f.sampleRate.toNat, f.channels.toNat, f.bitsPerSample.toNat, f.byteRate.toNat, dataLen⟩

/-- The chunks before the first `data` chunk. -/
def before (cs : List WavChunk) : List WavChunk := cs.takeWhile fun c => c.id ≠ dataId

def firstData (cs : List WavChunk) : Option WavChunk := cs.find? fun c => c.id = dataId

def lastFmt (cs : List WavChunk) : Option WavChunk := (cs.filter fun c => c.id = fmtId).getLast?

def encode (cs : List WavChunk) : List UInt8 := cs.flatMap fun c => c.bytes

/-- The twelve bytes before the first chunk; the size among them is not looked at. -/
def preamble (a b c d : UInt8) : List UInt8 := riffId ++ [a, b, c, d] ++ waveId

/-- A file of chunks whose first `data` body is cut off after `kept` bytes; what comes
after that is `rest`. -/
def cutFile (a b c d : UInt8) (cs : List WavChunk) (kept : Nat) (rest : List UInt8) : List UInt8 :=
  preamble a b c d ++ encode (before cs) ++
    ((firstData cs).map fun c => c.header ++ c.body.take kept ++ rest).getD []

section Numbers

theorem littleEndian_leBytes (width n : Nat) : littleEndian (leBytes width n) = n % 256 ^ width := by
  induction width generalizing n with
  | zero => simp [leBytes, littleEndian, Nat.mod_one]
  | succ width ih =>
    rw [leBytes, littleEndian, ih, Nat.pow_succ', Nat.mod_mul, UInt8.toNat_ofNat']

theorem leBytes_littleEndian (l : List UInt8) : leBytes l.length (littleEndian l) = l := by
  induction l with
  | nil => rfl
  | cons b l ih =>
    have hb := b.toNat_lt
    have hlow : UInt8.ofNat (b.toNat + 256 * littleEndian l) = b := by
      apply UInt8.toNat_inj.mp
      rw [UInt8.toNat_ofNat']
      omega
    have hhigh : (b.toNat + 256 * littleEndian l) / 256 = littleEndian l := by omega
    rw [List.length_cons, littleEndian, leBytes, hlow, hhigh, ih]

theorem leBytes_word {s : List UInt8} (h : s.length = 2) :
    leBytes 2 (UInt16.ofNat (littleEndian s)).toNat = s := by
  have hlt := littleEndian_lt s
  rw [h] at hlt
  have hword : littleEndian s < 2 ^ 16 := by omega
  rw [UInt16.toNat_ofNat', Nat.mod_eq_of_lt hword, ← h, leBytes_littleEndian]

theorem leBytes_double {s : List UInt8} (h : s.length = 4) :
    leBytes 4 (UInt32.ofNat (littleEndian s)).toNat = s := by
  have hlt := littleEndian_lt s
  rw [h] at hlt
  have hdouble : littleEndian s < 2 ^ 32 := by omega
  rw [UInt32.toNat_ofNat', Nat.mod_eq_of_lt hdouble, ← h, leBytes_littleEndian]

theorem split_front {l : List UInt8} {n m : Nat} (h : n + m ≤ l.length) :
    ∃ s r, l = s ++ r ∧ s.length = n ∧ m ≤ r.length := by
  refine ⟨l.take n, l.drop n, (List.take_append_drop n l).symm, ?_, ?_⟩
  · rw [List.length_take]
    omega
  · rw [List.length_drop]
    omega

/-- Sixteen bytes or more say a format. -/
theorem exists_format {body : List UInt8} (h : fmtBodyLen ≤ body.length) :
    ∃ (f : Format) (extra : List UInt8), body = f.bytes ++ extra := by
  obtain ⟨tag, l, rfl, htag, h⟩ := split_front (n := 2) (m := 14) h
  obtain ⟨channels, l, rfl, hchannels, h⟩ := split_front (n := 2) (m := 12) h
  obtain ⟨rate, l, rfl, hrate, h⟩ := split_front (n := 4) (m := 8) h
  obtain ⟨byteRate, l, rfl, hbyteRate, h⟩ := split_front (n := 4) (m := 4) h
  obtain ⟨align, l, rfl, halign, h⟩ := split_front (n := 2) (m := 2) h
  obtain ⟨bits, extra, rfl, hbits, -⟩ := split_front (n := 2) (m := 0) h
  refine ⟨⟨UInt16.ofNat (littleEndian tag), UInt16.ofNat (littleEndian channels),
    UInt32.ofNat (littleEndian rate), UInt32.ofNat (littleEndian byteRate),
    UInt16.ofNat (littleEndian align), UInt16.ofNat (littleEndian bits)⟩, extra, ?_⟩
  simp only [Format.bytes, leBytes_word, leBytes_double, htag, hchannels, hrate, hbyteRate, halign,
    hbits, List.append_assoc]

theorem fmtAt_format (f : Format) (extra : List UInt8) : fmtAt (f.bytes ++ extra) 0 =
    ⟨f.sampleRate.toNat, f.channels.toNat, f.bitsPerSample.toNat, f.byteRate.toNat⟩ := by
  have hrate : slice (f.bytes ++ extra) 4 8 = leBytes 4 f.sampleRate.toNat := rfl
  have hchannels : slice (f.bytes ++ extra) 2 4 = leBytes 2 f.channels.toNat := rfl
  have hbits : slice (f.bytes ++ extra) 14 16 = leBytes 2 f.bitsPerSample.toNat := rfl
  have hbyteRate : slice (f.bytes ++ extra) 8 12 = leBytes 4 f.byteRate.toNat := rfl
  have hword : ∀ n : UInt16, n.toNat % 256 ^ 2 = n.toNat := fun n => Nat.mod_eq_of_lt n.toNat_lt
  have hdouble : ∀ n : UInt32, n.toNat % 256 ^ 4 = n.toNat := fun n => Nat.mod_eq_of_lt n.toNat_lt
  simp only [fmtAt, Nat.zero_add, hrate, hchannels, hbits, hbyteRate, littleEndian_leBytes, hword,
    hdouble]

end Numbers

section Scan
variable {front rest : List UInt8} {c : WavChunk} {fuel : Nat} {acc : Option Fmt}

/-- What a scan reads in a chunk header. -/
theorem header_at (front l : List UInt8) (c : WavChunk) :
    slice (front ++ (c.header ++ l)) front.length (front.length + 4) = c.id ∧
    littleEndian (slice (front ++ (c.header ++ l)) (front.length + 4) (front.length + 8)) =
      c.body.length ∧
    front.length + 8 ≤ (front ++ (c.header ++ l)).length := by
  refine ⟨?_, ?_, by simp⟩
  · have hid := slice_append front (c.header ++ l) 0 4
    rw [Nat.add_zero] at hid
    rw [hid]
    simp [slice, Chunk.header, c.id_length]
  · have hsize : slice (c.header ++ l) 4 8 = leBytes 4 c.body.length := by
      simp [slice, Chunk.header, c.id_length]
    have hlt : c.body.length < 256 ^ 4 := by
      have := c.body_lt
      omega
    rw [slice_append, hsize, littleEndian_leBytes, Nat.mod_eq_of_lt hlt]

/-- The scan stops at the header of a `data` chunk. -/
theorem scan_data (h : c.id = dataId) :
    scan (front ++ (c.header ++ rest)) (fuel + 1) front.length acc = .ok (acc, some c.body.length) := by
  obtain ⟨hid, hsize, hin⟩ := header_at front rest c
  have hne : dataId ≠ fmtId := by decide
  simp only [scan, hid, hsize, hin, h, hne, if_true, if_false]

theorem bytes_eq (front rest : List UInt8) (c : WavChunk) : front ++ (c.bytes ++ rest) =
    front ++ (c.header ++ (c.body ++ (List.replicate (c.body.length % 2) c.padding ++ rest))) := by
  simp [Chunk.bytes]

theorem length_front (front : List UInt8) (c : WavChunk) : (front ++ c.bytes).length =
    front.length + (8 + c.body.length + c.body.length % 2) := by
  simp

theorem fmtAt_body (h : fmtBodyLen ≤ c.body.length) :
    fmtAt (front ++ (c.header ++ (c.body ++ rest))) (front.length + 8) = fmtAt c.body 0 := by
  have hroom : ∀ start stop, stop ≤ 16 →
      slice (front ++ (c.header ++ (c.body ++ rest))) (front.length + 8 + start)
        (front.length + 8 + stop) = slice c.body start stop := by
    intro start stop hstop
    have hfront : (front ++ c.header).length = front.length + 8 := by simp
    rw [← hfront, ← List.append_assoc, slice_append, slice_left (Nat.le_trans hstop h)]
  simp only [fmtAt, Nat.zero_add, hroom _ 8 (by decide), hroom _ 4 (by decide),
    hroom _ 16 (by decide), hroom _ 12 (by decide)]

/-- A `fmt ` chunk is read from its body; the scan goes on behind the chunk. -/
theorem scan_fmt (h : c.id = fmtId) :
    scan (front ++ (c.bytes ++ rest)) (fuel + 1) front.length acc =
      scan (front ++ (c.bytes ++ rest)) fuel (front ++ c.bytes).length (some (fmtAt c.body 0)) := by
  have hlong := c.fmt_long h
  have hroom : ¬ (front ++ (c.bytes ++ rest)).length < front.length + 8 + fmtBodyLen := by
    rw [List.length_append, List.length_append, Chunk.length_bytes]
    omega
  rw [bytes_eq] at hroom ⊢
  obtain ⟨hid, hsize, hin⟩ := header_at front
    (c.body ++ (List.replicate (c.body.length % 2) c.padding ++ rest)) c
  simp only [scan, hid, hsize, hin, h, hroom, if_true, if_false, length_front, fmtAt_body hlong]

/-- Another chunk is scanned by its header only. -/
theorem scan_other (hfmt : c.id ≠ fmtId) (hdata : c.id ≠ dataId) :
    scan (front ++ (c.bytes ++ rest)) (fuel + 1) front.length acc =
      scan (front ++ (c.bytes ++ rest)) fuel (front ++ c.bytes).length acc := by
  rw [bytes_eq]
  obtain ⟨hid, hsize, hin⟩ := header_at front
    (c.body ++ (List.replicate (c.body.length % 2) c.padding ++ rest)) c
  simp only [scan, hid, hsize, hin, hfmt, hdata, if_true, if_false, length_front]

/-- The scan goes past all chunks before the first `data` chunk. -/
theorem scan_chunks {cs : List WavChunk} (hdata : ∀ c ∈ cs, c.id ≠ dataId) :
    scan (front ++ (encode cs ++ rest)) (fuel + cs.length) front.length acc =
      scan (front ++ (encode cs ++ rest)) fuel (front ++ encode cs).length
        (((lastFmt cs).map fun c => fmtAt c.body 0).or acc) := by
  induction cs generalizing front acc with
  | nil => simp [encode, lastFmt]
  | cons c cs ih =>
    have hc := hdata c (List.mem_cons_self ..)
    have hcs := fun x hx => hdata x (List.mem_cons_of_mem _ hx)
    have hbytes : front ++ (encode (c :: cs) ++ rest) = front ++ (c.bytes ++ (encode cs ++ rest)) := by
      simp [encode]
    have hassoc : front ++ (c.bytes ++ (encode cs ++ rest)) =
        front ++ c.bytes ++ (encode cs ++ rest) := by
      rw [List.append_assoc]
    have hend : front ++ encode (c :: cs) = front ++ c.bytes ++ encode cs := by
      simp [encode]
    rw [hbytes, hend, List.length_cons, ← Nat.add_assoc]
    by_cases hf : c.id = fmtId
    · have hlast : ((lastFmt (c :: cs)).map fun c => fmtAt c.body 0).or acc =
          ((lastFmt cs).map fun c => fmtAt c.body 0).or (some (fmtAt c.body 0)) := by
        simp only [lastFmt, List.filter_cons, hf, decide_true, if_true, List.getLast?_cons]
        cases (cs.filter fun c => c.id = fmtId).getLast? <;> simp
      rw [scan_fmt hf, hlast, hassoc, ih hcs]
    · have hlast : lastFmt (c :: cs) = lastFmt cs := by simp [lastFmt, hf]
      rw [scan_other hf hc, hlast, hassoc, ih hcs]

end Scan

section Files
variable {a b c d : UInt8}

theorem length_encode (cs : List WavChunk) : cs.length ≤ (encode cs).length := by
  induction cs with
  | nil => simp
  | cons c cs ih =>
    rw [encode, List.flatMap_cons, ← encode, List.length_append, Chunk.length_bytes, List.length_cons]
    omega

theorem length_preamble : (preamble a b c d).length = 12 := rfl

/-- Behind the preamble the outcome is that of the scan. -/
theorem parseHeader_preamble {body : List UInt8} {fmt : Option Fmt} {dataLen : Option Nat}
    (h : scan (preamble a b c d ++ body) (preamble a b c d ++ body).length
      (preamble a b c d).length none = .ok (fmt, dataLen)) :
    parseHeader (preamble a b c d ++ body) = (fmt.elim (.error .missingFmt) fun fmt =>
      .ok ⟨fmt.sampleRate, fmt.channels, fmt.bitsPerSample, fmt.byteRate, dataLen⟩) := by
  have hriff : slice (preamble a b c d ++ body) 0 4 = riffId := rfl
  have hwave : slice (preamble a b c d ++ body) 8 12 = waveId := rfl
  have hlong : ¬ (preamble a b c d ++ body).length < 12 := by
    simp [length_preamble]
  rw [length_preamble] at h
  simp only [parseHeader, hlong, hriff, hwave, h, ne_eq, not_true_eq_false, if_false]
  cases fmt <;> rfl

theorem before_ne_data (cs : List WavChunk) : ∀ c ∈ before cs, c.id ≠ dataId := by
  intro c hc
  simpa using List.mem_takeWhile_imp hc

theorem scan_end {bytes : List UInt8} {o fuel : Nat} {acc : Option Fmt} (h : bytes.length ≤ o) :
    scan bytes fuel o acc = .ok (acc, none) := by
  cases fuel with
  | zero => rfl
  | succ fuel =>
    rw [scan, if_neg]
    omega

/-- The file with nothing cut off. -/
theorem encode_eq_cutFile (a b c d : UInt8) (cs : List WavChunk) :
    ∃ kept rest, preamble a b c d ++ encode cs = cutFile a b c d cs kept rest := by
  induction cs with
  | nil => exact ⟨0, [], by simp [cutFile, before, firstData, encode]⟩
  | cons first cs ih =>
    by_cases hd : first.id = dataId
    · refine ⟨first.body.length, List.replicate (first.body.length % 2) first.padding ++ encode cs, ?_⟩
      simp [cutFile, before, firstData, encode, hd, Chunk.bytes]
    · obtain ⟨kept, rest, he⟩ := ih
      refine ⟨kept, rest, ?_⟩
      simp only [cutFile, List.append_assoc, List.append_cancel_left_eq] at he
      have hbefore : encode (before (first :: cs)) = first.bytes ++ encode (before cs) := by
        simp [before, encode, hd]
      have hfirst : firstData (first :: cs) = firstData cs := by simp [firstData, hd]
      have hencode : encode (first :: cs) = first.bytes ++ encode cs := by simp [encode]
      rw [cutFile, hbefore, hfirst, hencode, he]
      simp

theorem scan_cutFile (cs : List WavChunk) (kept : Nat) (rest : List UInt8) :
    scan (cutFile a b c d cs kept rest) (cutFile a b c d cs kept rest).length
      (preamble a b c d).length none =
      .ok ((lastFmt (before cs)).map fun c => fmtAt c.body 0,
        (firstData cs).map fun c => c.body.length) := by
  have hlen := length_encode (before cs)
  cases hd : firstData cs with
  | none =>
    have hfile : cutFile a b c d cs kept rest = preamble a b c d ++ (encode (before cs) ++ []) := by
      simp [cutFile, hd]
    obtain ⟨fuel, hfuel⟩ := Nat.exists_eq_add_of_le' (m := (before cs).length)
      (n := (cutFile a b c d cs kept rest).length) (by simp [hfile]; omega)
    rw [hfuel, hfile, scan_chunks (before_ne_data cs), scan_end (by simp), Option.or_none]
    rfl
  | some dc =>
    have hdc : dc.id = dataId := by simpa using List.find?_some hd
    have hfile : cutFile a b c d cs kept rest = preamble a b c d ++
        (encode (before cs) ++ (dc.header ++ (dc.body.take kept ++ rest))) := by
      simp [cutFile, hd]
    obtain ⟨fuel, hfuel⟩ := Nat.exists_eq_add_of_le' (m := (before cs).length + 1)
      (n := (cutFile a b c d cs kept rest).length) (by simp [hfile]; omega)
    rw [hfuel, Nat.add_comm _ 1, ← Nat.add_assoc, hfile, scan_chunks (before_ne_data cs),
      ← List.append_assoc, scan_data hdc, Option.or_none]
    rfl

/-- The header of a file of chunks, wherever its audio is cut off, says what the last
`fmt ` chunk before the audio says, and how long the audio is declared. -/
theorem parseHeader_cutFile (a b c d : UInt8) (cs : List WavChunk) (kept : Nat)
    (rest : List UInt8) :
    (∃ kept rest, preamble a b c d ++ encode cs = cutFile a b c d cs kept rest) ∧
    (∀ last, lastFmt (before cs) = some last → ∃ (f : Format) (extra : List UInt8),
      last.body = f.bytes ++ extra ∧ parseHeader (cutFile a b c d cs kept rest) =
        .ok (f.info ((firstData cs).map fun c => c.body.length))) ∧
    (lastFmt (before cs) = none → parseHeader (cutFile a b c d cs kept rest) = .error .missingFmt) := by
  have hfile : ∃ body, cutFile a b c d cs kept rest = preamble a b c d ++ body :=
    ⟨_, List.append_assoc ..⟩
  have hscan := scan_cutFile (a := a) (b := b) (c := c) (d := d) cs kept rest
  obtain ⟨body, hbody⟩ := hfile
  rw [hbody] at hscan ⊢
  have hparse := parseHeader_preamble hscan
  refine ⟨encode_eq_cutFile a b c d cs, fun last hlast => ?_, fun hnone => ?_⟩
  · have hmem := List.mem_of_getLast? hlast
    have hid : last.id = fmtId := by simpa using (List.mem_filter.mp hmem).2
    obtain ⟨f, extra, hf⟩ := exists_format (last.fmt_long hid)
    refine ⟨f, extra, hf, ?_⟩
    rw [hparse, hlast, Option.map_some, Option.elim_some, hf, fmtAt_format, Format.info]
  · rw [hparse, hnone, Option.map_none, Option.elim_none]

end Files
end Telegraph.Wav
