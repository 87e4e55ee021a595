import Telegraph.Proofs.UploadBudget
import Telegraph.Proofs.WavLayout

namespace Telegraph.Wav
open Lib Riff

section Prefix
variable {p f : List UInt8}

theorem slice_leading (h : p <+: f) {start stop : Nat} (hs : stop ≤ p.length) :
    slice f start stop = slice p start stop := by
  obtain ⟨rest, rfl⟩ := h
  exact slice_left hs

/-- What a prefix holds of a chunk header is the header. -/
theorem header_leading (h : p <+: f) {o : Nat} (ho : o + 8 ≤ p.length) :
    idAt f o = idAt p o ∧ sizeAt f o = sizeAt p o := by
  rw [idAt, sizeAt, slice_leading h (by omega), slice_leading h ho]
  exact ⟨rfl, rfl⟩

theorem layout_within (h : p <+: f) : (layout p).Within (layout f) := by
  intro o ho
  have hin := layout_holds.mp ho
  have hlen := h.length_le
  obtain ⟨hid, hsize⟩ := header_leading h hin
  refine ⟨layout_holds.mpr (by omega), ?_, ?_⟩
  · simp only [layout, hid]
  · simp only [layout, hsize]

/-- The walk over the prefix, with the fuel of the whole. -/
theorem chunks_leading (h : p <+: f) : chunks p = (layout p).walk f.length 12 := by
  have hlen := h.length_le
  exact (layout_ordered p).walk_fuel (by omega) (by omega)

/-- Every chunk header that the parser comes to lies in the first `n` bytes, and so do
the sixteen bytes behind the header of a `fmt ` chunk. -/
structure HeadersWithin (f : List UInt8) (n : Nat) : Prop where
  passed : ∀ o ∈ (chunks f).1, o + 8 ≤ n
  fmt : ∀ o ∈ fmtChunks f, o + 8 + fmtBodyLen ≤ n
  data : ∀ d, dataChunk f = some d → d + 8 ≤ n

/-- A prefix that has the headers has the same chunks. -/
theorem chunks_of_headers (h : p <+: f) (hw : HeadersWithin f p.length) : chunks p = chunks f := by
  rw [chunks_leading h]
  apply (layout_within h).walk_of_held
  · exact fun o ho => layout_holds.mpr (hw.passed o ho)
  · exact fun d hd => layout_holds.mpr (hw.data d hd)

theorem fmtChunks_leading (h : p <+: f) (hc : chunks p = chunks f) : fmtChunks p = fmtChunks f := by
  rw [fmtChunks, fmtChunks, ← hc]
  apply List.filter_congr
  intro o ho
  have hin := layout_holds.mp (Layout.passed_holds ho).1
  rw [(header_leading h hin).1]

/-- The same chunks say the same where the prefix has their headers. -/
theorem parsed_leading (h : p <+: f) {fmts : List Nat} {data : Option Nat}
    (hfmt : ∀ o ∈ fmts, o + 8 + fmtBodyLen ≤ p.length) (hdata : ∀ d, data = some d → d + 8 ≤ p.length) :
    parsed p fmts data = parsed f fmts data := by
  have hlen := h.length_le
  have hcut : ∀ bytes : List UInt8, p.length ≤ bytes.length → cutShort bytes fmts = false := by
    intro bytes hle
    simp only [cutShort, List.any_eq_false, decide_eq_true_eq, Nat.not_lt]
    exact fun o ho => (hfmt o ho).trans hle
  simp only [parsed, hcut p le_rfl, hcut f hlen, Bool.false_eq_true, if_false]
  cases hlast : fmts.getLast? with
  | none => rfl
  | some o =>
    have hroom := hfmt o (List.mem_of_getLast? hlast)
    simp only [fmtBodyLen] at hroom
    have hmap : data.map (sizeAt p) = data.map (sizeAt f) := by
      cases data with
      | none => rfl
      | some d => rw [Option.map_some, Option.map_some, (header_leading h (hdata d rfl)).2]
    have hfields : fmtAt p (o + 8) = fmtAt f (o + 8) := by
      simp only [fmtAt]
      rw [slice_leading h (by omega), slice_leading h (by omega), slice_leading h (by omega),
        slice_leading h (by omega)]
    simp only [infoAt, hmap, hfields]

/-- The prefix is parsed like the whole if it has the headers. -/
theorem parseHeader_leading (h : p <+: f) (hlong : 12 ≤ p.length) (hw : HeadersWithin f p.length) :
    parseHeader p = parseHeader f := by
  have hchunks := chunks_of_headers h hw
  have hdata : dataChunk p = dataChunk f := by rw [dataChunk, dataChunk, hchunks]
  rw [parseHeader_long hlong, parseHeader_long (hlong.trans h.length_le),
    slice_leading h (by omega), slice_leading h (by omega), fmtChunks_leading h hchunks, hdata,
    parsed_leading h hw.fmt hw.data]

theorem parseHeader_take {n : Nat} (hn : 12 ≤ n) (hw : HeadersWithin f n) :
    parseHeader (f.take n) = parseHeader f := by
  rcases Nat.lt_or_ge n f.length with hlt | hge
  · have hlen : (f.take n).length = n := by
      rw [List.length_take]
      omega
    have hleading : f.take n <+: f := List.take_prefix n f
    exact parseHeader_leading hleading (by omega) (by rwa [hlen])
  · rw [List.take_of_length_le hge]

/-- A prefix that parses as far as the `data` chunk has all the headers. -/
theorem headers_of_ok (h : p <+: f) {info : WavInfo} (hok : parseHeader p = .ok info)
    (hdata : info.dataLenBytes ≠ none) : HeadersWithin f p.length := by
  obtain ⟨-, hcut, o, -, rfl⟩ := parseHeader_ok_iff.mp hok
  obtain ⟨d, hd⟩ : ∃ d, dataChunk p = some d := by
    rw [← Option.ne_none_iff_exists']
    intro hnone
    exact hdata (by simp [infoAt, hnone])
  have hchunks : chunks p = chunks f := by
    rw [dataChunk, chunks_leading h] at hd
    rw [chunks_leading h, chunks, (layout_within h).walk_of_end hd]
  simp only [cutShort, List.any_eq_false, decide_eq_true_eq, Nat.not_lt] at hcut
  refine ⟨fun o ho => ?_, fun o ho => ?_, fun d hd => ?_⟩
  · rw [← hchunks] at ho
    exact layout_holds.mp (Layout.passed_holds ho).1
  · rw [← fmtChunks_leading h hchunks] at ho
    exact hcut o ho
  · rw [dataChunk, ← hchunks] at hd
    exact layout_holds.mp (Layout.end_holds hd)

/-- The headers before a `data` chunk, when no `fmt ` chunk is declared too small. -/
theorem headers_of_data {d n : Nat} (hd : dataChunk f = some d) (hn : d + 8 ≤ n)
    (hsizes : ∀ o ∈ fmtChunks f, fmtBodyLen ≤ sizeAt f o) : HeadersWithin f n := by
  have hnext : ∀ o ∈ (chunks f).1, o + (8 + sizeAt f o + sizeAt f o % 2) ≤ d :=
    ((layout_ordered f).next_le_end hd).2
  refine ⟨fun o ho => ?_, fun o ho => ?_, fun d' hd' => ?_⟩
  · have := hnext o ho
    omega
  · have := hnext o (mem_fmtChunks.mp ho).1
    have := hsizes o ho
    omega
  · rw [hd] at hd'
    cases hd'
    exact hn

theorem parsed_ne (fmts : List Nat) (data : Option Nat) :
    parsed f fmts data ≠ .error .notRiff ∧ parsed f fmts data ≠ .error .notWave := by
  simp only [parsed]
  split
  · simp
  · cases fmts.getLast? <;> simp

theorem notRiff_iff (h : 12 ≤ f.length) : parseHeader f = .error .notRiff ↔ slice f 0 4 ≠ riffId := by
  have hne := (parsed_ne (f := f) (fmtChunks f) (dataChunk f)).1
  rw [parseHeader_long h]
  by_cases hriff : slice f 0 4 = riffId
  · by_cases hwave : slice f 8 12 = waveId <;> simp [hriff, hwave, hne]
  · simp [hriff]

theorem notWave_iff (h : 12 ≤ f.length) : parseHeader f = .error .notWave ↔
    slice f 0 4 = riffId ∧ slice f 8 12 ≠ waveId := by
  have hne := (parsed_ne (f := f) (fmtChunks f) (dataChunk f)).2
  rw [parseHeader_long h]
  by_cases hriff : slice f 0 4 = riffId
  · by_cases hwave : slice f 8 12 = waveId <;> simp [hriff, hwave, hne]
  · simp [hriff]

/-- How the parse of a prefix and the parse of the whole agree. -/
structure Agree (p f : List UInt8) : Prop where
  forth : ∀ info, parseHeader p = .ok info → info.dataLenBytes ≠ none → parseHeader f = .ok info
  back : ∀ info d, parseHeader f = .ok info → dataChunk f = some d → d + 8 ≤ p.length →
    (∀ o ∈ fmtChunks f, fmtBodyLen ≤ sizeAt f o) → parseHeader p = .ok info
  notRiff : 12 ≤ p.length → (parseHeader p = .error .notRiff ↔ parseHeader f = .error .notRiff)
  notWave : 12 ≤ p.length → (parseHeader p = .error .notWave ↔ parseHeader f = .error .notWave)

theorem agree_of_leading (h : p <+: f) : Agree p f := by
  have hlen := h.length_le
  refine ⟨fun info hok hdata => ?_, fun info d hok hd hin hsizes => ?_, fun hlong => ?_,
    fun hlong => ?_⟩
  · have hm := (parseHeader_ok_iff.mp hok).1
    rw [← parseHeader_leading h hm.long (headers_of_ok h hok hdata)]
    exact hok
  · have hfirst : 12 ≤ d := ((layout_ordered f).next_le_end hd).1
    rw [parseHeader_leading h (by omega) (headers_of_data hd hin hsizes)]
    exact hok
  · rw [notRiff_iff hlong, notRiff_iff (by omega), slice_leading h (by omega)]
  · rw [notWave_iff hlong, notWave_iff (by omega), slice_leading h (by omega), slice_leading h (by omega)]

end Prefix
end Telegraph.Wav

namespace Telegraph
open Lib Task World BlobStore

section Reads
variable {content : Bytes} {max : Nat} {short : Nat → Nat}

/-- Each round of the loop leaves a longer prefix, until the prefix is all there is. -/
theorem refill_eq {n k : Nat} (hk : k ≤ max) (hn : max ≤ n + k) :
    refill content max short n (content.take k) = content.take max := by
  induction n generalizing k with
  | zero =>
    have hmax : k = max := by omega
    rw [refill, hmax]
  | succ n ih =>
    rcases Nat.lt_or_ge k content.length with hmore | hall
    · have hfilled : (content.take k).length = k := by
        rw [List.length_take]
        omega
      rw [refill, hfilled]
      split
      · next hroom =>
        have hread : (content.drop k).take (min (1 + short n) (max - k)) ≠ [] := by
          rw [← List.length_pos_iff, List.length_take, List.length_drop]
          omega
        have hnext : content.take k ++ (content.drop k).take (min (1 + short n) (max - k)) =
            content.take (k + min (1 + short n) (max - k)) := List.take_add.symm
        simp only [hread, if_false, hnext]
        exact ih (by omega) (by omega)
      · next hfull =>
        have hmax : k = max := by omega
        rw [hmax]
    · have hdone : content.take k = content := List.take_of_length_le hall
      have hrest : content.take max = content := List.take_of_length_le (hall.trans hk)
      rw [hdone, hrest, refill]
      simp

theorem readLeadingBytes_eq : readLeadingBytes content max short = content.take max := by
  have h : refill content max short max (content.take 0) = content.take max :=
    refill_eq (Nat.zero_le max) (Nat.le_add_right max 0)
  rwa [List.take_zero] at h

/-- It does not matter how short the reads are. -/
theorem shortMachine_eq (short : Nat → Nat) : shortMachine short = machine := by
  have hanswer : answerShort short = answer := by
    funext c w
    cases c <;> simp [answerShort, answer, readLeadingBytes_eq]
  rw [shortMachine, hanswer, machine]

end Reads

namespace Api
open SqliteStore (newRow)

section Metadata
variable {w : World} {path : String}

/-- A call that leaves the rows alone. -/
def KeepsRows (c : Call) : Prop := ∀ w, (answer c w).1.recordings = w.recordings

theorem only_writeChunks {chunks : List Bytes} {remaining : Nat} :
    (writeChunks path false chunks remaining).Only KeepsRows := by
  induction chunks generalizing remaining with
  | nil => trivial
  | cons chunk rest ih =>
    unfold writeChunks
    refine only_bind (only_lift _) fun left => only_bind (only_perform fun w => ?_) fun _ => ih
    rfl

theorem only_receiveField {a : Arrival} {form : Form} :
    (receiveField path a.field form).Only KeepsRows := by
  unfold receiveField
  split
  · split
    · trivial
    · unfold streamToFile
      refine only_bind (only_bind (only_perform fun w => rfl) fun _ => ?_) fun _ => trivial
      refine only_bind only_writeChunks fun _ => ?_
      exact only_bind (only_perform fun w => rfl) fun _ => trivial
  all_goals exact only_bind (only_lift _) fun _ => trivial

theorem only_receiveFields {arrivals : List Arrival} {form : Form} :
    (receiveFields path false (arrivals.map (·.field)) form).Only KeepsRows := by
  induction arrivals generalizing form with
  | nil => trivial
  | cons a rest ih =>
    unfold receiveFields
    exact only_bind only_receiveField fun _ => ih

/-- A call that adds at most the row of `new`. -/
def AddsRow (new : NewRecording) (c : Call) : Prop :=
  ∀ w, ∀ row ∈ (answer c w).1.recordings, row ∈ w.recordings ∨ row = newRow new

theorem insert_adds (new : NewRecording) : AddsRow new (.insert new) := by
  intro w row hrow
  simp only [answer, statement, SqliteStore.insertRecording, Program.run, Program.exec,
    Connection.view_closed, Store.insertRecording] at hrow
  cases hk : w.store.recordingByKey (newRow new).clientId (newRow new).clientRecordingId with
  | some other =>
    rw [hk] at hrow
    exact Or.inl hrow
  | none =>
    rw [hk] at hrow
    cases ht : w.store.recordings.insert (newRow new) with
    | none =>
      rw [ht] at hrow
      exact Or.inl hrow
    | some t =>
      rw [ht] at hrow
      have hrows : row ∈ t.rows := hrow
      rw [(Table.insert_some ht).1] at hrows
      rcases List.mem_append.mp hrows with hold | hnew
      · exact Or.inl hold
      · exact Or.inr (List.mem_singleton.mp hnew)

theorem only_register {new : NewRecording} {relative : String} :
    (register new relative).Only (AddsRow new) := by
  have hremove : AddsRow new (.remove relative) := fun w row hrow => Or.inl hrow
  have hselect : ∀ c k, AddsRow new (.select c k) := fun c k w row hrow => Or.inl hrow
  unfold register
  refine only_bind (only_catching ?_ fun _ => ?_) fun creation => ?_
  · unfold createRecording
    refine only_bind (only_perform (insert_adds new)) fun _ => ?_
    refine only_bind (only_perform (hselect _ _)) fun _ => ?_
    exact only_bind (only_require _ _) fun _ => trivial
  · exact only_bind (only_ignore hremove) fun _ => trivial
  · split
    · trivial
    · exact only_bind (only_ignore hremove) fun _ => trivial

/-- The metadata columns of a row say what a header says. -/
structure HasMetadata (row : RecordingRow) (info : Wav.WavInfo) : Prop where
  duration : row.audioDurationMs = info.durationMs
  sampleRate : row.sampleRateHz = some (info.sampleRateHz : Int)
  channels : row.channels = some (info.channels : Int)
  bits : row.bitsPerSample = some (info.bitsPerSample : Int)

/-- Run from `s`, the task adds only rows with the property. -/
def Stores {α : Type} (Q : RecordingRow → Prop) (t : Upload α) (s : World) : Prop :=
  ∀ row ∈ (machine.run t s).1.recordings, row ∉ s.recordings → Q row

section Rules
variable {α β : Type} {Q : RecordingRow → Prop} {t : Upload α} {g : α → Upload β} {s : World}

theorem stores_fail (e : ApiError) : Stores Q (fail e : Upload α) s :=
  fun _ hrow hnew => absurd hrow hnew

/-- The first part adds nothing; the rest is looked at where the first part got to. -/
theorem stores_bind (hkeep : (machine.run t s).1.recordings = s.recordings)
    (h : ∀ a s', machine.run t s = (s', .ok a) → Stores Q (g a) s') : Stores Q (t.bind g) s := by
  intro row hrow hnew
  cases hr : machine.run t s with
  | mk s' r =>
    rw [Machine.run_bind, hr] at hrow
    rw [hr] at hkeep
    cases r with
    | ok a => exact h a s' hr row hrow (by rwa [hkeep])
    | error e => exact absurd (hkeep ▸ hrow) hnew

theorem stores_lift {r : Except ApiError α} (h : ∀ a, r = .ok a → Stores Q (g a) s) :
    Stores Q ((lift r).bind g) s := by
  apply stores_bind
  · rw [Machine.run_lift]
  · intro a s' hr
    rw [Machine.run_lift] at hr
    cases hr
    exact h a rfl

theorem stores_perform {c : Call} {g : c.Answer → Upload β} (hc : KeepsRows c)
    (h : ∀ a s', answer c s = (s', .ok a) → Stores Q (g a) s') :
    Stores Q ((perform c).bind g) s := by
  apply stores_bind
  · rw [Machine.run_perform]
    exact hc s
  · intro a s' hr
    rw [Machine.run_perform] at hr
    exact h a s' hr

theorem stores_register {new : NewRecording} {relative : String} (h : Q (newRow new)) :
    Stores Q (register new relative) s := by
  intro row hrow hnew
  have hrows : ∀ row ∈ (machine.run (register new relative) s).1.recordings,
      row ∈ s.recordings ∨ row = newRow new := by
    refine Machine.run_only (m := machine) (p := AddsRow new)
      (I := fun s' : World => ∀ row ∈ s'.recordings, row ∈ s.recordings ∨ row = newRow new)
      (fun c s' hc hs row hrow => ?_) only_register fun _ h => Or.inl h
    rcases hc s' row hrow with hold | hone
    · exact hs row hold
    · exact Or.inr hone
  rcases hrows row hrow with hold | rfl
  · exact absurd hold hnew
  · exact h

end Rules

/-- The rows `ingest` adds have the metadata of the whole upload, if its headers lie in
the bytes scanned. -/
theorem stores_ingest {config : AppConfig} {parsers : Parsers}
    {clientId clientRecordingId recordingId : String} {receivedAt : Int} {arrivals : List Arrival}
    {f : SentField} (hone : Intake.audios (arrivals.map (·.sent)) = [f])
    (hw : Wav.HeadersWithin f.content headerScanBytes) :
    Stores (fun row => ∃ info, Wav.parseHeader f.content = .ok info ∧ HasMetadata row info)
      (ingest config parsers clientId clientRecordingId recordingId receivedAt path
        ⟨arrivals.map (·.field), false⟩) w := by
  unfold ingest
  apply stores_bind
  · exact Machine.run_only (m := machine) (p := KeepsRows) (I := fun s => s.recordings = w.recordings)
      (fun c s hc hs => (hc s).trans hs) only_receiveFields rfl
  intro form s hrun
  obtain ⟨j, hj, rfl, ht⟩ := fieldLoop_of_ok hrun
  have haudio : j.audio = some f.content := by
    rcases Intake.takeFields_audio hj with ⟨hnone, -⟩ | ⟨g, hg, -, haudio⟩
    · rw [hone] at hnone
      cases hnone
    · rw [hone] at hg
      cases hg
      exact haudio
  have hfile : (keep w path j).files path = some f.content := by
    rw [keep, haudio]
    exact w.put_self path _
  split
  · exact stores_fail _
  refine stores_lift fun tags _ => stores_lift fun recordedAt _ => ?_
  refine stores_perform (fun _ => rfl) fun header s₁ hread => ?_
  have hheader : header = f.content.take headerScanBytes := by
    simp only [answer, content, hfile, Except.map, Prod.mk.injEq, Except.ok.injEq] at hread
    exact hread.2.symm
  subst hheader
  refine stores_lift fun info hinfo => ?_
  rw [Wav.parseHeader_take (by decide) hw] at hinfo
  have hparse : Wav.parseHeader f.content = .ok info := by
    cases hp : Wav.parseHeader f.content with
    | error e =>
      rw [hp] at hinfo
      cases hinfo
    | ok i =>
      rw [hp] at hinfo
      cases hinfo
      rfl
  refine stores_perform (fun _ => rfl) fun size s₂ _ => ?_
  refine stores_perform (fun s => ?_) fun _ s₃ _ => ?_
  · simp only [answer]
    split <;> rfl
  · exact stores_register ⟨info, hparse, rfl, rfl, rfl, rfl⟩

end Metadata

/-- The leading bytes say what the whole file says, so however short the reads are, the
rows `ingest` adds have the metadata of the whole upload. -/
theorem leading_bytes_suffice :
    (∀ p f : List UInt8, p <+: f → Wav.Agree p f) ∧
    (∀ content max short, readLeadingBytes content max short = content.take max) ∧
    ∀ (config : AppConfig) (parsers : Parsers) (clientId clientRecordingId recordingId : String)
      (receivedAt : Int) (path : String) (arrivals : List Arrival) (f : SentField)
      (short : Nat → Nat) (w : World),
      Intake.audios (arrivals.map (·.sent)) = [f] →
      Wav.HeadersWithin f.content headerScanBytes →
      ∀ row ∈ ((shortMachine short).run (ingest config parsers clientId clientRecordingId recordingId
        receivedAt path ⟨arrivals.map (·.field), false⟩) w).1.recordings, row ∉ w.recordings →
          ∃ info, Wav.parseHeader f.content = .ok info ∧ HasMetadata row info := by
  refine ⟨fun p f h => Wav.agree_of_leading h, fun _ _ _ => readLeadingBytes_eq, ?_⟩
  intro config parsers clientId clientRecordingId recordingId receivedAt path arrivals f short w hone hw
  rw [shortMachine_eq]
  exact stores_ingest hone hw

section Sample

/-- A `LIST` chunk of odd size, a mono 16 kHz `fmt ` chunk and four bytes of sound. -/
def listedWav : Bytes :=
  Wav.riffId ++ [0, 0, 0, 0] ++ Wav.waveId ++ [76, 73, 83, 84, 3, 0, 0, 0, 1, 2, 3, 0] ++ Wav.fmtId ++
    [16, 0, 0, 0, 1, 0, 1, 0, 128, 62, 0, 0, 0, 125, 0, 0, 2, 0, 16, 0] ++ Wav.dataId ++
    [4, 0, 0, 0, 1, 2, 3, 4]

/-- The file in one field, cut inside its `LIST` chunk. -/
def listedArrival : Arrival := ⟨some "audio", some "memo.wav", [listedWav.take 20, listedWav.drop 20]⟩

theorem listedWav_headers : Wav.HeadersWithin listedWav headerScanBytes := by
  have hchunks : Wav.chunks listedWav = ([12, 24], some 48) := by decide +kernel
  refine ⟨fun o ho => ?_, fun o ho => ?_, fun d hd => ?_⟩
  · rw [hchunks] at ho
    revert o
    decide
  · have hin := List.mem_of_mem_filter ho
    rw [hchunks] at hin
    revert o
    decide
  · rw [Wav.dataChunk, hchunks] at hd
    cases hd
    decide

/-- A file read one to three bytes at a time: its row has the metadata of the whole. -/
theorem short_reads_store_metadata : ∃ row ∈ ((shortMachine (· % 3)).run
      (ingest ⟨⟨4096⟩, [], []⟩ ⟨fun _ => none, fun _ => none⟩ "phone" "memo" "rec-1" 0
        (tempPath "rec-1") ⟨[listedArrival].map (·.field), false⟩)
      ⟨Store.empty, fun _ => none⟩).1.recordings,
    row.sampleRateHz = some 16000 ∧
      ∃ info, Wav.parseHeader listedWav = .ok info ∧ HasMetadata row info := by
  have hrates : ((shortMachine (· % 3)).run
      (ingest ⟨⟨4096⟩, [], []⟩ ⟨fun _ => none, fun _ => none⟩ "phone" "memo" "rec-1" 0
        (tempPath "rec-1") ⟨[listedArrival].map (·.field), false⟩)
      ⟨Store.empty, fun _ => none⟩).1.recordings.map (·.sampleRateHz) = [some 16000] := by
    decide +kernel
  obtain ⟨-, -, hstored⟩ := leading_bytes_suffice
  obtain ⟨row, hrow, hrate⟩ := List.mem_map.mp (hrates ▸ List.mem_singleton_self (some (16000 : Int)))
  refine ⟨row, hrow, hrate, ?_⟩
  exact hstored ⟨⟨4096⟩, [], []⟩ ⟨fun _ => none, fun _ => none⟩ "phone" "memo" "rec-1" 0 (tempPath "rec-1")
    [listedArrival] ⟨some "audio", listedWav⟩ (· % 3) ⟨Store.empty, fun _ => none⟩ (by decide)
    listedWav_headers row hrow (by simp [World.recordings, Store.empty, Table.empty])

end Sample
end Api
end Telegraph
