import Telegraph.Proofs.UploadSafe

namespace Telegraph
open Lib BlobStore Function World

/-- A fault at the one place an upload cannot recover from: the `SELECT` that follows
the `INSERT` which created its row. -/
def LosesRow {ι : Type} (supply : ι → Supply Unit) (e : UploadMove ι) : Prop :=
  e.fault.isSome = true ∧ (∃ c k next, e.before.tasks e.mover = .call (.select c k) next) ∧
    ∃ row ∈ e.before.shared.recordings, row.id = (supply e.mover).id

namespace Uploads
variable {ι : Type} {config : AppConfig} {parsers : Parsers}
variable {supply : ι → Supply Unit} {request : ι → Request} {w₀ : World}

/-- The terms each upload works under. -/
abbrev termsOf (config : AppConfig) (supply : ι → Supply Unit) (request : ι → Request) (i : ι) :
    Terms Call World :=
  terms (supply i).id ((request i).key config)

theorem share (hids : Injective fun i => (supply i).id) (i j : ι) (hj : j ≠ i) (w w' : World)
    (h : (termsOf config supply request i).guar w w') : (termsOf config supply request j).rely w w' :=
  Changes.others h fun he => hj (hids he)

theorem allowed_of_keeps {e : UploadMove ι} (h : ¬ LosesRow supply e) :
    Team.Allowed (termsOf config supply request) e := by
  intro n hf c next hc
  cases c with
  | select c k =>
    intro r hr he
    exact h ⟨by rw [hf]; rfl, ⟨c, k, next, hc⟩, r, hr, he⟩
  | _ => trivial

/-- Every row is an old one or the row of one of these uploads, under its key. -/
def Sourced (config : AppConfig) (supply : ι → Supply Unit) (request : ι → Request) (w₀ w : World) :
    Prop :=
  ∀ row ∈ w.recordings, row ∈ w₀.recordings ∨ ∃ i, row.id = (supply i).id ∧
    (request i).key config = some (row.clientId, row.clientRecordingId)

theorem Sourced.keeps {w w' : World} {i : ι} (h : Sourced config supply request w₀ w)
    (hc : Changes (supply i).id ((request i).key config) w w') :
    Sourced config supply request w₀ w' := by
  obtain ⟨more, hr, hm⟩ := hc.rows
  intro row hrow
  rw [hr] at hrow
  rcases List.mem_append.mp hrow with hrow | hrow
  · exact h row hrow
  · obtain ⟨hid, hkey, -⟩ := hm row hrow
    exact Or.inr ⟨i, hid, hkey⟩

/-- Rows of one key are one row. -/
theorem row_unique {w : World} {r r' : RecordingRow} (h : r ∈ w.recordings) (h' : r' ∈ w.recordings)
    (hk : (r.clientId, r.clientRecordingId) = (r'.clientId, r'.clientRecordingId)) : r = r' := by
  have hf := recordingByKey_of_mem h
  obtain ⟨hc, hr⟩ := Prod.mk.inj hk
  rw [hc, hr, recordingByKey_of_mem h'] at hf
  exact (Option.some.inj hf).symm

variable [DecidableEq ι] {t : Uploads ι} {moves : List (UploadMove ι)}

/-- In a run that loses no row every upload keeps to its terms. -/
theorem safe (hids : Injective fun i => (supply i).id) (hv : ∀ i, w₀.Vacant (supply i).id)
    (hr : Team.Runs machine (arrived config parsers supply request w₀) moves t)
    (hm : ∀ e ∈ moves, ¬ LosesRow supply e) :
    Team.AllSafe machine (termsOf config supply request) (fun i => World.Outcome config (supply i) (request i))
      t :=
  hr.safe (share hids) (fun i => safe_uploadRecording (hv i)) fun e he => allowed_of_keeps (hm e he)

theorem sourced (hids : Injective fun i => (supply i).id) (hv : ∀ i, w₀.Vacant (supply i).id)
    (hr : Team.Runs machine (arrived config parsers supply request w₀) moves t)
    (hm : ∀ e ∈ moves, ¬ LosesRow supply e) : Sourced config supply request w₀ t.shared :=
  Team.Runs.invariant (T := termsOf config supply request) (share hids)
    (fun i => safe_uploadRecording (hv i)) (fun _ h => Or.inl h) (fun _ _ _ hc h => h.keeps hc) hr
    fun e he => allowed_of_keeps (hm e he)

/-- The row a key has. -/
def rowsOf (w : World) (key : String × String) : List RecordingRow :=
  w.recordings.filter fun r => r.clientId == key.1 && r.clientRecordingId == key.2

theorem mem_rowsOf {w : World} {key : String × String} {row : RecordingRow} :
    row ∈ rowsOf w key ↔ row ∈ w.recordings ∧ (row.clientId, row.clientRecordingId) = key := by
  simp [rowsOf, Prod.ext_iff]

theorem rowsOf_eq (w : World) (key : String × String) :
    rowsOf w key = (w.store.recordingByKey key.1 key.2).toList := by
  apply Table.filter_eq_toList
  intro a b ha hb
  simp only [Bool.and_eq_true, beq_iff_eq] at ha hb
  simp [RecordingRow.clash, ha, hb]

theorem rowsOf_of_mem {w : World} {key : String × String} {row : RecordingRow}
    (h : row ∈ w.recordings) (hk : (row.clientId, row.clientRecordingId) = key) :
    rowsOf w key = [row] := by
  subst hk
  rw [rowsOf_eq, recordingByKey_of_mem h]
  rfl

/-- Request `i` created the row of `key`, over its own audio, and every other request
for the key answered with that row and left no blob. -/
structure Wins (config : AppConfig) (supply : ι → Supply Unit) (request : ι → Request)
    (t : Uploads ι) (key : String × String) (row : RecordingRow) (i : ι) : Prop where
  about : (request i).key config = some key
  rowId : row.id = (supply i).id
  blobPath : row.blobPath = some (relativePath (supply i).id)
  answered : t.tasks i = .done (newResponse row.toRecording)
  audio : ∃ audio, audioOf (request i).multipart.fields = some audio ∧
    t.shared.files (relativePath (supply i).id) = some audio
  others : ∀ j, j ≠ i → (request j).key config = some key →
    t.shared.files (relativePath (supply j).id) = none ∧
      ∀ response, t.tasks j = .done response → response = duplicateResponse row.toRecording

/-- The row of `key` was there before, and every request for it answered with it and
left no blob. -/
structure Known (config : AppConfig) (supply : ι → Supply Unit) (request : ι → Request)
    (w₀ : World) (t : Uploads ι) (key : String × String) (row : RecordingRow) : Prop where
  old : row ∈ w₀.recordings
  others : ∀ j, (request j).key config = some key →
    t.shared.files (relativePath (supply j).id) = none ∧
      ∀ response, t.tasks j = .done response → response = duplicateResponse row.toRecording

omit [DecidableEq ι] in
/-- What an upload that is over did, told by the row of its key. -/
theorem over_cases {i : ι} {key : String × String} {row : RecordingRow}
    (h : Team.AllSafe machine (termsOf config supply request)
      (fun i => World.Outcome config (supply i) (request i)) t)
    (hk : (request i).key config = some key) (he : t.Ended i) (hrow : row ∈ t.shared.recordings)
    (hkey : (row.clientId, row.clientRecordingId) = key) :
    (row.id = (supply i).id ∧ row.blobPath = some (relativePath (supply i).id) ∧
      t.tasks i = .done (newResponse row.toRecording) ∧
      ∃ audio, audioOf (request i).multipart.fields = some audio ∧
        t.shared.files (relativePath (supply i).id) = some audio) ∨
    (row.id ≠ (supply i).id ∧ t.shared.files (relativePath (supply i).id) = none ∧
      ∀ response, t.tasks i = .done response → response = duplicateResponse row.toRecording) := by
  rcases he with ⟨response, hd⟩ | ⟨e, hf⟩
  · rcases h.done hd with ⟨k, audio, own, hk', ha, hc, rfl⟩ | ⟨hv, other, ho, hk', rfl⟩
    · obtain rfl := Option.some.inj (hk.symm.trans hk')
      obtain rfl := row_unique hrow hc.mem (hkey.trans hc.rowKey.symm)
      exact Or.inl ⟨hc.rowId, hc.rowPath, hd, audio, ha, hc.blobFile⟩
    · have hsame := Option.some.inj (hk.symm.trans hk')
      obtain rfl := row_unique hrow ho (hkey.trans hsame)
      refine Or.inr ⟨hv.noRow row hrow, hv.blobFile, fun response hd' => ?_⟩
      rw [hd] at hd'
      cases hd'
      rfl
  · have hv : t.shared.Vacant (supply i).id := h.failed hf
    refine Or.inr ⟨hv.noRow row hrow, hv.blobFile, fun response hd => ?_⟩
    rw [hf] at hd
    cases hd

/-- A step of a request for another key touches neither the key's row nor the tasks
and files of the requests for it. -/
theorem step_apart {t' : Uploads ι} {i : ι} {key : String × String}
    (hids : Injective fun i => (supply i).id)
    (h : Team.AllSafe machine (termsOf config supply request)
      (fun i => World.Outcome config (supply i) (request i)) t)
    (hs : t.step machine i none = some t') (hk : (request i).key config ≠ some key) :
    rowsOf t'.shared key = rowsOf t.shared key ∧ ∀ j, (request j).key config = some key →
      t'.tasks j = t.tasks j ∧
      t'.shared.files (tempPath (supply j).id) = t.shared.files (tempPath (supply j).id) ∧
      t'.shared.files (relativePath (supply j).id) = t.shared.files (relativePath (supply j).id) := by
  have hc := (h.step (share hids) hs fun _ hf => by cases hf).1
  refine ⟨?_, fun j hj => ?_⟩
  · obtain ⟨more, hr, hm⟩ := hc.rows
    have hnone : (more.filter fun r => r.clientId == key.1 && r.clientRecordingId == key.2) = [] := by
      apply List.filter_eq_nil_iff.mpr
      intro r hmem hq
      simp only [Bool.and_eq_true, beq_iff_eq] at hq
      exact hk (by rw [(hm r hmem).2.1, hq.1, hq.2])
    unfold rowsOf
    rw [hr, List.filter_append, hnone, List.append_nil]
  · have hne : j ≠ i := by
      rintro rfl
      exact hk hj
    have ho := hc.others fun he => hne (hids he)
    exact ⟨Team.step_other hs hne, ho.temp, ho.blob⟩

/-- Any number of uploads, their steps in any order and none of them failing. -/
theorem uploads_idempotent (hids : Injective fun i => (supply i).id)
    (hv : ∀ i, w₀.Vacant (supply i).id)
    (hr : Team.Runs machine (arrived config parsers supply request w₀) moves t)
    (hn : ∀ e ∈ moves, e.fault = none) (key : String × String) :
    (rowsOf t.shared key).length ≤ 1 ∧
    (∀ i t', t.step machine i none = some t' →
      ∀ row ∈ rowsOf t.shared key, row ∈ rowsOf t'.shared key) ∧
    (∀ i t', t.step machine i none = some t' → (request i).key config ≠ some key →
      rowsOf t'.shared key = rowsOf t.shared key ∧ ∀ j, (request j).key config = some key →
        t'.tasks j = t.tasks j ∧
        t'.shared.files (tempPath (supply j).id) = t.shared.files (tempPath (supply j).id) ∧
        t'.shared.files (relativePath (supply j).id) = t.shared.files (relativePath (supply j).id)) ∧
    ((∀ i, (request i).key config = some key → t.Ended i) →
      (∃ i response, (request i).key config = some key ∧ t.tasks i = .done response) →
      ∃ row, rowsOf t.shared key = [row] ∧
        (Known config supply request w₀ t key row ∨
          ∃ i, Wins config supply request t key row i)) := by
  have hm : ∀ e ∈ moves, ¬ LosesRow supply e := by
    intro e he hl
    rw [LosesRow, hn e he] at hl
    exact absurd hl.1 (by simp)
  have hsafe := safe hids hv hr hm
  have hsource := sourced hids hv hr hm
  refine ⟨?_, fun i t' hs row hrow => ?_, fun i t' hs hk => step_apart hids hsafe hs hk,
    fun hended hone => ?_⟩
  · rw [rowsOf_eq]
    cases t.shared.store.recordingByKey key.1 key.2 <;> simp
  · have hc := (hsafe.step (share hids) hs fun _ hf => by cases hf).1
    obtain ⟨more, hrows, -⟩ := hc.rows
    obtain ⟨hmem, hkey⟩ := mem_rowsOf.mp hrow
    refine mem_rowsOf.mpr ⟨?_, hkey⟩
    rw [hrows]
    exact List.mem_append_left _ hmem
  · obtain ⟨i, response, hki, hd⟩ := hone
    -- Whoever answered saw the row of the key.
    have hrow : ∃ row ∈ t.shared.recordings, (row.clientId, row.clientRecordingId) = key := by
      rcases hsafe.done hd with ⟨k, audio, own, hk', ha, hc, -⟩ | ⟨-, other, ho, hk', -⟩
      · exact ⟨own, hc.mem, hc.rowKey.trans (Option.some.inj (hki.symm.trans hk')).symm⟩
      · exact ⟨other, ho, (Option.some.inj (hki.symm.trans hk')).symm⟩
    obtain ⟨row, hmem, hkey⟩ := hrow
    refine ⟨row, rowsOf_of_mem hmem hkey, ?_⟩
    rcases hsource row hmem with hold | ⟨w, hid, hkw⟩
    · refine Or.inl ⟨hold, fun j hj => ?_⟩
      rcases over_cases hsafe hj (hended j hj) hmem hkey with ⟨hid, -⟩ | ⟨-, hblob, hdup⟩
      · exact absurd hid ((hv j).noRow row hold)
      · exact ⟨hblob, hdup⟩
    · rw [hkey] at hkw
      right
      rcases over_cases hsafe hkw (hended w hkw) hmem hkey with ⟨-, hp, hans, haudio⟩ | ⟨hne, -⟩
      · refine ⟨w, hkw, hid, hp, hans, haudio, fun j hj hkj => ?_⟩
        rcases over_cases hsafe hkj (hended j hkj) hmem hkey with ⟨hid', -⟩ | ⟨-, hblob, hdup⟩
        · exact absurd (hids (hid'.symm.trans hid)) hj
        · exact ⟨hblob, hdup⟩
      · exact absurd hid hne

section Sample

def ascii (s : String) : Bytes := s.toList.map fun c => c.toNat.toUInt8

/-- A mono 16 kHz header in front of an empty `data` chunk. -/
def emptyWav : Bytes :=
  Wav.riffId ++ [36, 0, 0, 0] ++ Wav.waveId ++ Wav.fmtId ++ [16, 0, 0, 0, 1, 0, 1, 0, 128, 62, 0, 0] ++
    [0, 125, 0, 0, 2, 0, 16, 0] ++ Wav.dataId ++ [0, 0, 0, 0]

def sampleConfig : AppConfig := ⟨⟨4096⟩, [⟨"phone", "sha256:aa"⟩], []⟩

/-- Nothing is parsed in the samples: their bodies have no text field. -/
def noParsers : Parsers := ⟨fun _ => none, fun _ => none⟩

def sampleRequest : Request where
  headers := [(Api.fingerprintHeader, ascii "sha256:aa"), (Api.recordingIdHeader, ascii "memo")]
  multipart := ⟨[⟨some "audio", some "memo.wav", [emptyWav], false⟩], false⟩

def emptyWorld : World := ⟨Store.empty, fun _ => none⟩

theorem emptyWorld_vacant (id : String) : emptyWorld.Vacant id := by
  refine ⟨⟨?_, ?_, ?_⟩, rfl, rfl⟩
  all_goals
    intro r h
    cases h

def responseCode : Task Call Call.Answer ApiError Response → Option Nat
  | .done response => some response.code
  | _ => none

theorem done_of_code {p : Task Call Call.Answer ApiError Response} {n : Nat}
    (h : responseCode p = some n) : ∃ response, p = .done response := by
  cases p with
  | done response => exact ⟨response, rfl⟩
  | fail e => cases h
  | call c next => cases h

/-- Two requests for one key that both find no row, then race to create it. -/
def racing : Uploads Bool :=
  arrived sampleConfig noParsers (fun b => ⟨0, if b then "rec-1" else "rec-2", ()⟩)
    (fun _ => sampleRequest) emptyWorld

theorem racing_ids : Injective fun b : Bool => (if b then "rec-1" else "rec-2" : String) := by
  intro a b hab
  revert hab
  cases a <;> cases b <;> decide

def race : List (Bool × Option Nat) :=
  ([true, false] ++ List.replicate 6 true ++ List.replicate 6 false ++
    [true, false, true, false, false]).map (·, none)

theorem uploads_idempotent_racing : ∃ (t : Uploads Bool) (row : RecordingRow) (i : Bool),
    racing.play machine race = some t ∧ rowsOf t.shared ("phone", "memo") = [row] ∧
    Wins sampleConfig (fun b => ⟨0, if b then "rec-1" else "rec-2", ()⟩) (fun _ => sampleRequest) t
      ("phone", "memo") row i := by
  have hcodes : (racing.play machine race).map
      (fun t => (responseCode (t.tasks true), responseCode (t.tasks false))) =
      some (some 201, some 200) := by decide +kernel
  obtain ⟨t, ht, hc⟩ := Option.map_eq_some_iff.mp hcodes
  obtain ⟨moves, hruns, hmoves⟩ := Team.Runs.start.play ht
  have hdone : ∀ b, ∃ response, t.tasks b = .done response := by
    intro b
    cases b with
    | true => exact done_of_code (congrArg Prod.fst hc)
    | false => exact done_of_code (congrArg Prod.snd hc)
  have hfault : ∀ e ∈ moves, e.fault = none := by
    intro e he
    have hin : (e.mover, e.fault) ∈ race := by
      rw [← hmoves]
      exact List.mem_map.mpr ⟨e, he, rfl⟩
    obtain ⟨b, -, hb⟩ := List.mem_map.mp hin
    exact (Prod.mk.inj hb).2.symm
  have hkey : sampleRequest.key sampleConfig = some ("phone", "memo") := by decide +kernel
  obtain ⟨-, -, -, hend⟩ := uploads_idempotent racing_ids (fun b => emptyWorld_vacant _) hruns hfault
    ("phone", "memo")
  obtain ⟨response, hr⟩ := hdone true
  obtain ⟨row, hrow, hknown | ⟨i, hw⟩⟩ := hend (fun b _ => Or.inl (hdone b)) ⟨true, response, hkey, hr⟩
  · cases hknown.old
  · exact ⟨t, row, i, ht, hrow, hw⟩

end Sample
end Uploads
end Telegraph
