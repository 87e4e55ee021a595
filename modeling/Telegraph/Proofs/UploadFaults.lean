import Telegraph.Proofs.UploadRaces

namespace Telegraph
open Lib BlobStore Function World
open SqliteStore (newRow)

namespace Api
open Task

/-- A `SELECT`, whose error an upload never swallows. -/
def IsSelect (c : Call) : Prop := ∃ clientId clientRecordingId, c = .select clientId clientRecordingId

theorem propagates_remove (path : String) :
    (ignore (Call.remove path) : Upload Unit).Propagates IsSelect := by
  apply propagates_ignore
  rintro ⟨_, _, h⟩
  cases h

theorem propagates_writeChunks {path : String} {broken : Bool} {chunks : List Bytes}
    {remaining : Nat} : (writeChunks path broken chunks remaining).Propagates IsSelect := by
  induction chunks generalizing remaining with
  | nil =>
    unfold writeChunks
    split <;> trivial
  | cons chunk rest ih =>
    unfold writeChunks
    refine propagates_bind (propagates_lift _) fun _ => ?_
    exact propagates_bind (propagates_perform _) fun _ => ih

theorem propagates_receiveField {path : String} {field : Field} {form : Form} :
    (receiveField path field form).Propagates IsSelect := by
  unfold receiveField
  split
  · split
    · trivial
    · refine propagates_bind ?_ fun _ => trivial
      unfold streamToFile
      refine propagates_bind (propagates_perform _) fun _ => ?_
      refine propagates_bind propagates_writeChunks fun _ => ?_
      exact propagates_bind (propagates_perform _) fun _ => trivial
  all_goals exact propagates_bind (propagates_lift _) fun _ => trivial

theorem propagates_receiveFields {path : String} {broken : Bool} {fields : List Field}
    {form : Form} : (receiveFields path broken fields form).Propagates IsSelect := by
  induction fields generalizing form with
  | nil =>
    unfold receiveFields
    split <;> trivial
  | cons field rest ih =>
    unfold receiveFields
    exact propagates_bind propagates_receiveField fun _ => ih

theorem propagates_register {new : NewRecording} {relative : String} :
    (register new relative).Propagates IsSelect := by
  unfold register
  refine propagates_bind (propagates_catching ?_ (fun _ _ => trivial) fun _ => ?_) fun creation => ?_
  · unfold createRecording
    refine propagates_bind (propagates_perform _) fun _ => ?_
    refine propagates_bind (propagates_perform _) fun _ => ?_
    exact propagates_bind (propagates_require _ _) fun _ => trivial
  · exact propagates_bind (propagates_remove _) fun _ => trivial
  · split
    · trivial
    · exact propagates_bind (propagates_remove _) fun _ => trivial

theorem propagates_ingest {config : AppConfig} {parsers : Parsers} {c k id path : String} {t : Int}
    {multipart : Multipart} : (ingest config parsers c k id t path multipart).Propagates IsSelect := by
  unfold ingest
  refine propagates_bind propagates_receiveFields fun form => ?_
  split
  · trivial
  · refine propagates_bind (propagates_lift _) fun _ => ?_
    refine propagates_bind (propagates_lift _) fun _ => ?_
    refine propagates_bind (propagates_perform _) fun _ => ?_
    refine propagates_bind (propagates_lift _) fun _ => ?_
    refine propagates_bind (propagates_perform _) fun _ => ?_
    exact propagates_bind (propagates_perform _) fun _ => propagates_register

theorem propagates_uploadRecording {config : AppConfig} {parsers : Parsers} {supply : Supply Unit}
    {request : Request} : (uploadRecording config parsers supply request).Propagates IsSelect := by
  unfold uploadRecording
  refine propagates_bind (propagates_lift _) fun _ => ?_
  refine propagates_bind (propagates_perform _) fun found => ?_
  cases found with
  | some existing => trivial
  | none =>
    refine propagates_catching propagates_ingest (fun _ _ => trivial) fun _ => ?_
    exact propagates_bind (propagates_remove _) fun _ => trivial

end Api

namespace Uploads

/-- An upload that failed left no file and no row; one that succeeded left its key a
row whose `blob_path` names a file that is there. -/
structure Atomic {ι : Type} (config : AppConfig) (supply : ι → Supply Unit) (request : ι → Request)
    (t : Uploads ι) (i : ι) : Prop where
  failed : ∀ e, t.tasks i = .fail e → t.shared.files (tempPath (supply i).id) = none ∧
    t.shared.files (relativePath (supply i).id) = none ∧
    ∀ row ∈ t.shared.recordings, row.id ≠ (supply i).id
  succeeded : ∀ response, t.tasks i = .done response → ∃ row ∈ t.shared.recordings,
    (request i).key config = some (row.clientId, row.clientRecordingId) ∧
      ∃ path content, row.blobPath = some path ∧ t.shared.files path = some content

variable {ι : Type} {config : AppConfig} {parsers : Parsers}
variable {supply : ι → Supply Unit} {request : ι → Request} {w₀ : World}
variable [DecidableEq ι] {t : Uploads ι} {moves : List (UploadMove ι)}

/-- The `INSERT` adds at most a row. -/
theorem insertRecording_keeps {s : Store} {new : NewRecording} {row : RecordingRow}
    (h : row ∈ s.recordings.rows) :
    row ∈ ((SqliteStore.insertRecording new).run s).1.recordings.rows := by
  simp only [SqliteStore.insertRecording, Program.run, Program.exec, Connection.view_closed,
    Store.insertRecording]
  cases s.recordingByKey (newRow new).clientId (newRow new).clientRecordingId with
  | some other => exact h
  | none =>
    cases ht : s.recordings.insert (newRow new) with
    | none => exact h
    | some t =>
      change row ∈ t.rows
      rw [(Table.insert_some ht).1]
      exact List.mem_append_left _ h

theorem answer_keeps {c : Call} {w : World} {row : RecordingRow} (h : row ∈ w.recordings) :
    row ∈ (answer c w).1.recordings := by
  cases c with
  | insert new => exact insertRecording_keeps h
  | rename source target =>
    simp only [answer]
    split <;> exact h
  | _ => exact h

theorem breaks_keeps {c : Call} {w w' : World} {n : Nat} {e : ApiError} {row : RecordingRow}
    (hb : breaks c n w = some (w', e)) (h : row ∈ w.recordings) : row ∈ w'.recordings := by
  cases c with
  | remove path => cases hb
  | _ =>
    cases hb
    exact h

/-- No call, whatever becomes of it, removes a row. -/
theorem step_keeps_rows {t' : Uploads ι} {i : ι} {fault : Option Nat} {row : RecordingRow}
    (hs : t.step machine i fault = some t') (h : row ∈ t.shared.recordings) :
    row ∈ t'.shared.recordings := by
  obtain ⟨c, next, -, ⟨-, rfl⟩ | ⟨n, w, e, -, hb, rfl⟩⟩ := Team.step_cases hs
  · exact answer_keeps h
  · exact breaks_keeps hb h

omit [DecidableEq ι] in
/-- Without a lost row every upload is atomic, at every moment of the run. -/
theorem atomic_of_safe
    (h : Team.AllSafe machine (termsOf config supply request)
      (fun i => World.Outcome config (supply i) (request i)) t)
    (hb : t.shared.Backed) (i : ι) : Atomic config supply request t i := by
  refine ⟨fun e he => ?_, fun response hd => ?_⟩
  · have hv : t.shared.Vacant (supply i).id := h.failed he
    exact ⟨hv.tempFile, hv.blobFile, hv.noRow⟩
  · rcases h.done hd with ⟨key, audio, row, hk, -, hc, -⟩ | ⟨-, row, hrow, hk, -⟩
    · exact ⟨row, hc.mem, by rw [hk, hc.rowKey], hb row hc.mem⟩
    · exact ⟨row, hrow, hk, hb row hrow⟩

/-- An upload that loses its row ends in an error, and the row stays. -/
theorem not_atomic_of_loses {e : UploadMove ι}
    (hr : Team.Runs machine (arrived config parsers supply request w₀) moves t) (he : e ∈ moves)
    (hl : LosesRow supply e) (hend : t.Ended e.mover) : ¬ Atomic config supply request t e.mover := by
  obtain ⟨hfault, ⟨c, k, next, hcall⟩, row, hrow, hid⟩ := hl
  obtain ⟨earlier, later, t', hbefore, hstep, hafter⟩ := hr.split he
  have hpropagates : (e.before.tasks e.mover).Propagates Api.IsSelect :=
    hbefore.keeps (P := fun t => (t.tasks e.mover).Propagates Api.IsSelect)
      Api.propagates_uploadRecording fun _ _ _ _ h hs => Team.step_propagates hs h
  rw [hcall] at hpropagates
  have hfails : (t'.tasks e.mover).Fails := by
    obtain ⟨c', next', hc', ⟨hnone, -⟩ | ⟨n, w, error, -, -, rfl⟩⟩ := Team.step_cases hstep
    · rw [hnone] at hfault
      cases hfault
    · rw [hcall] at hc'
      cases hc'
      simp only [update_self]
      exact hpropagates.1 ⟨c, k, rfl⟩ error
  have hlast : (t.tasks e.mover).Fails :=
    hafter.keeps (P := fun t => (t.tasks e.mover).Fails) hfails fun _ _ _ _ h hs =>
      Team.step_fails hs h
  have hstays : row ∈ t.shared.recordings :=
    hafter.keeps (P := fun t => row ∈ t.shared.recordings) (step_keeps_rows hstep hrow)
      fun _ _ _ _ h hs => step_keeps_rows hs h
  intro hatomic
  rcases hend with ⟨response, hd⟩ | ⟨error, hf⟩
  · rw [hd] at hlast
    cases hlast
  · exact (hatomic.failed error hf).2.2 row hstays hid

/-- Uploads are atomic exactly in the runs that lose no row, whatever else fails. -/
theorem uploads_atomic_iff (hids : Injective fun i => (supply i).id)
    (hv : ∀ i, w₀.Vacant (supply i).id) (hb : w₀.Backed)
    (hr : Team.Runs machine (arrived config parsers supply request w₀) moves t) :
    ((∀ e ∈ moves, ¬ LosesRow supply e) →
      t.shared.Backed ∧ ∀ i, Atomic config supply request t i) ∧
    ((∀ i, t.Ended i) → ((t.shared.Backed ∧ ∀ i, Atomic config supply request t i) ↔
      ∀ e ∈ moves, ¬ LosesRow supply e)) := by
  have keeps : (∀ e ∈ moves, ¬ LosesRow supply e) →
      t.shared.Backed ∧ ∀ i, Atomic config supply request t i := by
    intro hm
    have hbacked : t.shared.Backed :=
      Team.Runs.invariant (T := termsOf config supply request) (share hids)
        (fun i => safe_uploadRecording (hv i)) hb (fun _ _ _ hc h => hc.backed h) hr
        fun e he => allowed_of_keeps (hm e he)
    exact ⟨hbacked, atomic_of_safe (safe hids hv hr hm) hbacked⟩
  refine ⟨keeps, fun hend => ⟨fun hatomic e he hl => ?_, keeps⟩⟩
  exact not_atomic_of_loses hr he hl (hend e.mover) (hatomic.2 e.mover)

section Sample

/-- One upload into an empty world. -/
def single : Uploads Unit :=
  arrived sampleConfig noParsers (fun _ => ⟨0, "rec-1", ()⟩) (fun _ => sampleRequest) emptyWorld

/-- Eight calls up to and with the `INSERT`, the `SELECT` that fails, two removals. -/
def lostRow : List (Unit × Option Nat) :=
  List.replicate 8 ((), none) ++ [((), some 0), ((), none), ((), none)]

def uploadFailed : Task Call Call.Answer ApiError Response → Bool
  | .fail _ => true
  | _ => false

/-- The `SELECT` after a committed `INSERT` fails: the answer is an error, the row is
there and the file it names is gone. -/
theorem failed_upload_leaves_row : ∃ t : Uploads Unit, single.play machine lostRow = some t ∧
    uploadFailed (t.tasks ()) = true ∧ ∃ row ∈ t.shared.recordings, ∃ path,
      row.blobPath = some path ∧ t.shared.files path = none := by
  have hplay : (single.play machine lostRow).map (fun t => (uploadFailed (t.tasks ()),
      t.shared.recordings.map (·.blobPath), t.shared.files (relativePath "rec-1"))) =
      some (true, [some (relativePath "rec-1")], none) := by decide +kernel
  obtain ⟨t, ht, hseen⟩ := Option.map_eq_some_iff.mp hplay
  simp only [Prod.mk.injEq] at hseen
  obtain ⟨hfailed, hrows, hgone⟩ := hseen
  have hin : some (relativePath "rec-1") ∈ t.shared.recordings.map (·.blobPath) := by
    rw [hrows]
    exact List.mem_singleton_self _
  obtain ⟨row, hrow, hpath⟩ := List.mem_map.mp hin
  exact ⟨t, ht, hfailed, row, hrow, _, hpath, hgone⟩

/-- Both requests find no row and stream; the second breaks off in its first chunk. -/
def brokenWrite : List (Bool × Option Nat) :=
  [(true, none), (false, none), (true, none), (false, none), (false, some 3), (true, none),
    (false, none)] ++ List.replicate 6 (true, none)

/-- The upload whose disk filled up fails and leaves nothing, and the one it overlapped
is stored. -/
theorem uploads_atomic_broken_write : ∃ t : Uploads Bool, racing.play machine brokenWrite = some t ∧
    responseCode (t.tasks true) = some 201 ∧ uploadFailed (t.tasks false) = true ∧ t.shared.Backed ∧
    ∀ b, Atomic sampleConfig (fun b => ⟨0, if b then "rec-1" else "rec-2", ()⟩)
      (fun _ => sampleRequest) t b := by
  have hplay : (racing.play machine brokenWrite).map (fun t => (responseCode (t.tasks true),
      uploadFailed (t.tasks false), t.shared.recordings.map (·.id))) =
      some (some 201, true, ["rec-1"]) := by decide +kernel
  obtain ⟨t, ht, hseen⟩ := Option.map_eq_some_iff.mp hplay
  simp only [Prod.mk.injEq] at hseen
  obtain ⟨hstored, hfailed, hrows⟩ := hseen
  obtain ⟨moves, hruns, hmoves⟩ := Team.Runs.start.play ht
  -- Only the second upload breaks off, and no row ever has its id.
  have hfault : ∀ e ∈ [] ++ moves, ¬ LosesRow (fun b => ⟨0, if b then "rec-1" else "rec-2", ()⟩) e := by
    intro e he hl
    obtain ⟨hbroken, -, row, hrow, hid⟩ := hl
    obtain ⟨_, _, t', -, hstep, hafter⟩ := hruns.split he
    have hstays : row ∈ t.shared.recordings :=
      hafter.keeps (P := fun t => row ∈ t.shared.recordings) (step_keeps_rows hstep hrow)
        fun _ _ _ _ h hs => step_keeps_rows hs h
    have hmine : row.id = "rec-1" := by
      have hin : row.id ∈ t.shared.recordings.map (·.id) := List.mem_map_of_mem hstays
      rw [hrows] at hin
      exact List.mem_singleton.mp hin
    have hother : (e.mover, e.fault) ∈ brokenWrite := by
      rw [← hmoves]
      exact List.mem_map.mpr ⟨e, he, rfl⟩
    have hfalse : ∀ m ∈ brokenWrite, m.2.isSome = true → m.1 = false := by decide
    have hmover : e.mover = false := hfalse _ hother hbroken
    rw [hmover, hmine] at hid
    revert hid
    decide
  obtain ⟨hall, -⟩ := uploads_atomic_iff racing_ids (fun _ => emptyWorld_vacant _)
    (fun row h => by cases h) hruns
  obtain ⟨hbacked, hatomic⟩ := hall hfault
  exact ⟨t, ht, hstored, hfailed, hbacked, hatomic⟩

end Sample
end Uploads
end Telegraph
