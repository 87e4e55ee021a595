import Telegraph.Center
import Telegraph.Proofs.UploadColumns
import Telegraph.Proofs.UploadFaults

namespace Telegraph
open Lib BlobStore Function World

namespace Api
open Task

def IsInsert (c : Call) : Prop := ∃ new, c = .insert new

/-- A call that at most takes the files of this id away. -/
def IsQuiet (id : String) (c : Call) : Prop :=
  (∃ clientId clientRecordingId, c = .select clientId clientRecordingId) ∨
    c = .remove (tempPath id) ∨ c = .remove (relativePath id)

variable {id : String}

theorem not_insert_of_quiet (c : Call) (h : IsQuiet id c) : ¬ IsInsert c := by
  rintro ⟨new, rfl⟩
  rcases h with ⟨_, _, h⟩ | h | h <;> cases h

theorem quiet_select (c k : String) : IsQuiet id (.select c k) := .inl ⟨c, k, rfl⟩

theorem quiet_removeTemp : IsQuiet id (.remove (tempPath id)) := .inr (.inl rfl)

theorem quiet_removeBlob : IsQuiet id (.remove (relativePath id)) := .inr (.inr rfl)

theorem only_register_rest {new : NewRecording} (r : Except ApiError Nat) :
    ((((lift r : Upload Nat).bind fun affected => confirm new (affected == 1)).catching fun e => do
      let _ ← ignore (Call.remove (relativePath id))
      fail e).bind fun creation =>
        if creation.created then pure (newResponse creation.recording)
        else do
          let _ ← ignore (Call.remove (relativePath id))
          pure (duplicateResponse creation.recording) : Upload Response).Only (IsQuiet id) := by
  refine only_bind (only_catching (only_bind (only_lift r) fun affected => ?_) fun e => ?_) fun creation => ?_
  · exact only_bind (only_perform (quiet_select _ _)) fun _ => only_bind (only_require _ _) fun _ => trivial
  · exact only_bind (only_ignore quiet_removeBlob) fun _ => trivial
  · split
    · trivial
    · exact only_bind (only_ignore quiet_removeBlob) fun _ => trivial

/-- Once the `INSERT` is made, an upload makes only quiet calls. -/
theorem settles_register (new : NewRecording) :
    (register new (relativePath id)).Settles IsInsert (IsQuiet id) :=
  ⟨fun _ r => only_register_rest r, fun r => settles_of_only (only_register_rest r) not_insert_of_quiet⟩

theorem settles_uploadRecording {config : AppConfig} {parsers : Parsers} {supply : Supply Unit}
    {request : Request} :
    (uploadRecording config parsers supply request).Settles IsInsert (IsQuiet supply.id) := by
  have other : ∀ c : Call, (∀ new, c ≠ .insert new) → ¬ IsInsert c := by
    rintro c h ⟨new, rfl⟩
    exact h new rfl
  unfold uploadRecording
  refine settles_bind (only_lift _) fun key => ?_
  refine settles_bind (only_perform (other _ (by simp))) fun found => ?_
  cases found with
  | some existing => trivial
  | none =>
    refine settles_catching ?_ (fun _ => only_bind (only_ignore quiet_removeTemp) fun _ => trivial)
      not_insert_of_quiet
    unfold ingest
    refine settles_bind (only_receive (other _ (by simp)) (fun _ => other _ (by simp)) (other _ (by simp)))
      fun form => ?_
    split
    · trivial
    · refine settles_bind (only_lift _) fun _ => settles_bind (only_lift _) fun _ => ?_
      refine settles_bind (only_perform (other _ (by simp))) fun _ => ?_
      refine settles_bind (only_lift _) fun _ => settles_bind (only_perform (other _ (by simp))) fun _ => ?_
      exact settles_bind (only_perform (other _ (by simp))) fun _ => settles_register _

end Api

namespace World
open Task
variable {w w' : World} {path : String} {content : Bytes}

theorem answer_rows {c : Call} (h : ¬ Api.IsInsert c) : (answer c w).1.recordings = w.recordings := by
  cases c with
  | insert new => exact absurd ⟨new, rfl⟩ h
  | rename source target =>
    simp only [answer]
    split <;> rfl
  | _ => rfl

theorem breaks_rows {c : Call} {k : Nat} {e : ApiError} (h : breaks c k w = some (w', e)) :
    w'.recordings = w.recordings := by
  cases c <;> cases h <;> rfl

/-- Quiet calls change no row and write no file. -/
theorem run_quiet {α : Type} {id : String} {t : Task Call Call.Answer ApiError α}
    (h : t.Only (Api.IsQuiet id)) :
    (machine.run t w).1.store = w.store ∧
      ∀ path content, (machine.run t w).1.files path = some content → w.files path = some content := by
  refine Machine.run_only (I := fun s : World => s.store = w.store ∧
    ∀ path content, s.files path = some content → w.files path = some content) ?_ h ⟨rfl, fun _ _ h => h⟩
  have removal : ∀ (s : World) (removed path : String) (content : Bytes),
      update s.files removed none path = some content → s.files path = some content := by
    intro s removed path content hf
    by_cases hp : path = removed
    · rw [hp, update_self] at hf
      cases hf
    · rwa [update_of_ne hp] at hf
  rintro c s (⟨clientId, clientRecordingId, rfl⟩ | rfl | rfl) hi
  · exact hi
  · exact ⟨hi.1, fun path content hf => hi.2 path content (removal s _ path content hf)⟩
  · exact ⟨hi.1, fun path content hf => hi.2 path content (removal s _ path content hf)⟩

/-- A quiet call leaves the rows and every other file alone, whatever becomes of it. -/
theorem quiet_frame {id : String} {c : Call} (h : Api.IsQuiet id c) :
    ((answer c w).1.store = w.store ∧ ∀ path, path ≠ tempPath id → path ≠ relativePath id →
      (answer c w).1.files path = w.files path) ∧
    (∀ path, (answer c w).1.files path ≠ none → w.files path ≠ none) ∧
    ∀ k w' e, breaks c k w = some (w', e) → w' = w := by
  have gone : ∀ removed path, update w.files removed none path ≠ none → w.files path ≠ none := by
    intro removed path hf
    by_cases hp : path = removed
    · exact absurd (hp ▸ update_self ..) hf
    · rwa [update_of_ne hp] at hf
  rcases h with ⟨clientId, clientRecordingId, rfl⟩ | rfl | rfl
  · refine ⟨⟨rfl, fun _ _ _ => rfl⟩, fun _ h => h, fun k w' e hb => ?_⟩
    cases hb
    rfl
  · exact ⟨⟨rfl, fun _ ht _ => update_of_ne ht ..⟩, gone _, fun k w' e hb => by cases hb⟩
  · exact ⟨⟨rfl, fun _ _ hr => update_of_ne hr ..⟩, gone _, fun k w' e hb => by cases hb⟩

end World

/-- No call breaks off. -/
def Doing.answered {ι : Type} : Doing ι → Bool
  | .upload _ (some _) => false
  | _ => true

namespace Center
open Task
variable {ι : Type} (config : AppConfig) (parsers : Parsers) (traffic : Traffic ι)

abbrev idOf (traffic : Traffic ι) (i : ι) : String := (traffic.supply i).id

/-- The terms of an upload, about the uploads and the files. -/
abbrev termsOf (i : ι) : Terms Call World :=
  (Uploads.termsOf config traffic.supply traffic.request i).along uploaded

/-- How an upload may end, whatever became of the Recording it tells of. -/
def Ends (i : ι) (r : Except ApiError Response) (w : World) : Prop :=
  ∃ r', EndAlike Api.SameAnswer r r' ∧ World.Outcome config (traffic.supply i) (traffic.request i) r' w.uploaded

/-- The row of upload `i`: under its id and key, over exactly the audio it sent. -/
structure Stored (files : Files) (i : ι) (row : RecordingRow) : Prop where
  rowId : row.id = idOf traffic i
  rowKey : (traffic.request i).key config = some (row.clientId, row.clientRecordingId)
  rowPath : row.blobPath = some (relativePath row.id)
  audio : ∃ audio, audioOf (traffic.request i).multipart.fields = some audio ∧
    files (relativePath row.id) = some audio

/-- The row of upload `i`: under its id and key. -/
structure Registered (i : ι) (row : RecordingRow) : Prop where
  rowId : row.id = idOf traffic i
  rowKey : (traffic.request i).key config = some (row.clientId, row.clientRecordingId)
  rowPath : row.blobPath = some (relativePath row.id)

/-- What holds at every moment: of the uploads still to come, of those of the running
process, of all, and of the rows and files. A `lost` upload has failed at the `SELECT` after
its `INSERT`; its row stays, its file need not. -/
structure Kept (lost : ι → Prop) (c : Center ι) : Prop where
  future : ∀ i, c.starts < traffic.reaches i →
    c.uploads i = Api.uploadRecording config parsers (traffic.supply i) (traffic.request i) ∧
      c.world.uploaded.Vacant (idOf traffic i)
  safe : c.process.running = true → ∀ i, ¬ lost i → traffic.reaches i = c.starts →
    (c.uploads i).Safe machine (termsOf config traffic i) (Ends config traffic i) c.world
  settles : ∀ i, (c.uploads i).Settles Api.IsInsert (Api.IsQuiet (idOf traffic i))
  quiet : ∀ i, ∀ row ∈ c.world.uploaded.recordings, row.id = idOf traffic i →
    (c.uploads i).Only (Api.IsQuiet (idOf traffic i))
  rows : ∀ row ∈ c.world.uploaded.recordings, ∃ i, Registered config traffic i row ∧
    (¬ lost i → Stored config traffic c.files i row)
  lostRow : ∀ i, lost i → ∃ row ∈ c.world.uploaded.recordings, row.id = idOf traffic i
  done : ∀ i response, ¬ lost i → c.uploads i = .done response → Ends config traffic i (.ok response) c.world
  failed : ∀ i e, ¬ lost i → c.uploads i = .fail e → Ends config traffic i (.error e) c.world
  temp : ∀ i, c.files (tempPath (idOf traffic i)) ≠ none → traffic.reaches i = c.starts
  named : ∀ path, c.files path ≠ none →
    ∃ i, path = tempPath (idOf traffic i) ∨ path = relativePath (idOf traffic i)

section Facts
variable {config parsers traffic} {i : ι} {w : World} {row : RecordingRow} {files : Files}

theorem safe_of_vacant (h : w.uploaded.Vacant (idOf traffic i)) :
    (Api.uploadRecording config parsers (traffic.supply i) (traffic.request i)).Safe machine
      (termsOf config traffic i) (Ends config traffic i) w :=
  Safe.along machine_abstracts Api.alike_uploadRecording (safe_uploadRecording h)

/-- A row in the table is the only one of its id. -/
theorem row_of_id {s : Store} {q r : RecordingRow} (hq : q ∈ s.recordings.rows) (hr : r ∈ s.recordings.rows)
    (h : q.id = r.id) : q = r := by
  have hfound := Store.recording_of_mem hq
  rw [h, Store.recording_of_mem hr] at hfound
  exact (Option.some.inj hfound).symm

/-- An upload with its row, left to itself, says whose row it is. -/
theorem stored_of_quiet {t : Api.Upload Response}
    (hs : t.Safe machine (termsOf config traffic i) (Ends config traffic i) w)
    (hq : t.Only (Api.IsQuiet (idOf traffic i)))
    (hrow : row ∈ w.uploaded.recordings) (hid : row.id = idOf traffic i) :
    Stored config traffic w.files i row := by
  obtain ⟨r', -, hout⟩ := hs.run
  have hstore : (machine.run t w).1.uploaded.recordings = w.uploaded.recordings :=
    congrArg (fun s : Store => s.uploaded.recordings.rows) (run_quiet hq).1
  cases r' with
  | error e =>
    have hv : (machine.run t w).1.uploaded.Vacant (idOf traffic i) := hout
    exact absurd hid (hv.noRow row (hstore ▸ hrow))
  | ok response =>
    rcases hout with ⟨key, audio, own, hkey, haudio, hc, -⟩ | ⟨hv, -⟩
    · have hmem : own ∈ w.uploaded.recordings := hstore ▸ hc.mem
      obtain rfl : own = row := row_of_id (s := w.store.uploaded) hmem hrow (hc.rowId.trans hid.symm)
      refine ⟨hid, hkey.trans (congrArg some hc.rowKey.symm), ?_, audio, haudio, ?_⟩
      · rw [hid]
        exact hc.rowPath
      · rw [hid]
        exact (run_quiet hq).2 _ _ hc.blobFile
    · exact absurd hid (hv.noRow row (hstore ▸ hrow))

theorem Ends.after {w' : World} {r : Except ApiError Response} (h : Ends config traffic i r w)
    (ho : Others (idOf traffic i) w.uploaded w'.uploaded) : Ends config traffic i r w' := by
  obtain ⟨r', he, hout⟩ := h
  refine ⟨r', he, ?_⟩
  cases r' with
  | error e => exact Holds.after hout ho
  | ok response =>
    rcases hout with ⟨key, audio, own, hkey, haudio, hc, hr⟩ | ⟨hv, own, hown, hkey, hr⟩
    · exact .inl ⟨key, audio, own, hkey, haudio, hc.after ho, hr⟩
    · exact .inr ⟨hv.after ho, own, ho.mem hown, hkey, hr⟩

theorem Stored.registered (h : Stored config traffic files i row) : Registered config traffic i row :=
  ⟨h.rowId, h.rowKey, h.rowPath⟩

theorem Stored.after {files files' : Files} (h : Stored config traffic files i row)
    (hf : files' (relativePath row.id) = files (relativePath row.id)) : Stored config traffic files' i row := by
  obtain ⟨audio, ha, hc⟩ := h.audio
  exact ⟨h.rowId, h.rowKey, h.rowPath, audio, ha, hf.trans hc⟩

end Facts

section Move
variable {config parsers traffic} {c : Center ι} {t' : Uploads ι} {i : ι} {fault : Option Nat}
variable {lost : ι → Prop} [DecidableEq ι]

/-- Whose row is new made its `INSERT`. -/
theorem insert_of_new (hs : c.team.step machine i fault = some t')
    (hnew : t'.shared.recordings ≠ c.world.recordings) :
    ∃ new next, c.uploads i = .call (.insert new) next := by
  obtain ⟨call, next, hc, ⟨-, rfl⟩ | ⟨k, s, e, -, hb, rfl⟩⟩ := Team.step_cases hs
  · by_cases hi : Api.IsInsert call
    · obtain ⟨new, rfl⟩ := hi
      exact ⟨new, next, hc⟩
    · exact absurd (answer_rows hi) hnew
  · exact absurd (breaks_rows hb) hnew

/-- The frame of a step of a quiet upload. -/
theorem frame_of_quiet {id : String} (hq : (c.uploads i).Only (Api.IsQuiet id))
    (hs : c.team.step machine i fault = some t') :
    (t'.shared.store = c.world.store ∧ ∀ path, path ≠ tempPath id → path ≠ relativePath id →
      t'.shared.files path = c.files path) ∧ ∀ path, t'.shared.files path ≠ none → c.files path ≠ none := by
  obtain ⟨call, next, hc, ⟨-, rfl⟩ | ⟨k, s, e, -, hb, rfl⟩⟩ := Team.step_cases hs
  · rw [show c.uploads i = _ from hc] at hq
    obtain ⟨hframe, hgone, -⟩ := quiet_frame (w := c.world) hq.1
    exact ⟨hframe, hgone⟩
  · rw [show c.uploads i = _ from hc] at hq
    obtain rfl : s = c.world := (quiet_frame hq.1).2.2 k s e hb
    exact ⟨⟨rfl, fun _ _ _ => rfl⟩, fun _ h => h⟩

/-- A call of an upload, answered or broken off, except for the `SELECT` after its own
`INSERT`. -/
theorem Kept.upload (hids : Injective (idOf traffic)) (h : c.Kept config parsers traffic lost)
    (hrun : c.process.running = true) (hi : traffic.reaches i = c.starts) (hlost : ¬ lost i)
    (hs : c.team.step machine i fault = some t') (hl : ¬ LosesRow traffic.supply ⟨c.team, i, fault⟩) :
    (c.withTeam t').Kept config parsers traffic lost := by
  have hallowed : ∀ k, fault = some k → ∀ call next, c.uploads i = .call call next →
      (termsOf config traffic i).may call c.world := by
    intro k hf call next hc
    cases call with
    | select clientId clientRecordingId =>
      intro r hr hid
      obtain ⟨q, hq, rfl⟩ := Store.mem_uploaded.mp hr
      exact hl ⟨by rw [hf]; rfl, ⟨_, _, next, hc⟩, q, hq, hid⟩
    | _ => trivial
  obtain ⟨hg, hsafe⟩ := Team.step_safe (h.safe hrun i hlost hi) hs hallowed
  replace hg : Changes (idOf traffic i) ((traffic.request i).key config) c.world.uploaded t'.shared.uploaded := hg
  have hothers : ∀ j, j ≠ i → Others (idOf traffic j) c.world.uploaded t'.shared.uploaded :=
    fun j hj => hg.others fun he => hj (hids he)
  have htasks : ∀ j, j ≠ i → t'.tasks j = c.uploads j := fun j hj => Team.step_other hs hj
  obtain ⟨more, hrows, hmore⟩ := hg.rows
  obtain ⟨hsettles, hinsert⟩ := Team.step_settles hs (h.settles i)
  have hquiet : ∀ row ∈ t'.shared.uploaded.recordings, row.id = idOf traffic i →
      (t'.tasks i).Only (Api.IsQuiet (idOf traffic i)) := by
    intro row hrow hid
    by_cases hold : row ∈ c.world.uploaded.recordings
    · exact Team.step_only hs (h.quiet i row hold hid)
    · obtain ⟨new, next, hc⟩ := insert_of_new hs fun he => hold <| by
        have hsame : t'.shared.uploaded.recordings = c.world.uploaded.recordings :=
          Store.rows_uploaded.trans ((congrArg _ he).trans Store.rows_uploaded.symm)
        rwa [← hsame]
      exact hinsert _ next hc ⟨new, rfl⟩
  have hold : ∀ row ∈ t'.shared.uploaded.recordings, row.id ≠ idOf traffic i →
      row ∈ c.world.uploaded.recordings := by
    intro row hrow hid
    rw [hrows] at hrow
    exact (List.mem_append.mp hrow).resolve_right fun hm => hid (hmore row hm).1
  refine ⟨fun j hj => ?_, fun _ j hlj hj => ?_, fun j => ?_, fun j row hrow hid => ?_, fun row hrow => ?_,
    fun j hlj => ?_, fun j response hlj hd => ?_, fun j e hlj hf => ?_, fun j hf => ?_, fun path hp => ?_⟩
  · have hne : j ≠ i := by
      rintro rfl
      exact absurd hi (Nat.ne_of_gt hj)
    exact ⟨(htasks j hne).trans (h.future j hj).1, (h.future j hj).2.after (hothers j hne)⟩
  · by_cases hne : j = i
    · subst hne
      exact hsafe
    · change (t'.tasks j).Safe _ _ _ t'.shared
      rw [htasks j hne]
      exact (h.safe hrun j hlj hj).after (hothers j hne)
  · by_cases hne : j = i
    · subst hne
      exact hsettles
    · change (t'.tasks j).Settles _ _
      rw [htasks j hne]
      exact h.settles j
  · by_cases hne : j = i
    · subst hne
      exact hquiet row hrow hid
    · change (t'.tasks j).Only _
      rw [htasks j hne]
      exact h.quiet j row (hold row hrow fun he => hne (hids (hid.symm.trans he))) hid
  · by_cases hid : row.id = idOf traffic i
    · have hst := stored_of_quiet hsafe (hquiet row hrow hid) hrow hid
      exact ⟨i, hst.registered, fun _ => hst⟩
    · obtain ⟨j, hreg, hst⟩ := h.rows row (hold row hrow hid)
      exact ⟨j, hreg, fun hlj => (hst hlj).after
        (hg.files _ (tempPath_ne_relativePath _ _).symm fun he => hid (relativePath_inj.mp he))⟩
  · obtain ⟨row, hrow, hid⟩ := h.lostRow j hlj
    exact ⟨row, by rw [show (c.withTeam t').world.uploaded.recordings = _ from hrows]; exact
      List.mem_append_left _ hrow, hid⟩
  · by_cases hne : j = i
    · subst hne
      change t'.tasks j = _ at hd
      rw [hd] at hsafe
      exact hsafe t'.shared (Terms.refl _ _)
    · exact (h.done j response hlj ((htasks j hne).symm.trans hd)).after (hothers j hne)
  · by_cases hne : j = i
    · subst hne
      change t'.tasks j = _ at hf
      rw [hf] at hsafe
      exact hsafe t'.shared (Terms.refl _ _)
    · exact (h.failed j e hlj ((htasks j hne).symm.trans hf)).after (hothers j hne)
  · by_cases hne : j = i
    · exact hne ▸ hi
    · exact h.temp j fun hn => hf ((hothers j hne).temp.trans hn)
  · by_cases hown : path = tempPath (idOf traffic i) ∨ path = relativePath (idOf traffic i)
    · exact ⟨i, hown⟩
    · obtain ⟨ht, hb⟩ := not_or.mp hown
      exact h.named path fun hn => hp ((hg.files path ht hb).trans hn)

/-- A call of an upload that is lost: it only looks, or takes its own files away. -/
theorem Kept.uploadLost (hids : Injective (idOf traffic)) (h : c.Kept config parsers traffic lost)
    (hi : traffic.reaches i = c.starts) (hlost : lost i)
    (hs : c.team.step machine i fault = some t') : (c.withTeam t').Kept config parsers traffic lost := by
  obtain ⟨own, hown, hownId⟩ := h.lostRow i hlost
  have hquiet := h.quiet i own hown hownId
  have htasks : ∀ j, j ≠ i → t'.tasks j = c.uploads j := fun j hj => Team.step_other hs hj
  obtain ⟨⟨hstore, hfiles⟩, hgone⟩ := frame_of_quiet hquiet hs
  have hrows : t'.shared.uploaded.recordings = c.world.uploaded.recordings := by
    change t'.shared.store.uploaded.recordings.rows = _
    rw [hstore]
    rfl
  have hothers : ∀ j, j ≠ i → Others (idOf traffic j) c.world.uploaded t'.shared.uploaded := by
    intro j hj
    have hne : idOf traffic j ≠ idOf traffic i := fun he => hj (hids he)
    exact ⟨hfiles _ (fun he => hne (tempPath_inj.mp he)) (tempPath_ne_relativePath _ _),
      hfiles _ (tempPath_ne_relativePath _ _).symm fun he => hne (relativePath_inj.mp he), [],
      by rw [hrows, List.append_nil], by simp⟩
  have other : ∀ j, ¬ lost j → j ≠ i := fun j hlj he => hlj (he ▸ hlost)
  refine ⟨fun j hj => ?_, fun hrun j hlj hj => ?_, fun j => ?_, fun j row hrow hid => ?_, fun row hrow => ?_,
    fun j hlj => ?_, fun j response hlj hd => ?_, fun j e hlj hf => ?_, fun j hf => ?_, fun path hp => ?_⟩
  · have hne : j ≠ i := by
      rintro rfl
      exact absurd hi (Nat.ne_of_gt hj)
    exact ⟨(htasks j hne).trans (h.future j hj).1, (h.future j hj).2.after (hothers j hne)⟩
  · change (t'.tasks j).Safe _ _ _ t'.shared
    rw [htasks j (other j hlj)]
    exact (h.safe hrun j hlj hj).after (hothers j (other j hlj))
  · by_cases hne : j = i
    · subst hne
      exact (Team.step_settles hs (h.settles j)).1
    · change (t'.tasks j).Settles _ _
      rw [htasks j hne]
      exact h.settles j
  · by_cases hne : j = i
    · subst hne
      exact Team.step_only hs hquiet
    · change (t'.tasks j).Only _
      rw [htasks j hne]
      exact h.quiet j row (hrows ▸ hrow) hid
  · obtain ⟨j, hreg, hst⟩ := h.rows row (hrows ▸ hrow)
    refine ⟨j, hreg, fun hlj => (hst hlj).after (hfiles _ (tempPath_ne_relativePath _ _).symm fun he => ?_)⟩
    exact other j hlj (hids (hreg.rowId.symm.trans (relativePath_inj.mp he)))
  · obtain ⟨row, hrow, hid⟩ := h.lostRow j hlj
    exact ⟨row, by rw [show (c.withTeam t').world.uploaded.recordings = _ from hrows]; exact hrow, hid⟩
  · exact (h.done j response hlj ((htasks j (other j hlj)).symm.trans hd)).after (hothers j (other j hlj))
  · exact (h.failed j e hlj ((htasks j (other j hlj)).symm.trans hf)).after (hothers j (other j hlj))
  · exact h.temp j fun hn => hgone _ hf hn
  · exact h.named path fun hn => hgone _ hp hn

omit [DecidableEq ι] in
/-- More uploads may be taken for lost, if they have their rows. -/
theorem Kept.lose (h : c.Kept config parsers traffic lost) {lost' : ι → Prop}
    (hle : ∀ i, lost i → lost' i)
    (hrow : ∀ i, lost' i → lost i ∨ ∃ row ∈ c.world.uploaded.recordings, row.id = idOf traffic i) :
    c.Kept config parsers traffic lost' where
  future := h.future
  safe hrun i hi := h.safe hrun i fun hl => hi (hle i hl)
  settles := h.settles
  quiet := h.quiet
  rows row hr := by
    obtain ⟨i, hreg, hst⟩ := h.rows row hr
    exact ⟨i, hreg, fun hi => hst fun hl => hi (hle i hl)⟩
  lostRow i hi := (hrow i hi).elim (h.lostRow i) id
  done i response hi := h.done i response fun hl => hi (hle i hl)
  failed i e hi := h.failed i e fun hl => hi (hle i hl)
  temp := h.temp
  named := h.named

end Move

section Starts
variable {config parsers traffic} {c : Center ι} {i : ι} {w : World} {files : Files} {path : String}
variable {lost : ι → Prop}

theorem clean_relativePath (files : Files) (id : String) :
    files.cleanStaleTemp (relativePath id) = files (relativePath id) := by
  simp [Files.cleanStaleTemp, staleTemp_relativePath]

theorem clean_none (h : files path = none) : files.cleanStaleTemp path = none := by
  simp [Files.cleanStaleTemp, h]

theorem Vacant.clean {id : String} (h : w.Vacant id) : World.Vacant ⟨w.store, w.files.cleanStaleTemp⟩ id :=
  ⟨⟨h.noRow, h.noTemp, h.noBlob⟩, clean_none h.tempFile, clean_none h.blobFile⟩

/-- An upload that is over has no temp file to lose. -/
theorem Ends.clean {r : Except ApiError Response} (h : Ends config traffic i r w) :
    Ends config traffic i r ⟨w.store, w.files.cleanStaleTemp⟩ := by
  obtain ⟨r', he, hout⟩ := h
  refine ⟨r', he, ?_⟩
  cases r' with
  | error e => exact Vacant.clean (w := w.uploaded) hout
  | ok response =>
    rcases hout with ⟨key, audio, own, hkey, haudio, hc, hr⟩ | ⟨hv, own, hown, hkey, hr⟩
    · exact .inl ⟨key, audio, own, hkey, haudio, ⟨hc.mem, hc.rowId, hc.rowKey, hc.rowPath,
        clean_none hc.tempFile, (clean_relativePath _ _).trans hc.blobFile⟩, hr⟩
    · exact .inr ⟨Vacant.clean (w := w.uploaded) hv, own, hown, hkey, hr⟩

/-- Opening the data directory, no upload being under way. -/
theorem Kept.cleaned (h : c.Kept config parsers traffic lost) (hdown : c.process.running = false) :
    Kept config parsers traffic lost { c with files := c.files.cleanStaleTemp } where
  future i hi := ⟨(h.future i hi).1, Vacant.clean (w := c.world.uploaded) (h.future i hi).2⟩
  safe hrun := absurd (hdown.symm.trans hrun) (by decide)
  settles := h.settles
  quiet := h.quiet
  rows row hrow := by
    obtain ⟨i, hreg, hst⟩ := h.rows row hrow
    exact ⟨i, hreg, fun hl => (hst hl).after (clean_relativePath _ _)⟩
  lostRow := h.lostRow
  done i response hl hd := (h.done i response hl hd).clean
  failed i e hl hf := (h.failed i e hl hf).clean
  temp i hf := h.temp i fun hn => hf (clean_none hn)
  named path hp := h.named path fun hn => hp (clean_none hn)

/-- A step of the workers or of the Operator, or the end of the process. -/
theorem Kept.served (h : c.Kept config parsers traffic lost) {p : Process}
    (hu : c.process.store.KeepsUploads p.store) (hrun : p.running = true → c.process.running = true) :
    Kept config parsers traffic lost { c with process := p } := by
  have hw : ({ c with process := p } : Center ι).world.uploaded = c.world.uploaded :=
    congrArg (fun s : Store => (⟨s, c.files⟩ : World)) hu
  have hsame : ∀ i, Others (idOf traffic i) c.world.uploaded ({ c with process := p } : Center ι).world.uploaded :=
    fun i => hw ▸ Others.refl _
  exact {
    future := fun i hi => ⟨(h.future i hi).1, hw ▸ (h.future i hi).2⟩
    safe := fun hr i hl hi => (h.safe (hrun hr) i hl hi).after (hsame i)
    settles := h.settles
    quiet := fun i row hrow => h.quiet i row (hw ▸ hrow)
    rows := fun row hrow => h.rows row (hw ▸ hrow)
    lostRow := fun i hl => hw ▸ h.lostRow i hl
    done := fun i response hl hd => (h.done i response hl hd).after (hsame i)
    failed := fun i e hl hf => (h.failed i e hl hf).after (hsame i)
    temp := h.temp
    named := h.named }

/-- The next start: the uploads under way are gone, with their temp files. -/
theorem Kept.started (h : c.Kept config parsers traffic lost) (hdown : c.process.running = false)
    (hslash : ∀ i, '/' ∉ (idOf traffic i).toList) {p : Process}
    (hu : c.process.store.KeepsUploads p.store) :
    Kept config parsers traffic lost
      { c with
        process := p
        files := c.files.cleanStaleTemp
        starts := c.starts + 1 } := by
  have hdone := ((h.cleaned hdown).served (p := { p with running := false }) hu fun hr => by cases hr)
  exact { hdone with
    future := fun i hi => hdone.future i (Nat.lt_of_succ_lt hi)
    safe := fun _ i _ hi => by
      have hnext := hdone.future i (hi ▸ Nat.lt_succ_self c.starts)
      change (c.uploads i).Safe _ _ _ _
      rw [hnext.1]
      exact safe_of_vacant hnext.2
    temp := fun i hf => absurd (by simp [Files.cleanStaleTemp, staleTemp_tempPath (hslash i)]) hf }

end Starts

/-- A `SELECT` fails that follows the `INSERT` of its upload's row. -/
def Loses (t : Turn (Center ι) (Doing ι)) : Prop :=
  ∃ i fault, t.what = .upload i fault ∧ LosesRow traffic.supply ⟨t.before.team, i, fault⟩

/-- The `SELECT` after the `INSERT` of this upload's row failed in the run. -/
def RowLost (turns : List (Turn (Center ι) (Doing ι))) (i : ι) : Prop :=
  ∃ t ∈ turns, ∃ fault, t.what = .upload i fault ∧ LosesRow traffic.supply ⟨t.before.team, i, fault⟩

/-- Where the uploads stand: every Recording has the audio that its upload sent, what was
answered is there, what was refused is not, and any other file is left of an upload broken
off, in `tmp/` only since the last start. -/
structure Durable (c : Center ι) : Prop where
  audio : ∀ row ∈ c.world.recordings, ∃ i, Stored config traffic c.files i row
  answered : ∀ i response, c.uploads i = .done response → ∃ row ∈ c.world.recordings,
    row.id = response.body.recordingId ∧
      (traffic.request i).key config = some (row.clientId, row.clientRecordingId)
  refused : ∀ i e, c.uploads i = .fail e → (∀ row ∈ c.world.recordings, row.id ≠ idOf traffic i) ∧
    c.files (tempPath (idOf traffic i)) = none ∧ c.files (relativePath (idOf traffic i)) = none
  spare : ∀ path, c.files path ≠ none → (∃ row ∈ c.world.recordings, row.blobPath = some path) ∨
    ∃ i, ¬ c.team.Ended i ∧ (path = relativePath (idOf traffic i) ∨
      path = tempPath (idOf traffic i) ∧ traffic.reaches i = c.starts)

section Runs
variable {config parsers traffic} {c c' : Center ι} {route : Recording → RoutingDecision}
variable {turns : List (Turn (Center ι) (Doing ι))} {now : Int} {input : Input Unit} {p : Process}
variable {events : List Event} {doing : Doing ι} {lost : ι → Prop}

theorem mem_uploaded_of_mem {row : RecordingRow} (h : row ∈ c.world.recordings) :
    row.asUploaded ∈ c.world.uploaded.recordings := Store.mem_uploaded.mpr ⟨row, h, rfl⟩

/-- An upload that is over left no file but that of its row. -/
theorem Ends.spare {i : ι} {w : World} {r : Except ApiError Response} (h : Ends config traffic i r w)
    {path : String} (hp : w.files path ≠ none)
    (hown : path = tempPath (idOf traffic i) ∨ path = relativePath (idOf traffic i)) :
    ∃ row ∈ w.uploaded.recordings, row.blobPath = some path := by
  have vacant : w.uploaded.Vacant (idOf traffic i) → w.files path = none := by
    intro hv
    rcases hown with rfl | rfl
    · exact hv.tempFile
    · exact hv.blobFile
  obtain ⟨r', -, hout⟩ := h
  cases r' with
  | error e => exact absurd (vacant hout) hp
  | ok response =>
    rcases hout with ⟨key, audio, own, -, -, hc, -⟩ | ⟨hv, -⟩
    · rcases hown with rfl | rfl
      · exact absurd hc.tempFile hp
      · exact ⟨own, hc.mem, hc.rowPath⟩
    · exact absurd (vacant hv) hp

theorem Kept.durable (h : c.Kept config parsers traffic lost) (hnone : ∀ i, ¬ lost i) :
    Durable config traffic c where
  audio row hrow := by
    obtain ⟨i, -, hst⟩ := h.rows _ (mem_uploaded_of_mem hrow)
    replace hst := hst (hnone i)
    exact ⟨i, hst.rowId, hst.rowKey, hst.rowPath, hst.audio⟩
  answered i response hd := by
    obtain ⟨r', ⟨a, a', he, rfl, ha⟩ | ⟨e, he, -⟩, hout⟩ := h.done i response (hnone i) hd
    · cases he
      have hid : a'.body.recordingId = response.body.recordingId := by rw [ha]; rfl
      rcases hout with ⟨key, audio, own, hkey, -, hc, hr⟩ | ⟨-, own, hown, hkey, hr⟩
      · obtain ⟨q, hq, rfl⟩ := Store.mem_uploaded.mp hc.mem
        exact ⟨q, hq, by rw [← hid, hr]; rfl, hkey.trans (congrArg some hc.rowKey.symm)⟩
      · obtain ⟨q, hq, rfl⟩ := Store.mem_uploaded.mp hown
        exact ⟨q, hq, by rw [← hid, hr]; rfl, hkey⟩
    · cases he
  refused i e hf := by
    obtain ⟨r', ⟨a, a', he, -⟩ | ⟨e', -, rfl⟩, hout⟩ := h.failed i e (hnone i) hf
    · cases he
    · have hv : c.world.uploaded.Vacant (idOf traffic i) := hout
      exact ⟨fun row hrow => hv.noRow row.asUploaded (mem_uploaded_of_mem hrow), hv.tempFile, hv.blobFile⟩
  spare path hp := by
    obtain ⟨i, hown⟩ := h.named path hp
    have stored : (∃ row ∈ c.world.uploaded.recordings, row.blobPath = some path) →
        ∃ row ∈ c.world.recordings, row.blobPath = some path := by
      rintro ⟨row, hrow, hpath⟩
      obtain ⟨q, hq, rfl⟩ := Store.mem_uploaded.mp hrow
      exact ⟨q, hq, hpath⟩
    by_cases hend : c.team.Ended i
    · left
      rcases hend with ⟨response, hd⟩ | ⟨e, hf⟩
      · exact stored ((h.done i response (hnone i) hd).spare hp hown)
      · exact stored ((h.failed i e (hnone i) hf).spare hp hown)
    · refine .inr ⟨i, hend, ?_⟩
      rcases hown with rfl | rfl
      · exact .inr ⟨rfl, h.temp i hp⟩
      · exact .inl rfl

/-- Only a start sets the process running. -/
theorem running_of_step {events : List Event} (hs : c.process.step route now input = some (p, events))
    (hn : input ≠ .recover) (hr : p.running = true) : c.process.running = true := by
  obtain ⟨⟨-, -, hadmits⟩, he⟩ := Service.step_some hs
  cases input with
  | refuse | crash =>
    cases he
    cases hr
  | recover => exact absurd rfl hn
  | manualRoute _ | manualRetryTranscription _ | manualRetryDelivery _ => exact hadmits.1
  | _ => exact hadmits

variable [DecidableEq ι]

/-- What a step of the service is to the whole. -/
theorem step_cases (hs : c.step traffic route doing = some c') :
    (∃ i fault t', doing = .upload i fault ∧ c.process.running = true ∧ traffic.reaches i = c.starts ∧
      c.team.step machine i fault = some t' ∧ c' = c.withTeam t') ∨
    (∃ now input p events, doing = .serve now input ∧ (∀ new, input ≠ .upload new) ∧ input ≠ .recover ∧
      c.process.step route now input = some (p, events) ∧ c' = { c with process := p }) ∨
    (∃ now p events, doing = .serve now .recover ∧ c.process.step route now .recover = some (p, events) ∧
      c' = { c with
        process := p
        files := c.files.cleanStaleTemp
        starts := c.starts + 1 }) ∨
    (doing = .openData ∧ c.process.running = false ∧ c' = { c with files := c.files.cleanStaleTemp }) := by
  cases doing with
  | upload i fault =>
    simp only [step, Option.ite_none_right_eq_some, Option.map_eq_some_iff] at hs
    obtain ⟨⟨hr, hi⟩, t', ht, rfl⟩ := hs
    exact .inl ⟨i, fault, t', rfl, hr, hi, ht, rfl⟩
  | serve now input =>
    right
    cases input with
    | upload new => cases hs
    | recover =>
      obtain ⟨⟨p, events⟩, hp, rfl⟩ := Option.map_eq_some_iff.mp hs
      exact .inr (.inl ⟨now, p, events, rfl, hp, rfl⟩)
    | _ =>
      obtain ⟨⟨p, events⟩, hp, rfl⟩ := Option.map_eq_some_iff.mp hs
      exact .inl ⟨now, _, p, events, rfl, by simp, by simp, hp, rfl⟩
  | openData =>
    simp only [step, Option.ite_none_right_eq_some, Option.some.injEq] at hs
    exact .inr (.inr (.inr ⟨rfl, hs.1, hs.2.symm⟩))

omit [DecidableEq ι] in
/-- What is not a call of an upload loses none. -/
theorem Kept.besides {d : Center ι} (h : d.Kept config parsers traffic lost)
    (hd : ∀ i fault, doing ≠ .upload i fault) : d.Kept config parsers traffic fun i => lost i ∨
      ∃ fault, doing = .upload i fault ∧ LosesRow traffic.supply ⟨c.team, i, fault⟩ := by
  refine h.lose (fun _ => .inl) ?_
  rintro i (hi | ⟨fault, hu, -⟩)
  · exact .inl hi
  · exact absurd hu (hd i fault)

/-- One step, with the upload it may lose. -/
theorem Kept.step (hids : Injective (idOf traffic)) (hslash : ∀ i, '/' ∉ (idOf traffic i).toList)
    (h : c.Kept config parsers traffic lost) (hs : c.step traffic route doing = some c') :
    c'.Kept config parsers traffic fun i => lost i ∨
      ∃ fault, doing = .upload i fault ∧ LosesRow traffic.supply ⟨c.team, i, fault⟩ := by
  rcases step_cases hs with ⟨i, fault, t', rfl, hr, hi, ht, rfl⟩ |
    ⟨now, input, p, events, rfl, hu, hn, hp, rfl⟩ | ⟨now, p, events, rfl, hp, rfl⟩ | ⟨rfl, hdown, rfl⟩
  · have hnow : c.Kept config parsers traffic fun j => lost j ∨
        ∃ f, Doing.upload i fault = .upload j f ∧ LosesRow traffic.supply ⟨c.team, j, f⟩ :=
      h.lose (fun _ => .inl) fun j hj => hj.imp_right fun ⟨f, _, _, _, row, hrow, hid⟩ =>
        ⟨_, mem_uploaded_of_mem hrow, hid⟩
    by_cases hlose : lost i ∨ LosesRow traffic.supply ⟨c.team, i, fault⟩
    · exact hnow.uploadLost hids hi (hlose.imp_right fun hl => ⟨fault, rfl, hl⟩) ht
    · obtain ⟨hlost, hrow⟩ := not_or.mp hlose
      refine hnow.upload hids hr hi ?_ ht hrow
      rintro (hl | ⟨f, hf, hl⟩)
      · exact hlost hl
      · cases hf
        exact hrow hl
  · exact (h.served (Service.step_keepsUploads hp hu) (running_of_step hp hn)).besides (by simp)
  · obtain ⟨⟨-, -, hdown⟩, -⟩ := Service.step_some hp
    exact (h.started hdown hslash (Service.step_keepsUploads hp (by simp))).besides (by simp)
  · exact (h.cleaned hdown).besides (by simp)

omit [DecidableEq ι] in
theorem initial_kept : (initial config parsers traffic).Kept config parsers traffic fun _ => False := by
  have hnone : ∀ row, row ∉ (initial config parsers traffic).world.uploaded.recordings := by
    intro row hrow
    obtain ⟨q, hq, -⟩ := Store.mem_uploaded.mp hrow
    cases hq
  have hvacant : ∀ i, (initial config parsers traffic).world.uploaded.Vacant (idOf traffic i) := fun i =>
    ⟨⟨fun r hr => absurd hr (hnone r), fun r hr => absurd hr (hnone r), fun r hr => absurd hr (hnone r)⟩,
      rfl, rfl⟩
  have hsafe : ∀ i, ((initial config parsers traffic).uploads i).Safe machine (termsOf config traffic i)
      (Ends config traffic i) (initial config parsers traffic).world := fun i => safe_of_vacant (hvacant i)
  refine ⟨fun i _ => ⟨rfl, hvacant i⟩, fun _ i _ _ => hsafe i, fun _ => Api.settles_uploadRecording,
    fun _ row hrow => absurd hrow (hnone row), fun row hrow => absurd hrow (hnone row), fun _ hl => hl.elim,
    fun i response _ hd => ?_, fun i e _ hf => ?_, fun _ hf => absurd rfl hf, fun _ hp => absurd rfl hp⟩
  · have hs := hsafe i
    rw [hd] at hs
    exact hs _ (Terms.refl _ _)
  · have hs := hsafe i
    rw [hf] at hs
    exact hs _ (Terms.refl _ _)

/-- In every run, with the uploads it has lost. -/
theorem run_kept (hids : Injective (idOf traffic)) (hslash : ∀ i, '/' ∉ (idOf traffic i).toList)
    (h : History (fun c d c' => c.step traffic route d = some c') (initial config parsers traffic) turns c) :
    c.Kept config parsers traffic (RowLost traffic turns) := by
  induction h with
  | start => exact initial_kept.lose (fun _ => False.elim) fun i ⟨t, ht, _⟩ => absurd ht List.not_mem_nil
  | @turn turns c c' doing _ hs ih =>
    refine (ih.step hids hslash hs).lose ?_ ?_
    · rintro i (⟨t, ht, hl⟩ | hl)
      · exact ⟨t, List.mem_append_left _ ht, hl⟩
      · exact ⟨_, List.mem_append_right _ (List.mem_singleton_self _), hl⟩
    · rintro i ⟨t, ht, hl⟩
      rcases List.mem_append.mp ht with ht | ht
      · exact .inl (.inl ⟨t, ht, hl⟩)
      · rw [List.mem_singleton.mp ht] at hl
        exact .inl (.inr hl)

omit [DecidableEq ι] in
theorem not_rowLost (hl : ∀ t ∈ turns, ¬ Loses traffic t) (i : ι) : ¬ RowLost traffic turns i :=
  fun ⟨t, ht, fault, hwhat, hlose⟩ => hl t ht ⟨i, fault, hwhat, hlose⟩

/-- Where no upload is lost. -/
theorem run_durable (hids : Injective (idOf traffic)) (hslash : ∀ i, '/' ∉ (idOf traffic i).toList)
    (h : History (fun c d c' => c.step traffic route d = some c') (initial config parsers traffic) turns c)
    (hl : ∀ t ∈ turns, ¬ Loses traffic t) : Durable config traffic c :=
  (run_kept hids hslash h).durable (not_rowLost hl)

/-- No step takes a Recording away or rewrites what its upload wrote. -/
theorem step_uploads (hs : c.step traffic route doing = some c') {row : RecordingRow}
    (h : row ∈ c.world.uploaded.recordings) : row ∈ c'.world.uploaded.recordings := by
  have kept : ∀ {p : Process} {files : Files}, c.process.store.KeepsUploads p.store →
      row ∈ (World.uploaded ⟨p.store, files⟩).recordings := by
    intro p files hu
    change row ∈ p.store.uploaded.recordings.rows
    rw [hu]
    exact h
  rcases step_cases hs with ⟨i, fault, t', rfl, -, -, ht, rfl⟩ |
    ⟨now, input, p, events, rfl, hu, -, hp, rfl⟩ | ⟨now, p, events, rfl, hp, rfl⟩ | ⟨rfl, -, rfl⟩
  · obtain ⟨q, hq, rfl⟩ := Store.mem_uploaded.mp h
    exact Store.mem_uploaded.mpr ⟨q, Uploads.step_keeps_rows ht hq, rfl⟩
  · exact kept (Service.step_keepsUploads hp hu)
  · exact kept (Service.step_keepsUploads hp (by simp))
  · exact h

/-- A call of an upload is nothing to the process, or its `INSERT` one of its steps. -/
theorem upload_serves {i : ι} {fault : Option Nat} {t' : Uploads ι} (hs : c.team.step machine i fault = some t') :
    (c.withTeam t').process = c.process ∨ ∃ new, (c.withTeam t').process =
      { c.process with store := ((SqliteStore.insertRecording new).run c.process.store).1 } := by
  obtain ⟨call, next, hc, ⟨-, rfl⟩ | ⟨k, s, e, -, hb, rfl⟩⟩ := Team.step_cases hs
  · cases call with
    | insert new => exact .inr ⟨new, rfl⟩
    | rename source target =>
      left
      simp only [withTeam, machine, answer]
      split <;> rfl
    | _ => exact .inl rfl
  · left
    cases call <;> cases hb <;> rfl

omit [DecidableEq ι] in
theorem step_clock (hs : c.process.step route now input = some (p, events)) : p.clock = now := by
  obtain ⟨-, he⟩ := Service.step_some hs
  unfold Service.apply at he
  cases input with
  | transcribe | route | deliver =>
    rcases @Service.settle_parts { c.process with clock := now } _ _ _ _ _ he with rfl | ⟨next, -, rfl⟩ <;> rfl
  | upload | manualRoute | manualRetryTranscription | manualRetryDelivery =>
    rw [@Service.answer_parts { c.process with clock := now } _ _ _ _ _ he]
  | refuse | crash => cases he; rfl
  | recover => cases he; rfl

/-- The process, among the uploads and over the files, runs as the service alone does. -/
theorem run_serves
    (h : History (fun c d c' => c.step traffic route d = some c') (initial config parsers traffic) turns c) :
    Timestamp.InYears c.process.clock ∧ ∃ trace, Service.Run route trace c.process := by
  induction h with
  | start =>
    have hzero : Timestamp.InYears Timestamp.yearZero := by decide
    exact ⟨hzero, [], .start⟩
  | @turn turns c c' d _ hs ih =>
    obtain ⟨hyears, trace, hrun⟩ := ih
    have go : ∀ {now input p events}, c.process.step route now input = some (p, events) →
        Timestamp.InYears p.clock ∧ ∃ trace, Service.Run route trace p := by
      intro now input p events hp
      exact ⟨step_clock hp ▸ (Service.step_some hp).1.2.1, _, .step now input hrun trivial hp⟩
    rcases step_cases hs with ⟨i, fault, t', rfl, hr, -, ht, rfl⟩ |
      ⟨now, input, p, events, rfl, -, -, hp, rfl⟩ | ⟨now, p, events, rfl, hp, rfl⟩ | ⟨rfl, -, rfl⟩
    · rcases upload_serves ht with he | ⟨new, he⟩
      · rw [he]
        exact ⟨hyears, trace, hrun⟩
      · rw [he]
        have hstep : c.process.step route c.process.clock (.upload new) = some
            ({ c.process with store := ((SqliteStore.insertRecording new).run c.process.store).1 }, []) := by
          rw [Service.step, if_pos ⟨le_rfl, hyears, hr⟩]
          simp only [Service.apply, Service.answer]
          rcases (SqliteStore.insertRecording new).run c.process.store with ⟨s, e | affected⟩ <;> rfl
        exact go hstep
    · exact go hp
    · exact go hp
    · exact ⟨hyears, trace, hrun⟩

omit [DecidableEq ι] in
theorem audio_kept (hids : Injective (idOf traffic)) {i j : ι} {row row' : RecordingRow} {files files' : Files}
    (h : Stored config traffic files i row) (h' : Stored config traffic files' j row') (hid : row'.id = row.id) :
    files' (relativePath row.id) = files (relativePath row.id) := by
  obtain rfl : i = j := hids (h.rowId.symm.trans (hid.symm.trans h'.rowId))
  obtain ⟨audio, ha, hf⟩ := h.audio
  obtain ⟨audio', ha', hf'⟩ := h'.audio
  obtain rfl := Option.some.inj (ha.symm.trans ha')
  rw [hf, ← hid, hf']

/-- Uploads survive: whatever calls, steps, crashes and restarts come in whatever order,
and wherever an upload breaks off, at every moment each Recording has exactly the audio
that its upload sent, from its `INSERT` on and unchanged; and for its process the whole is
a run of the service. -/
theorem uploads_durable (hids : Injective (idOf traffic)) (hslash : ∀ i, '/' ∉ (idOf traffic i).toList)
    (h : History (fun c d c' => c.step traffic route d = some c') (initial config parsers traffic) turns c)
    (hl : ∀ t ∈ turns, ¬ Loses traffic t) :
    Durable config traffic c ∧
      (∀ t ∈ turns, ∀ row ∈ t.before.world.recordings, ∃ row' ∈ c.world.recordings,
        row'.asUploaded = row.asUploaded ∧
          c.files (relativePath row.id) = t.before.files (relativePath row.id)) ∧
      ∃ trace, Service.Run route trace c.process := by
  have hdurable := run_durable hids hslash h hl
  refine ⟨hdurable, fun t ht row hrow => ?_, (run_serves h).2⟩
  obtain ⟨earlier, later, he⟩ := List.append_of_mem ht
  have hbefore := run_durable hids hslash (h.upTo he) fun u hu => hl u (he ▸ List.mem_append_left _ hu)
  have hin : row.asUploaded ∈ c.world.uploaded.recordings :=
    h.stays (P := fun c => row.asUploaded ∈ c.world.uploaded.recordings) (fun _ _ _ hs hp => step_uploads hs hp) ht
      (step_uploads (h.step_of_mem ht) (mem_uploaded_of_mem hrow))
  obtain ⟨row', hrow', hsame⟩ := Store.mem_uploaded.mp hin
  obtain ⟨i, hst⟩ := hbefore.audio row hrow
  obtain ⟨j, hst'⟩ := hdurable.audio row' hrow'
  exact ⟨row', hrow', hsame, audio_kept hids hst hst' (RecordingRow.id_of_asUploaded hsame)⟩

section Sample

/-- Two uploads to the first start. -/
def twoUploads : Traffic Bool where
  supply b := ⟨0, if b then "rec-1" else "rec-2", ()⟩
  request _ := Uploads.sampleRequest
  reaches _ := 1

theorem twoUploads_ids : Injective (idOf twoUploads) := by
  intro a b hab
  revert hab
  cases a <;> cases b <;> decide

theorem twoUploads_slashless : ∀ i, '/' ∉ (idOf twoUploads i).toList := by decide

omit [DecidableEq ι] in
theorem keeps_of_answered {traffic : Traffic ι} {turns : List (Turn (Center ι) (Doing ι))}
    (h : ∀ t ∈ turns, t.what.answered = true) : ∀ t ∈ turns, ¬ Loses traffic t := by
  rintro t ht ⟨i, fault, hwhat, hfault, -⟩
  have hno := h t ht
  rw [hwhat] at hno
  cases fault with
  | none => cases hfault
  | some k => cases hno

/-- One upload breaks off in its audio, the other goes through; then a crash and a restart. -/
def brokenOff : List (Doing Bool) :=
  .serve 0 .recover :: List.replicate 3 (.upload false none) ++ List.replicate 9 (.upload true none) ++
    [.serve 0 .crash, .serve 0 .recover]

theorem broken_off_durable : ∃ turns c,
    History (fun c d c' => step twoUploads Service.toNotes c d = some c')
      (initial Uploads.sampleConfig Uploads.noParsers twoUploads) turns c ∧
    (∃ t ∈ turns, t.before.files (tempPath "rec-2") = some Uploads.emptyWav) ∧
    c.files (tempPath "rec-2") = none ∧ c.files (relativePath "rec-1") = some Uploads.emptyWav ∧
    Durable Uploads.sampleConfig twoUploads c := by
  have hp : (History.play (step twoUploads Service.toNotes)
      (initial Uploads.sampleConfig Uploads.noParsers twoUploads) brokenOff).map (fun p =>
        (p.1.all fun t => t.what.answered, p.1.any fun t =>
          t.before.files (tempPath "rec-2") == some Uploads.emptyWav,
          p.2.files (tempPath "rec-2"), p.2.files (relativePath "rec-1"))) =
      some (true, true, none, some Uploads.emptyWav) := by
    decide +kernel
  obtain ⟨⟨turns, c⟩, hplay, hseen⟩ := Option.map_eq_some_iff.mp hp
  simp only [Prod.mk.injEq, List.all_eq_true, List.any_eq_true, beq_iff_eq] at hseen
  obtain ⟨hall, hany, htemp, hblob⟩ := hseen
  refine ⟨turns, c, History.of_play hplay, hany, htemp, hblob, ?_⟩
  exact (uploads_durable twoUploads_ids twoUploads_slashless (History.of_play hplay) (keeps_of_answered hall)).1

end Sample

end Runs
end Center
end Telegraph
