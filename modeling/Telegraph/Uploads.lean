import Telegraph.Api

namespace Telegraph
open Lib Task BlobStore Function

namespace World

def recordings (w : World) : List RecordingRow := w.store.recordings.rows

/-- The world with one file set, or removed. -/
def put (w : World) (path : String) (content : Option Bytes) : World :=
  { w with files := update w.files path content }

theorem put_self (w : World) (path : String) (content : Option Bytes) :
    (w.put path content).files path = content := update_self _ _ _

theorem put_other (w : World) {path other : String} (content : Option Bytes) (h : other ≠ path) :
    (w.put path content).files other = w.files other := update_of_ne h _ _

/-- Every Recording row's `blob_path` names a file that is there. -/
def Backed (w : World) : Prop :=
  ∀ r ∈ w.recordings, ∃ path content, r.blobPath = some path ∧ w.files path = some content

/-- No row has this id, and none names a file of the upload with this id. -/
structure Unused (w : World) (id : String) : Prop where
  noRow : ∀ r ∈ w.recordings, r.id ≠ id
  noTemp : ∀ r ∈ w.recordings, r.blobPath ≠ some (tempPath id)
  noBlob : ∀ r ∈ w.recordings, r.blobPath ≠ some (relativePath id)

/-- An upload without a row, and what its temp file and its blob hold. -/
structure Holds (w : World) (id : String) (temp blob : Option Bytes) : Prop extends Unused w id where
  tempFile : w.files (tempPath id) = temp
  blobFile : w.files (relativePath id) = blob

/-- Nothing of the upload with this id is in the world. -/
abbrev Vacant (w : World) (id : String) : Prop := w.Holds id none none

/-- The row of an upload, over its blob. -/
structure Created (w : World) (id : String) (key : String × String) (audio : Bytes)
    (row : RecordingRow) : Prop where
  mem : row ∈ w.recordings
  rowId : row.id = id
  rowKey : (row.clientId, row.clientRecordingId) = key
  rowPath : row.blobPath = some (relativePath id)
  tempFile : w.files (tempPath id) = none
  blobFile : w.files (relativePath id) = some audio

/-- What the other uploads may do to one. -/
structure Others (id : String) (w w' : World) : Prop where
  temp : w'.files (tempPath id) = w.files (tempPath id)
  blob : w'.files (relativePath id) = w.files (relativePath id)
  rows : ∃ more, w'.recordings = w.recordings ++ more ∧ ∀ r ∈ more,
    r.id ≠ id ∧ r.blobPath ≠ some (tempPath id) ∧ r.blobPath ≠ some (relativePath id)

/-- What an upload may do: its own two files, and a row under its id and key. -/
structure Changes (id : String) (key : Option (String × String)) (w w' : World) : Prop where
  files : ∀ path, path ≠ tempPath id → path ≠ relativePath id → w'.files path = w.files path
  rows : ∃ more, w'.recordings = w.recordings ++ more ∧ ∀ r ∈ more,
    r.id = id ∧ key = some (r.clientId, r.clientRecordingId) ∧ r.blobPath = some (relativePath id)
  backed : w.Backed → w'.Backed

/-- The calls that may break: any, except the `SELECT` once the upload has its row. -/
def May (id : String) (c : Call) (w : World) : Prop :=
  match c with
  | .select _ _ => ∀ r ∈ w.recordings, r.id ≠ id
  | _ => True

section Steps
variable {id : String} {key : Option (String × String)} {w w' w'' : World} {temp blob : Option Bytes}

theorem Others.refl (w : World) : Others id w w :=
  ⟨rfl, rfl, [], by simp, by simp⟩

theorem Others.trans (h : Others id w w') (h' : Others id w' w'') : Others id w w'' := by
  obtain ⟨more, hr, hm⟩ := h.rows
  obtain ⟨more', hr', hm'⟩ := h'.rows
  refine ⟨h'.temp.trans h.temp, h'.blob.trans h.blob, more ++ more', by rw [hr', hr, List.append_assoc],
    fun r hmem => ?_⟩
  rcases List.mem_append.mp hmem with hmem | hmem
  · exact hm r hmem
  · exact hm' r hmem

theorem Changes.refl (w : World) : Changes id key w w :=
  ⟨fun _ _ _ => rfl, ⟨[], by simp, by simp⟩, fun h => h⟩

/-- What one upload does is nothing to another. -/
theorem Changes.others {id' : String} (h : Changes id key w w') (hne : id' ≠ id) :
    Others id' w w' := by
  obtain ⟨more, hr, hm⟩ := h.rows
  refine ⟨h.files _ ?_ (tempPath_ne_relativePath _ _),
    h.files _ (tempPath_ne_relativePath _ _).symm ?_, more, hr, fun r hmem => ?_⟩
  · exact fun he => hne (tempPath_inj.mp he)
  · exact fun he => hne (relativePath_inj.mp he)
  · obtain ⟨hid, -, hp⟩ := hm r hmem
    rw [hid, hp]
    refine ⟨hne.symm, ?_, ?_⟩
    · intro he
      exact tempPath_ne_relativePath _ _ (Option.some.inj he).symm
    · intro he
      exact hne (relativePath_inj.mp (Option.some.inj he)).symm

theorem Unused.after (h : w.Unused id) (ho : Others id w w') : w'.Unused id := by
  obtain ⟨more, hr, hm⟩ := ho.rows
  refine ⟨?_, ?_, ?_⟩
  all_goals
    rw [hr]
    intro r hmem
    rcases List.mem_append.mp hmem with hmem | hmem
  · exact h.noRow r hmem
  · exact (hm r hmem).1
  · exact h.noTemp r hmem
  · exact (hm r hmem).2.1
  · exact h.noBlob r hmem
  · exact (hm r hmem).2.2

theorem Holds.after (h : w.Holds id temp blob) (ho : Others id w w') : w'.Holds id temp blob :=
  ⟨h.toUnused.after ho, ho.temp.trans h.tempFile, ho.blob.trans h.blobFile⟩

theorem Created.after {k : String × String} {audio : Bytes} {row : RecordingRow}
    (h : w.Created id k audio row) (ho : Others id w w') : w'.Created id k audio row := by
  obtain ⟨more, hr, -⟩ := ho.rows
  refine ⟨?_, h.rowId, h.rowKey, h.rowPath, ho.temp.trans h.tempFile, ho.blob.trans h.blobFile⟩
  rw [hr]
  exact List.mem_append_left _ h.mem

/-- Rows are never lost. -/
theorem Others.mem {r : RecordingRow} (ho : Others id w w') (hr : r ∈ w.recordings) :
    r ∈ w'.recordings := by
  obtain ⟨more, he, -⟩ := ho.rows
  rw [he]
  exact List.mem_append_left _ hr

/-- As long as no row names them, an upload may do with its files as it likes. -/
theorem Unused.changes (h : w.Unused id) (hr : w'.recordings = w.recordings)
    (hf : ∀ path, path ≠ tempPath id → path ≠ relativePath id → w'.files path = w.files path) :
    Changes id key w w' := by
  refine ⟨hf, ⟨[], by simp [hr], by simp⟩, fun hb r hmem => ?_⟩
  rw [hr] at hmem
  obtain ⟨path, content, hp, hc⟩ := hb r hmem
  refine ⟨path, content, hp, ?_⟩
  rw [← hc]
  apply hf
  · intro he
    exact h.noTemp r hmem (by rw [hp, he])
  · intro he
    exact h.noBlob r hmem (by rw [hp, he])

theorem Holds.putTemp (h : w.Holds id temp blob) (content : Option Bytes) :
    (w.put (tempPath id) content).Holds id content blob :=
  ⟨⟨h.noRow, h.noTemp, h.noBlob⟩, w.put_self _ _,
    (w.put_other content (tempPath_ne_relativePath id id).symm).trans h.blobFile⟩

theorem Holds.putBlob (h : w.Holds id temp blob) (content : Option Bytes) :
    (w.put (relativePath id) content).Holds id temp content :=
  ⟨⟨h.noRow, h.noTemp, h.noBlob⟩, (w.put_other content (tempPath_ne_relativePath id id)).trans h.tempFile,
    w.put_self _ _⟩

theorem Unused.putTemp (h : w.Unused id) (content : Option Bytes) :
    Changes id key w (w.put (tempPath id) content) :=
  h.changes rfl fun _ hp _ => w.put_other content hp

theorem Unused.putBlob (h : w.Unused id) (content : Option Bytes) :
    Changes id key w (w.put (relativePath id) content) :=
  h.changes rfl fun _ _ hp => w.put_other content hp

end Steps

/-- The terms of the upload with this id and key. -/
def terms (id : String) (key : Option (String × String)) : Terms Call World where
  rely := Others id
  guar := Changes id key
  may := May id
  refl := Others.refl
  trans := Others.trans

end World

/-- The content of the first `audio` field. -/
def audioOf (fields : List Field) : Option Bytes :=
  (fields.find? fun field => field.name == some "audio").map (·.chunks.flatten)

/-- The key of the Recording a request is about, if its headers name one. -/
def Request.key (config : AppConfig) (request : Request) : Option (String × String) :=
  (Api.identify config request.headers).toOption

namespace World

/-- How an upload may end: with its own row over exactly the audio it was sent, with
another upload's row and no file, or with an error and nothing left behind. -/
def Outcome (config : AppConfig) (supply : Supply Unit) (request : Request)
    (r : Except ApiError Response) (w : World) : Prop :=
  match r with
  | .ok response =>
    (∃ key audio row, request.key config = some key ∧ audioOf request.multipart.fields = some audio ∧
      w.Created supply.id key audio row ∧ response = newResponse row.toRecording) ∨
    (w.Vacant supply.id ∧ ∃ row ∈ w.recordings,
      request.key config = some (row.clientId, row.clientRecordingId) ∧
        response = duplicateResponse row.toRecording)
  | .error _ => w.Vacant supply.id

end World

/-- Uploads in progress: request `i` takes its id and time from `supply i`. -/
abbrev Uploads (ι : Type) := Team ι Call Call.Answer ApiError World Response

/-- One step of an upload. -/
abbrev UploadMove (ι : Type) := Move ι Call Call.Answer ApiError World Response

section Start
variable {ι : Type} (config : AppConfig) (parsers : Parsers) (supply : ι → Supply Unit)
variable (request : ι → Request)

/-- Every request just arrived. -/
def Uploads.arrived (w : World) : Uploads ι :=
  ⟨fun i => Api.uploadRecording config parsers (supply i) (request i), w⟩

end Start
end Telegraph
