import Telegraph.Lib.Alike
import Telegraph.Proofs.DetailPage
import Telegraph.Proofs.UploadSafe
import Telegraph.Proofs.WorkerMoves

namespace Telegraph
open Lib Program SqliteStore

namespace Store
variable {s t u : Store}

theorem asUploaded_keepsKeys : Table.KeepsKeys RecordingRow.clash RecordingRow.asUploaded := fun _ _ => ⟨rfl, rfl⟩

/-- The Recordings as their uploads wrote them, and no other row. -/
def uploaded (s : Store) : Store :=
  { Store.empty with recordings := s.recordings.update (fun _ => true) (·.asUploaded) asUploaded_keepsKeys }

theorem rows_uploaded : s.uploaded.recordings.rows = s.recordings.rows.map (·.asUploaded) := by
  simp [uploaded, Table.update]

theorem uploaded_eq (h : t.recordings.rows.map (·.asUploaded) = s.uploaded.recordings.rows) :
    t.uploaded = s.uploaded := by
  have ht : t.uploaded.recordings = s.uploaded.recordings := Table.ext_rows (rows_uploaded.trans h)
  exact congrArg (fun recordings => { Store.empty with recordings := recordings }) ht

/-- No upload is added or rewritten. -/
def KeepsUploads (s t : Store) : Prop := t.uploaded = s.uploaded

theorem keepsUploads_refl (s : Store) : s.KeepsUploads s := rfl

theorem KeepsUploads.trans (h : s.KeepsUploads t) (k : t.KeepsUploads u) : s.KeepsUploads u := Eq.trans k h

theorem keepsUploads_of_eq (h : t.recordings = s.recordings) : s.KeepsUploads t :=
  uploaded_eq (by rw [h, rows_uploaded])

theorem keepsUploads_updateRecordings {p : RecordingRow → Bool} {f : RecordingRow → RecordingRow}
    {h : Table.KeepsKeys RecordingRow.clash f} (hf : ∀ r, (f r).asUploaded = r.asUploaded) :
    s.KeepsUploads (s.updateRecordings p f h) :=
  uploaded_eq ((map_key_update _ s.recordings h hf).trans rows_uploaded.symm)

theorem mem_uploaded {r : RecordingRow} :
    r ∈ s.uploaded.recordings.rows ↔ ∃ q ∈ s.recordings.rows, q.asUploaded = r := by
  rw [rows_uploaded, List.mem_map]

theorem recordingByKey_uploaded (clientId clientRecordingId : String) :
    s.uploaded.recordingByKey clientId clientRecordingId =
      (s.recordingByKey clientId clientRecordingId).map (·.asUploaded) := by
  unfold recordingByKey Table.find
  rw [rows_uploaded, List.find?_map]
  rfl

theorem insert_uploaded {r : RecordingRow} (hr : r.asUploaded = r) :
    s.uploaded.recordings.insert r =
      (s.recordings.insert r).map (·.update (fun _ => true) (·.asUploaded) asUploaded_keepsKeys) := by
  have clash : ∀ q : RecordingRow, q.asUploaded.clash r = q.clash r := fun q => (asUploaded_keepsKeys q r).1
  cases hi : s.recordings.insert r with
  | some grown =>
    obtain ⟨hrows, hfresh⟩ := Table.insert_some hi
    obtain ⟨t, ht⟩ := Table.insert_fresh (t := s.uploaded.recordings) (r := r) fun a ha => by
      obtain ⟨q, hq, rfl⟩ := mem_uploaded.mp ha
      rw [clash]
      exact hfresh q hq
    rw [ht]
    refine congrArg some (Table.ext_rows ?_)
    rw [(Table.insert_some ht).1, rows_uploaded]
    simp [Table.update, hrows, hr]
  | none =>
    obtain ⟨a, ha, hclash⟩ := Table.insert_none hi
    cases ht : s.uploaded.recordings.insert r with
    | none => rfl
    | some t =>
      have hfresh := (Table.insert_some ht).2 _ (mem_uploaded.mpr ⟨a, ha, rfl⟩)
      rw [clash, hclash] at hfresh
      cases hfresh

theorem insertRecording_uploaded (new : NewRecording) :
    s.uploaded.insertRecording (newRow new) =
      (s.insertRecording (newRow new)).map fun q => (q.1.uploaded, q.2) := by
  unfold insertRecording
  rw [recordingByKey_uploaded, insert_uploaded rfl]
  cases s.recordingByKey (newRow new).clientId (newRow new).clientRecordingId with
  | some r => rfl
  | none => cases s.recordings.insert (newRow new) <;> rfl

end Store

namespace SqliteStore
open Store

theorem overlooks_keepsUploads : Overlooks KeepsUploads where
  elsewhere hr _ := keepsUploads_of_eq hr
  columns := keepsUploads_updateRecordings

end SqliteStore

namespace Service
variable {c c' : Process} {events : List Event} {route : Recording → RoutingDecision} {now : Int}
variable {input : Input Unit}

/-- Only an upload adds or writes one. -/
theorem step_keepsUploads (hs : c.step route now input = some (c', events))
    (hu : ∀ new, input ≠ .upload new) : c.store.KeepsUploads c'.store := by
  have run : ∀ {α : Type} {q : Query α}, q.Always Store.KeepsUploads → c.store.KeepsUploads (q.run c.store).1 :=
    fun hq => hq.run Store.keepsUploads_refl Store.KeepsUploads.trans c.store
  cases ho : input.operation now with
  | none =>
    obtain ⟨ops, hops, he⟩ := step_by_worker hs ho
    rw [he]
    have hi : ∀ {s t : Store} {new}, s.insertTranscript new = .ok t → s.KeepsUploads t := fun ht =>
      Store.keepsUploads_of_eq (Store.insertTranscript_frame ht).1
    exact overlooks_keepsUploads.permits.foldl hi Store.keepsUploads_refl Store.KeepsUploads.trans hops c.store
  | some op =>
    rw [step_operation hs ho]
    cases input with
    | upload new => exact absurd rfl (hu new)
    | manualRoute input => cases ho; exact run overlooks_keepsUploads.manualRoute
    | manualRetryTranscription input => cases ho; exact run overlooks_keepsUploads.manualRetryTranscription
    | manualRetryDelivery input => cases ho; exact run overlooks_keepsUploads.manualRetryDelivery
    | recover => cases ho; exact run overlooks_keepsUploads.recoverAbandonedAttempts
    | _ => cases ho

end Service

namespace World
open Task BlobStore Api

/-- The uploads in it, over the same files. -/
def uploaded (w : World) : World := ⟨w.store.uploaded, w.files⟩

/-- What an upload is told of another Recording, less what the workers and the Operator
have made of it. -/
def blur : (c : Call) → c.Answer → c.Answer
  | .select _ _ => Option.map Recording.asUploaded
  | .insert _ | .create _ | .write _ _ | .flush _ | .read _ _ | .size _ | .rename _ _ | .remove _ => id

/-- The calls of an upload see and change the uploads only. -/
theorem machine_abstracts : machine.Abstracts uploaded blur where
  answer c w := by
    cases c with
    | select clientId clientRecordingId =>
      have hk := Store.recordingByKey_uploaded (s := w.store) clientId clientRecordingId
      simp only [machine, answer, statement, SqliteStore.getRecordingByIdempotency, uploaded, blur]
      change (_, Except.ok ((w.store.uploaded.recordingByKey clientId clientRecordingId).map _)) =
        (_, Except.ok (((w.store.recordingByKey clientId clientRecordingId).map _).map _))
      rw [hk]
      cases w.store.recordingByKey clientId clientRecordingId <;> rfl
    | insert new =>
      have hi := Store.insertRecording_uploaded (s := w.store) new
      simp only [machine, answer, statement, SqliteStore.insertRecording, Program.run, Program.exec,
        Connection.view_closed, uploaded, blur]
      rw [hi]
      cases w.store.insertRecording (newRow new) <;> rfl
    | rename source target =>
      simp only [machine, answer, uploaded]
      cases w.files.rename source target <;> rfl
    | read path max =>
      simp only [machine, answer, content, uploaded, blur]
      cases w.files path <;> rfl
    | size path =>
      simp only [machine, answer, content, uploaded, blur]
      cases w.files path <;> rfl
    | _ => rfl
  breaks c k w w' e h := by
    cases c <;> cases h <;> rfl

end World

/-- The answer, with the status a new Recording has. -/
def Response.asUploaded (r : Response) : Response := { r with body := { r.body with status := .received } }

namespace Api
open Task World

section Receive
variable {p : Call → Prop} {path : String}

/-- The calls the fields of a body make. -/
theorem only_receive (hc : p (.create path)) (hw : ∀ chunk, p (.write path chunk)) (hf : p (.flush path))
    {broken : Bool} {fields : List Field} {form : Form} : (receiveFields path broken fields form).Only p := by
  have chunks : ∀ (broken : Bool) (chunks : List Bytes) (remaining : Nat),
      (writeChunks path broken chunks remaining).Only p := by
    intro broken chunks
    induction chunks with
    | nil =>
      intro remaining
      unfold writeChunks
      split <;> trivial
    | cons chunk rest ih =>
      intro remaining
      unfold writeChunks
      exact only_bind (only_lift _) fun left => only_bind (only_perform (hw chunk)) fun _ => ih left
  have one : ∀ (field : Field) (form : Form), (receiveField path field form).Only p := by
    intro field form
    unfold receiveField
    split
    · split
      · trivial
      · refine only_bind (only_bind (only_perform hc) fun _ => ?_) fun _ => trivial
        exact only_bind (chunks _ _ _) fun _ => only_bind (only_perform hf) fun _ => trivial
    all_goals exact only_bind (only_lift _) fun _ => trivial
  induction fields generalizing form with
  | nil =>
    unfold receiveFields
    split <;> trivial
  | cons field rest ih =>
    unfold receiveFields
    exact only_bind (one field form) fun _ => ih

end Receive

section Answers

/-- The same answer, but for the status. -/
abbrev SameAnswer (r r' : Response) : Prop := r' = r.asUploaded

theorem alike_select (clientId clientRecordingId : String) :
    (getRecordingByIdempotency clientId clientRecordingId).Alike blur
      (Option.Rel fun r r' : Recording => r' = r.asUploaded)
      (getRecordingByIdempotency clientId clientRecordingId) := by
  refine .call fun r => alike_lift ?_
  cases r with
  | error e => exact .inr ⟨e, rfl, rfl⟩
  | ok found =>
    refine .inl ⟨found, _, rfl, rfl, ?_⟩
    cases found with
    | none => exact .none
    | some r => exact .some rfl

theorem alike_lift_eq {α : Type} (r : Except ApiError α) : (lift r : Upload α).Alike blur Eq (lift r) := by
  cases r with
  | ok a => exact .done rfl
  | error e => exact .fail e

theorem alike_createRecording (new : NewRecording) : (createRecording new).Alike blur
    (fun c c' => c' = ⟨c.recording.asUploaded, c.created⟩) (createRecording new) := by
  unfold createRecording
  refine (alike_perform (Call.insert new)).bind fun affected affected' ha => ?_
  obtain rfl : affected' = affected := ha
  refine (alike_select _ _).bind fun found found' hf => ?_
  refine (alike_require _ hf).bind fun r r' hr => ?_
  subst hr
  exact .done rfl

theorem alike_remove {path : String} {t t' : Upload Response} (h : t.Alike blur SameAnswer t') :
    ((ignore (Call.remove path) : Upload Unit).bind fun _ => t).Alike blur SameAnswer
      ((ignore (Call.remove path) : Upload Unit).bind fun _ => t') :=
  (alike_ignore _).bind fun _ _ _ => h

theorem alike_register (new : NewRecording) (relative : String) :
    (register new relative).Alike blur SameAnswer (register new relative) := by
  unfold register
  refine ((alike_createRecording new).catching fun e => ?_).bind fun creation creation' hc => ?_
  · exact (alike_ignore _).bind fun _ _ _ => .fail e
  · subst hc
    obtain ⟨recording, created⟩ := creation
    cases created with
    | true => exact .done rfl
    | false => exact alike_remove (.done rfl)

theorem alike_ingest {config : AppConfig} {parsers : Parsers} {c k recordingId path : String} {t : Int}
    {multipart : Multipart} : (ingest config parsers c k recordingId t path multipart).Alike blur SameAnswer
      (ingest config parsers c k recordingId t path multipart) := by
  unfold ingest
  refine (only_receive (p := fun c => blur c = id) rfl (fun _ => rfl) rfl).alike.bind fun form _ hform => ?_
  subst hform
  split
  · exact .fail _
  · refine (alike_lift_eq _).bind fun tags _ ht => ht ▸ ?_
    refine (alike_lift_eq _).bind fun recordedAt _ hr => hr ▸ ?_
    refine (alike_perform (Call.read _ _)).bind fun header _ hh => ?_
    obtain rfl : _ = header := hh
    refine (alike_lift_eq _).bind fun info _ hi => hi ▸ ?_
    refine (alike_perform (Call.size _)).bind fun size _ hsize => ?_
    obtain rfl : _ = size := hsize
    exact (alike_perform (Call.rename _ _)).bind fun _ _ _ => alike_register _ _

/-- What an upload learns of another Recording's progress steers nothing but the status
in its answer. -/
theorem alike_uploadRecording {config : AppConfig} {parsers : Parsers} {supply : Supply Unit}
    {request : Request} : (uploadRecording config parsers supply request).Alike blur SameAnswer
      (uploadRecording config parsers supply request) := by
  unfold uploadRecording
  refine (alike_lift_eq _).bind fun key _ hk => hk ▸ ?_
  refine (alike_select _ _).bind fun found found' hf => ?_
  cases hf with
  | some hr =>
    subst hr
    exact .done rfl
  | none => exact alike_ingest.catching fun e => (alike_ignore _).bind fun _ _ _ => .fail e

end Answers
end Api
end Telegraph
