import Telegraph.Uploads

namespace Telegraph.World
open Lib Task BlobStore Function Api
open SqliteStore (newRow)

/-- What a part of `ingest` promises: `ok` of its result, or no more than a temp file. -/
def Part {α : Type} (id : String) (ok : α → World → Prop) (r : Except ApiError α) (w : World) : Prop :=
  match r with
  | .ok a => ok a w
  | .error _ => ∃ temp, w.Holds id temp none

section Rules
variable {id : String} {key : Option (String × String)} {w : World} {temp : Option Bytes}
variable {α β : Type} {ok : α → World → Prop}

theorem part_bind {p : Upload α} {f : α → Upload β} {ok' : β → World → Prop}
    (h : p.Safe machine (terms id key) (Part id ok) w)
    (hf : ∀ a w', ok a w' → (f a).Safe machine (terms id key) (Part id ok') w') :
    (p.bind f).Safe machine (terms id key) (Part id ok') w := by
  apply safe_bind
  refine h.weaken fun r s hr => ?_
  cases r with
  | ok a => exact hf a s hr
  | error e =>
    intro s' hs
    obtain ⟨temp, ht⟩ := hr
    exact ⟨temp, ht.after hs⟩

theorem part_fail {e : ApiError} (h : w.Holds id temp none) :
    (fail e : Upload α).Safe machine (terms id key) (Part id ok) w :=
  fun _ ho => ⟨temp, h.after ho⟩

theorem part_done {a : α} (h : ∀ w', Others id w w' → ok a w') :
    (done a : Upload α).Safe machine (terms id key) (Part id ok) w := h

theorem part_lift {r : Except ApiError α} (h : w.Holds id temp none)
    (hok : ∀ a w', Others id w w' → r = .ok a → ok a w') :
    (lift r : Upload α).Safe machine (terms id key) (Part id ok) w := by
  apply safe_lift
  intro w' ho
  cases r with
  | ok a => exact hok a w' ho rfl
  | error e => exact ⟨temp, h.after ho⟩

/-- A call made while the upload has at most a temp file. -/
theorem part_call {c : Call} {ok : c.Answer → World → Prop} (h : w.Holds id temp none)
    (ha : ∀ w', w'.Holds id temp none → Changes id key w' (answer c w').1 ∧
      ∀ w'', Others id (answer c w').1 w'' → Part id ok (answer c w').2 w'')
    (hb : ∀ w' k w'' e, w'.Holds id temp none → breaks c k w' = some (w'', e) →
      Changes id key w' w'' ∧ ∃ temp', w''.Holds id temp' none) :
    (perform c : Upload c.Answer).Safe machine (terms id key) (Part id ok) w := by
  apply safe_perform
  · intro w' ho
    exact ha w' (h.after ho)
  · intro w' ho k w'' e _ he
    obtain ⟨hc, temp', ht⟩ := hb w' k w'' e (h.after ho) he
    exact ⟨hc, fun w₃ ho' => ⟨temp', ht.after ho'⟩⟩

/-- A call that only looks. -/
theorem part_look {c : Call} {ok : c.Answer → World → Prop} (h : w.Holds id temp none)
    (hw : ∀ w', (answer c w').1 = w') (hb : ∀ k w' w'' e, breaks c k w' = some (w'', e) → w'' = w')
    (hok : ∀ w' a w'', w'.Holds id temp none → (answer c w').2 = .ok a → Others id w' w'' → ok a w'') :
    (perform c : Upload c.Answer).Safe machine (terms id key) (Part id ok) w := by
  refine part_call h (fun w' hw' => ?_) fun w' k w'' e hw' he => ?_
  · rw [hw w']
    refine ⟨Changes.refl w', fun w'' ho => ?_⟩
    cases hr : (answer c w').2 with
    | ok a => exact hok w' a w'' hw' hr ho
    | error e => exact ⟨temp, hw'.after ho⟩
  · rw [hb k w' w'' e he]
    exact ⟨Changes.refl w', temp, hw'⟩

theorem part_create (h : w.Holds id temp none) :
    (perform (Call.create (tempPath id)) : Upload Unit).Safe machine (terms id key)
      (Part id fun _ w => w.Holds id (some []) none) w := by
  refine part_call h (fun w' hw => ?_) fun w' k w'' e hw he => ?_
  · exact ⟨hw.toUnused.putTemp _, fun w'' ho => (hw.putTemp (some [])).after ho⟩
  · cases he
    exact ⟨Changes.refl w', temp, hw⟩

/-- Appending to the temp file, a whole chunk or part of it. -/
theorem Holds.append {content chunk : Bytes} (h : w.Holds id (some content) none) :
    { w with files := w.files.append (tempPath id) chunk } =
      w.put (tempPath id) (some (content ++ chunk)) := by
  unfold Files.append put
  rw [h.tempFile]

theorem part_write {content chunk : Bytes} (h : w.Holds id (some content) none) :
    (perform (Call.write (tempPath id) chunk) : Upload Unit).Safe machine (terms id key)
      (Part id fun _ w => w.Holds id (some (content ++ chunk)) none) w := by
  refine part_call h (fun w' hw => ?_) fun w' k w'' e hw he => ?_
  · have hone : (answer (Call.write (tempPath id) chunk) w').1 =
        w'.put (tempPath id) (some (content ++ chunk)) := hw.append
    rw [hone]
    exact ⟨hw.toUnused.putTemp _, fun w'' ho => (hw.putTemp _).after ho⟩
  · simp only [breaks, Option.some.injEq, Prod.mk.injEq] at he
    obtain ⟨rfl, -⟩ := he
    rw [hw.append]
    exact ⟨hw.toUnused.putTemp _, _, hw.putTemp _⟩

theorem part_flush (h : w.Holds id temp none) :
    (perform (Call.flush (tempPath id)) : Upload Unit).Safe machine (terms id key)
      (Part id fun _ w => w.Holds id temp none) w := by
  refine part_look h (fun _ => rfl) (fun k w' w'' e he => ?_) fun w' a w'' hw _ ho => hw.after ho
  cases he
  rfl

theorem part_read {max : Nat} (h : w.Holds id temp none) :
    (perform (Call.read (tempPath id) max) : Upload Bytes).Safe machine (terms id key)
      (Part id fun _ w => w.Holds id temp none) w := by
  refine part_look h (fun _ => rfl) (fun k w' w'' e he => ?_) fun w' a w'' hw _ ho => hw.after ho
  cases he
  rfl

theorem part_size (h : w.Holds id temp none) :
    (perform (Call.size (tempPath id)) : Upload Nat).Safe machine (terms id key)
      (Part id fun _ w => w.Holds id temp none) w := by
  refine part_look h (fun _ => rfl) (fun k w' w'' e he => ?_) fun w' a w'' hw _ ho => hw.after ho
  cases he
  rfl

/-- The rename moves the temp file to where the blob belongs. -/
theorem part_rename {content : Bytes} (h : w.Holds id (some content) none) :
    (perform (Call.rename (tempPath id) (relativePath id)) : Upload Unit).Safe machine (terms id key)
      (Part id fun _ w => w.Holds id none (some content)) w := by
  refine part_call h (fun w' hw => ?_) fun w' k w'' e hw he => ?_
  · have hone : answer (Call.rename (tempPath id) (relativePath id)) w' =
        ((w'.put (tempPath id) none).put (relativePath id) (some content), .ok ()) := by
      simp only [answer, Files.rename, hw.tempFile, Option.map_some, put]
    have hmoved := (hw.putTemp none).putBlob (some content)
    rw [hone]
    refine ⟨hw.toUnused.changes rfl fun p ht hr => ?_, fun w'' ho => hmoved.after ho⟩
    rw [put_other _ _ hr, put_other _ _ ht]
  · cases he
    exact ⟨Changes.refl w', _, hw⟩

end Rules

section Body
variable {id : String} {key : Option (String × String)} {w : World}

theorem part_writeChunks {broken : Bool} {chunks : List Bytes} {content : Bytes} {remaining : Nat}
    (h : w.Holds id (some content) none) :
    (writeChunks (tempPath id) broken chunks remaining).Safe machine (terms id key)
      (Part id fun _ w => w.Holds id (some (content ++ chunks.flatten)) none) w := by
  induction chunks generalizing content remaining w with
  | nil =>
    unfold writeChunks
    split
    · exact part_fail h
    · rw [List.flatten_nil, List.append_nil]
      exact part_done fun w' ho => h.after ho
  | cons chunk rest ih =>
    unfold writeChunks
    refine part_bind (part_lift h fun _ w' ho _ => h.after ho) fun left w₁ h₁ => ?_
    refine part_bind (part_write h₁) fun _ w₂ h₂ => ?_
    rw [List.flatten_cons, ← List.append_assoc]
    exact ih h₂

/-- The field's bytes are on disk, whatever was there before. -/
theorem part_streamToFile {field : Field} {temp : Option Bytes} {remaining : Nat}
    (h : w.Holds id temp none) :
    (streamToFile field (tempPath id) remaining).Safe machine (terms id key)
      (Part id fun _ w => w.Holds id (some field.chunks.flatten) none) w := by
  unfold streamToFile
  refine part_bind (part_create h) fun _ w₁ h₁ => ?_
  refine part_bind (part_writeChunks h₁) fun left w₂ h₂ => ?_
  refine part_bind (part_flush h₂) fun _ w₃ h₃ => ?_
  exact part_done fun w' ho => h₃.after ho

/-- The form knows whether there is a temp file, and the file is the audio so far. -/
def Received (id : String) (audio : Option Bytes) (form : Form) (w : World) : Prop :=
  form.audioWritten = audio.isSome ∧ w.Holds id audio none

theorem Received.after {audio : Option Bytes} {form : Form} {w' : World}
    (h : Received id audio form w) (ho : Others id w w') : Received id audio form w' :=
  ⟨h.1, h.2.after ho⟩

theorem part_receiveField {field : Field} {audio : Option Bytes} {form : Form}
    (h : Received id audio form w) :
    (receiveField (tempPath id) field form).Safe machine (terms id key)
      (Part id fun form w => Received id (audio.or (audioOf [field])) form w) w := by
  have other : field.name ≠ some "audio" → audio.or (audioOf [field]) = audio := by
    intro hn
    simp [audioOf, hn]
  unfold receiveField
  split
  · rename_i hn
    split
    · exact part_fail h.2
    · rename_i hw
      have hnone : audio = none := by simpa [h.1] using hw
      have hone : audio.or (audioOf [field]) = some field.chunks.flatten := by
        simp [hnone, audioOf, hn]
      refine part_bind (part_streamToFile h.2) fun left w₁ h₁ => part_done fun w' ho => ?_
      rw [hone]
      exact ⟨rfl, h₁.after ho⟩
  · rename_i hn
    rw [other (by simp [hn])]
    refine part_bind (part_lift h.2 fun _ w' ho _ => h.2.after ho) fun q w₁ h₁ => ?_
    exact part_done fun w' ho => ⟨h.1, h₁.after ho⟩
  · rename_i hn
    rw [other (by simp [hn])]
    refine part_bind (part_lift h.2 fun _ w' ho _ => h.2.after ho) fun q w₁ h₁ => ?_
    exact part_done fun w' ho => ⟨h.1, h₁.after ho⟩
  · rename_i hn _ _
    rw [other hn]
    refine part_bind (part_lift h.2 fun _ w' ho _ => h.2.after ho) fun q w₁ h₁ => ?_
    exact part_done fun w' ho => ⟨h.1, h₁.after ho⟩

theorem part_receiveFields {broken : Bool} {fields : List Field} {audio : Option Bytes} {form : Form}
    (h : Received id audio form w) :
    (receiveFields (tempPath id) broken fields form).Safe machine (terms id key)
      (Part id fun form w => Received id (audio.or (audioOf fields)) form w) w := by
  induction fields generalizing audio form w with
  | nil =>
    unfold receiveFields
    split
    · exact part_fail h.2
    · have hnone : audio.or (audioOf []) = audio := by simp [audioOf]
      rw [hnone]
      exact part_done fun w' ho => h.after ho
  | cons field rest ih =>
    have hrest : (audio.or (audioOf [field])).or (audioOf rest) = audio.or (audioOf (field :: rest)) := by
      rw [Option.or_assoc]
      unfold audioOf
      cases hn : field.name == some "audio" <;> simp [hn]
    unfold receiveFields
    refine part_bind (part_receiveField h) fun next w₁ h₁ => ?_
    rw [← hrest]
    exact ih h₁

end Body

section Row
variable {w : World} {temp blob : Option Bytes}

theorem recordingByKey_of_mem {s : Store} {row : RecordingRow} (h : row ∈ s.recordings.rows) :
    s.recordingByKey row.clientId row.clientRecordingId = some row := by
  apply Table.find_of_mem h (by simp)
  intro a b ha hb
  simp only [Bool.and_eq_true, beq_iff_eq] at ha hb
  simp [RecordingRow.clash, ha, hb]

theorem recordingByKey_some {s : Store} {c k : String} {row : RecordingRow}
    (h : s.recordingByKey c k = some row) :
    row ∈ s.recordings.rows ∧ (row.clientId, row.clientRecordingId) = (c, k) := by
  obtain ⟨hm, hq⟩ := Table.find_mem h
  simp only [Bool.and_eq_true, beq_iff_eq] at hq
  exact ⟨hm, by rw [hq.1, hq.2]⟩

/-- The `INSERT` of an upload without a row: the key is taken, or the row is new. -/
theorem insert_answer {new : NewRecording} (h : w.Unused new.id) :
    (∃ row, w.store.recordingByKey new.clientId new.clientRecordingId = some row ∧
      answer (Call.insert new) w = (w, .ok (0 : Nat))) ∨
    ∃ store, store.recordings.rows = w.recordings ++ [newRow new] ∧
      answer (Call.insert new) w = ({ w with store := store }, .ok (1 : Nat)) := by
  simp only [answer, statement, SqliteStore.insertRecording, Program.run, Program.exec,
    Connection.view_closed, Store.insertRecording, newRow]
  cases hk : w.store.recordingByKey new.clientId new.clientRecordingId with
  | some row => exact Or.inl ⟨row, rfl, rfl⟩
  | none =>
    obtain ⟨t, ht⟩ := Table.insert_fresh (t := w.store.recordings) (r := newRow new) fun a ha => by
      have hid := h.noRow a ha
      have hkey := Table.find_none hk a ha
      simp only [RecordingRow.clash, newRow, Bool.or_eq_false_iff]
      exact ⟨by simpa using hid, hkey⟩
    refine Or.inr ⟨{ w.store with recordings := t }, (Table.insert_some ht).1, ?_⟩
    simp only [newRow] at ht
    simp only [ht]
    rfl

end Row

section Register
variable {id : String} {k : String × String} {key : Option (String × String)} {w : World}
variable {temp blob : Option Bytes} {audio : Bytes}

/-- How `create_recording` may end, over a blob in place. -/
def Registered (id : String) (k : String × String) (audio : Bytes)
    (r : Except ApiError RecordingCreation) (w : World) : Prop :=
  match r with
  | .ok creation =>
    (creation.created = true ∧ ∃ row, w.Created id k audio row ∧
      creation.recording = row.toRecording) ∨
    (creation.created = false ∧ w.Holds id none (some audio) ∧ ∃ row ∈ w.recordings,
      (row.clientId, row.clientRecordingId) = k ∧ creation.recording = row.toRecording)
  | .error _ => w.Holds id none (some audio)

/-- An upload that has answered: with its own row, or with another upload's. -/
def Answered (id : String) (k : String × String) (audio : Bytes) (response : Response) (w : World) :
    Prop :=
  (∃ row, w.Created id k audio row ∧ response = newResponse row.toRecording) ∨
  (w.Vacant id ∧ ∃ row ∈ w.recordings, (row.clientId, row.clientRecordingId) = k ∧
    response = duplicateResponse row.toRecording)

/-- The rest of `create_recording` once its `INSERT` has committed. -/
def confirm (new : NewRecording) (created : Bool) : Upload RecordingCreation :=
  (getRecordingByIdempotency new.clientId new.clientRecordingId).bind fun found =>
    (require found (.internal (.storage (.recordingNotFound new.id)))).bind fun recording =>
      done ⟨recording, created⟩

theorem createRecording_eq (new : NewRecording) : createRecording new =
    (perform (Call.insert new) : Upload Nat).bind fun affected => confirm new (affected == 1) := rfl

/-- With nobody in between, the two statements are the store's `create_recording`. -/
theorem createRecording_alone (new : NewRecording) (w : World) :
    machine.run (createRecording new) w = w.statement (SqliteStore.createRecording new) := by
  change machine.run ((lift (answer (Call.insert new) w).2).bind fun affected =>
    (getRecordingByIdempotency new.clientId new.clientRecordingId).bind fun found => _)
      (answer (Call.insert new) w).1 = _
  unfold SqliteStore.createRecording
  simp only [answer, statement, Program.run, Program.bind_eq, Program.exec_bind]
  cases hi : (SqliteStore.insertRecording new).exec ⟨w.store, none⟩ with
  | mk r c =>
    cases r with
    | error e => rfl
    | ok affected =>
      have hc : c.working = none := by
        simp only [SqliteStore.insertRecording, Program.exec, Connection.view_closed] at hi
        cases hs : w.store.insertRecording (newRow new) with
        | error e => rw [hs] at hi; cases hi
        | ok q => rw [hs] at hi; cases hi; rfl
      obtain ⟨s, k⟩ := c
      cases hc
      simp only [SqliteStore.getRecordingByIdempotency, Program.exec_query, Connection.view_closed]
      change machine.run ((require ((s.recordingByKey new.clientId new.clientRecordingId).map
        (·.toRecording)) _).bind fun recording => _) ⟨s, w.files⟩ = _
      cases s.recordingByKey new.clientId new.clientRecordingId <;> rfl

/-- The `SELECT` finds the row of a key. -/
theorem select_answer {row : RecordingRow} {clientId clientRecordingId : String}
    (h : row ∈ w.recordings)
    (hkey : (row.clientId, row.clientRecordingId) = (clientId, clientRecordingId)) :
    (machine.answer (Call.select clientId clientRecordingId) w).2 = .ok (some row.toRecording) := by
  have hk := recordingByKey_of_mem h
  obtain ⟨hc, hr⟩ := Prod.mk.inj hkey
  rw [hc, hr] at hk
  change Except.ok _ = Except.ok _
  simp only [Connection.view_closed, hk, Option.map_some]

/-- The row found is the upload's own; the `SELECT` is taken not to fail here. -/
theorem safe_confirm_created {new : NewRecording} {row : RecordingRow}
    (h : w.Created new.id (new.clientId, new.clientRecordingId) audio row) :
    (confirm new true).Safe machine (terms new.id key)
      (Registered new.id (new.clientId, new.clientRecordingId) audio) w := by
  apply safe_bind
  apply safe_perform
  · intro w₁ ho
    refine ⟨Changes.refl w₁, fun w₂ ho' => ?_⟩
    rw [select_answer (h.after ho).mem h.rowKey]
    exact fun w₃ ho₃ => Or.inl ⟨rfl, row, (((h.after ho).after ho').after ho₃), rfl⟩
  · intro w₁ ho _ _ _ hm
    exact absurd h.rowId (hm row (ho.mem h.mem))

/-- The row found is another upload's. -/
theorem safe_confirm_existing {new : NewRecording} {row : RecordingRow}
    (h : w.Holds new.id none (some audio)) (hrow : row ∈ w.recordings)
    (hkey : (row.clientId, row.clientRecordingId) = (new.clientId, new.clientRecordingId)) :
    (confirm new false).Safe machine (terms new.id key)
      (Registered new.id (new.clientId, new.clientRecordingId) audio) w := by
  apply safe_bind
  apply safe_perform
  · intro w₁ ho
    refine ⟨Changes.refl w₁, fun w₂ ho' => ?_⟩
    rw [select_answer (ho.mem hrow) hkey]
    exact fun w₃ ho₃ => Or.inr ⟨rfl, ((h.after ho).after ho').after ho₃, row,
      ho₃.mem (ho'.mem (ho.mem hrow)), hkey, rfl⟩
  · intro w₁ ho _ w₂ e _ he
    cases he
    exact ⟨Changes.refl w₁, fun w₃ ho' w₄ ho₄ => ((h.after ho).after ho').after ho₄⟩

theorem safe_createRecording {new : NewRecording} (h : w.Holds new.id none (some audio))
    (hp : new.blobPath = some (relativePath new.id)) :
    (createRecording new).Safe machine
      (terms new.id (some (new.clientId, new.clientRecordingId)))
      (Registered new.id (new.clientId, new.clientRecordingId) audio) w := by
  rw [createRecording_eq]
  apply safe_bind
  apply safe_perform
  · intro w₁ ho
    have h₁ := h.after ho
    change Changes _ _ w₁ (answer (Call.insert new) w₁).1 ∧ ∀ w₂,
      Others _ (answer (Call.insert new) w₁).1 w₂ → restSafe _ _ _ _ (answer (Call.insert new) w₁).2 w₂
    rcases insert_answer h₁.toUnused with ⟨row, hrow, he⟩ | ⟨store, hrows, he⟩
    · rw [he]
      obtain ⟨hm, hkey⟩ := recordingByKey_some hrow
      exact ⟨Changes.refl w₁, fun w₂ ho' => safe_confirm_existing (h₁.after ho') (ho'.mem hm) hkey⟩
    · rw [he]
      have hcreated : World.Created ⟨store, w₁.files⟩ new.id (new.clientId, new.clientRecordingId) audio
          (newRow new) := by
        refine ⟨?_, rfl, rfl, hp, h₁.tempFile, h₁.blobFile⟩
        change _ ∈ store.recordings.rows
        rw [hrows]
        exact List.mem_append_right _ (List.mem_singleton_self _)
      refine ⟨⟨fun _ _ _ => rfl, ⟨[newRow new], hrows, ?_⟩, fun hb r hr => ?_⟩, fun w₂ ho' =>
        safe_confirm_created (hcreated.after ho')⟩
      · intro r hr
        obtain rfl := List.mem_singleton.mp hr
        exact ⟨rfl, rfl, hp⟩
      · change r ∈ store.recordings.rows at hr
        rw [hrows] at hr
        rcases List.mem_append.mp hr with hr | hr
        · exact hb r hr
        · obtain rfl := List.mem_singleton.mp hr
          exact ⟨_, audio, hp, h₁.blobFile⟩
  · intro w₁ ho _ w₂ e _ he
    cases he
    exact ⟨Changes.refl w₁, fun w₃ ho' w₄ ho₄ => ((h.after ho).after ho').after ho₄⟩

theorem safe_removeBlob {post : Except ApiError Unit → World → Prop} (h : w.Holds id temp blob)
    (hp : ∀ w', w'.Holds id temp none → (∀ r ∈ w.recordings, r ∈ w'.recordings) → post (.ok ()) w') :
    (ignore (Call.remove (relativePath id)) : Upload Unit).Safe machine (terms id key) post w := by
  apply safe_ignore (fun _ _ => rfl)
  intro w₁ ho
  have h₁ := h.after ho
  refine ⟨h₁.toUnused.putBlob none, fun w₂ ho' => hp w₂ ((h₁.putBlob none).after ho') ?_⟩
  exact fun r hr => ho'.mem (ho.mem hr)

theorem safe_removeTemp {post : Except ApiError Unit → World → Prop} (h : w.Holds id temp blob)
    (hp : ∀ w', w'.Holds id none blob → post (.ok ()) w') :
    (ignore (Call.remove (tempPath id)) : Upload Unit).Safe machine (terms id key) post w := by
  apply safe_ignore (fun _ _ => rfl)
  intro w₁ ho
  have h₁ := h.after ho
  exact ⟨h₁.toUnused.putTemp none, fun w₂ ho' => hp w₂ ((h₁.putTemp none).after ho')⟩

/-- The row is created or the blob is taken away again. -/
theorem part_register {new : NewRecording} (hid : new.id = id)
    (hk : (new.clientId, new.clientRecordingId) = k) (hp : new.blobPath = some (relativePath id))
    (h : w.Holds id none (some audio)) :
    (register new (relativePath id)).Safe machine (terms id (some k)) (Part id (Answered id k audio)) w := by
  subst hid hk
  unfold register
  apply safe_bind
  apply safe_catching
  refine (safe_createRecording h hp).weaken fun r w₁ hr => ?_
  cases r with
  | error e =>
    -- Nothing was created: the blob goes, the error stays.
    apply safe_bind
    apply safe_removeBlob (h := hr)
    exact fun w₂ h₂ _ w₃ ho w₄ ho₄ => ⟨none, (h₂.after ho).after ho₄⟩
  | ok creation =>
    intro w₂ ho
    rcases hr with ⟨hc, row, hrow, he⟩ | ⟨hc, h₁, row, hrow, hkey, he⟩
    · change Safe _ _ _ (if creation.created = true then _ else _) w₂
      rw [if_pos hc, he]
      exact fun w₃ ho₃ => Or.inl ⟨row, (hrow.after ho).after ho₃, rfl⟩
    · change Safe _ _ _ (if creation.created = true then _ else _) w₂
      rw [if_neg (by simp [hc]), he]
      apply safe_bind
      apply safe_removeBlob (h := h₁.after ho)
      exact fun w₃ h₃ hmem w₄ ho₄ =>
        Or.inr ⟨h₃.after ho₄, row, ho₄.mem (hmem row (ho.mem hrow)), hkey, rfl⟩

end Register

section Handler
variable {config : AppConfig} {parsers : Parsers} {supply : Supply Unit} {w : World}

/-- `ingest` answers with a row over exactly the audio it was sent, or fails with at
most a temp file left. -/
theorem part_ingest {k : String × String} {multipart : Multipart} (h : w.Vacant supply.id) :
    (ingest config parsers k.1 k.2 supply.id supply.now (tempPath supply.id) multipart).Safe machine
      (terms supply.id (some k))
      (Part supply.id fun response w => ∃ audio, audioOf multipart.fields = some audio ∧
        Answered supply.id k audio response w) w := by
  unfold ingest
  have hnew : Received supply.id none ⟨false, none, none, none, config.data.maxUploadBytes⟩ w :=
    ⟨rfl, h⟩
  refine part_bind (part_receiveFields hnew) fun form w₁ h₁ => ?_
  rw [Option.none_or] at h₁
  cases ha : audioOf multipart.fields with
  | none =>
    rw [ha] at h₁
    rw [if_pos (by simp [h₁.1])]
    exact part_fail h₁.2
  | some audio =>
    rw [ha] at h₁
    rw [if_neg (by simp [h₁.1])]
    have h₁ := h₁.2
    refine part_bind (part_lift h₁ fun _ w' ho _ => h₁.after ho) fun tags w₂ h₂ => ?_
    refine part_bind (part_lift h₂ fun _ w' ho _ => h₂.after ho) fun recordedAt w₃ h₃ => ?_
    refine part_bind (part_read h₃) fun header w₄ h₄ => ?_
    refine part_bind (part_lift h₄ fun _ w' ho _ => h₄.after ho) fun info w₅ h₅ => ?_
    refine part_bind (part_size h₅) fun size w₆ h₆ => ?_
    refine part_bind (part_rename h₆) fun _ w₇ h₇ => ?_
    apply Safe.weaken
    · exact part_register rfl rfl rfl h₇
    · intro r w' hr
      cases r with
      | ok response => exact ⟨audio, rfl, hr⟩
      | error e => exact hr

theorem safe_uploadRecording {request : Request} (h : w.Vacant supply.id) :
    (uploadRecording config parsers supply request).Safe machine
      (terms supply.id (request.key config)) (World.Outcome config supply request) w := by
  unfold uploadRecording
  cases hk : identify config request.headers with
  | error e => exact fun w' ho => h.after ho
  | ok k =>
    have hkey : request.key config = some k := by rw [Request.key, hk]; rfl
    rw [hkey]
    change Safe _ _ _ ((getRecordingByIdempotency k.1 k.2).bind fun existing => _) w
    apply safe_bind
    apply safe_perform
    · intro w₁ ho
      refine ⟨Changes.refl w₁, fun w₂ ho' => ?_⟩
      have h₂ := (h.after ho).after ho'
      have hone : (machine.answer (Call.select k.1 k.2) w₁).2 =
          .ok ((w₁.store.recordingByKey k.1 k.2).map (·.toRecording)) := rfl
      rw [hone]
      cases hf : w₁.store.recordingByKey k.1 k.2 with
      | some row =>
        -- A known duplicate: the body is not even read.
        obtain ⟨hm, hrow⟩ := recordingByKey_some hf
        exact fun w₃ ho₃ => Or.inr ⟨h₂.after ho₃, row, ho₃.mem (ho'.mem hm), by rw [hkey, hrow], rfl⟩
      | none =>
        apply safe_catching
        refine (part_ingest h₂).weaken fun r w₃ hr => ?_
        cases r with
        | error e =>
          obtain ⟨temp, ht⟩ := hr
          apply safe_bind
          apply safe_removeTemp (h := ht)
          exact fun w₄ h₄ w₅ ho₅ => h₄.after ho₅
        | ok response =>
          obtain ⟨audio, ha, ⟨row, hrow, he⟩ | ⟨hv, row, hrow, hk, he⟩⟩ := hr
          · exact fun w₄ ho₄ => Or.inl ⟨k, audio, row, hkey, ha, hrow.after ho₄, he⟩
          · exact fun w₄ ho₄ => Or.inr ⟨hv.after ho₄, row, ho₄.mem hrow, by rw [hkey, hk], he⟩
    · intro w₁ ho _ w₂ e _ he
      cases he
      exact ⟨Changes.refl w₁, fun w₃ ho' w₄ ho₄ => ((h.after ho).after ho').after ho₄⟩

end Handler

end Telegraph.World
