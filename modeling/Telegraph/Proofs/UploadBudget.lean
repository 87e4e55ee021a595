import Telegraph.Intake
import Telegraph.Uploads

namespace Telegraph
open Lib Task World Api Function

/-- A field as it arrives over a connection that holds. -/
structure Arrival where
  name : Option String
  fileName : Option String
  chunks : List Bytes

def Arrival.field (a : Arrival) : Field := ⟨a.name, a.fileName, a.chunks, false⟩

/-- Without the chunks it came in. -/
def Arrival.sent (a : Arrival) : SentField := ⟨a.name, a.chunks.flatten⟩

/-- Within what is left of the budget, and within the limit of a text field. -/
def Arrival.Fits (a : Arrival) (remaining : Nat) : Prop :=
  a.sent.content.length ≤ remaining ∧ a.sent.content.length ≤ maxTextFieldBytes

namespace Api

section Chunks
variable {chunks : List Bytes} {remaining : Nat} {path : String} {w : World} {content : Bytes}

theorem charge_ok {len : Nat} (h : len ≤ remaining) : charge remaining len = .ok (remaining - len) :=
  if_pos h

theorem charge_error {len : Nat} (h : ¬ len ≤ remaining) :
    charge remaining len = .error .payloadTooLarge := if_neg h

/-- Draining a field costs the bytes it has. -/
theorem discardChunks_eq : discardChunks false chunks remaining =
    charge remaining chunks.flatten.length := by
  induction chunks generalizing remaining with
  | nil => simp [discardChunks, charge]
  | cons chunk rest ih =>
    rw [discardChunks, List.flatten_cons, List.length_append]
    by_cases hc : chunk.length ≤ remaining
    · rw [charge_ok hc]
      change discardChunks false rest _ = _
      rw [ih]
      by_cases hr : rest.flatten.length ≤ remaining - chunk.length
      · rw [charge_ok hr, charge_ok (by omega), Nat.sub_add_eq]
      · rw [charge_error hr, charge_error (by omega)]
    · rw [charge_error hc, charge_error (by omega)]
      rfl

/-- A text field within both limits is read whole. -/
theorem readChunks_eq {buffer : Bytes} (hb : buffer.length ≤ maxTextFieldBytes) :
    readChunks false chunks buffer remaining =
      if chunks.flatten.length ≤ remaining ∧
          buffer.length + chunks.flatten.length ≤ maxTextFieldBytes then
        .ok (buffer ++ chunks.flatten, remaining - chunks.flatten.length)
      else .error .payloadTooLarge := by
  induction chunks generalizing buffer remaining with
  | nil => simp [readChunks, hb]
  | cons chunk rest ih =>
    rw [readChunks, List.flatten_cons, List.length_append]
    by_cases hc : chunk.length ≤ remaining
    · rw [charge_ok hc]
      by_cases hmax : maxTextFieldBytes < buffer.length + chunk.length
      · rw [if_neg (by omega)]
        exact if_pos hmax
      · have hrest : readChunks false rest (buffer ++ chunk) (remaining - chunk.length) = _ :=
          ih (by rw [List.length_append]; omega)
        refine (if_neg hmax).trans ?_
        rw [hrest, List.length_append, List.append_assoc]
        split
        · rw [if_pos (by omega), Nat.sub_add_eq]
        · rw [if_neg (by omega)]
    · rw [charge_error hc, if_neg (by omega)]
      rfl

theorem append_put (w : World) (path : String) (content chunk : Bytes) :
    answer (.write path chunk) (w.put path (some content)) =
      (w.put path (some (content ++ chunk)), .ok ()) := by
  simp [answer, put, Files.append]

/-- A chunk within the budget is written before the next is looked at. -/
theorem writeChunks_cons {chunk : Bytes} (h : chunk.length ≤ remaining) :
    writeChunks path false (chunk :: chunks) remaining =
      (perform (.write path chunk)).bind fun _ =>
        writeChunks path false chunks (remaining - chunk.length) := by
  rw [writeChunks, charge_ok h]
  rfl

/-- Within the budget the chunks end up in the file one behind the other. -/
theorem run_writeChunks (h : chunks.flatten.length ≤ remaining) :
    machine.run (writeChunks path false chunks remaining) (w.put path (some content)) =
      (w.put path (some (content ++ chunks.flatten)), .ok (remaining - chunks.flatten.length)) := by
  induction chunks generalizing remaining content with
  | nil => simp [writeChunks, Machine.run]
  | cons chunk rest ih =>
    rw [List.flatten_cons, List.length_append] at h ⊢
    rw [writeChunks_cons (by omega), Machine.run_bind_ok ((Machine.run_perform _).trans (append_put ..)),
      ih (by omega), List.append_assoc, Nat.sub_add_eq]

/-- Above it some chunk is refused. -/
theorem run_writeChunks_error (h : ¬ chunks.flatten.length ≤ remaining) :
    (machine.run (writeChunks path false chunks remaining) (w.put path (some content))).2 =
      .error .payloadTooLarge := by
  induction chunks generalizing remaining content with
  | nil => simp at h
  | cons chunk rest ih =>
    rw [List.flatten_cons, List.length_append] at h
    by_cases hc : chunk.length ≤ remaining
    · rw [writeChunks_cons hc, Machine.run_bind_ok ((Machine.run_perform _).trans (append_put ..))]
      exact ih (by omega)
    · rw [writeChunks, charge_error hc]
      rfl

end Chunks

section Fields
variable {a : Arrival} {remaining : Nat} {path : String} {w : World}

theorem readTextField_error (h : ¬ a.Fits remaining) :
    readTextField a.field remaining = .error .payloadTooLarge := by
  have hread : readChunks false a.chunks [] remaining = .error .payloadTooLarge := by
    rw [readChunks_eq (by simp), if_neg]
    simpa [Arrival.Fits, Arrival.sent] using h
  change (readChunks false a.chunks [] remaining >>= _) = _
  rw [hread]
  rfl

theorem readTextField_fits (h : a.Fits remaining) : readTextField a.field remaining =
    (a.sent.text.elim (.error .invalidMultipart) fun text =>
      .ok (text, remaining - a.sent.content.length)) := by
  have hread : readChunks false a.chunks [] remaining =
      .ok (a.chunks.flatten, remaining - a.chunks.flatten.length) := by
    rw [readChunks_eq (by simp), if_pos]
    · rfl
    · simpa [Arrival.Fits, Arrival.sent] using h
  change (readChunks false a.chunks [] remaining >>= _) = _
  rw [hread]
  simp only [Bind.bind, Except.bind, SentField.text, Arrival.sent]
  cases String.fromUTF8? ⟨a.chunks.flatten.toArray⟩ <;> rfl

/-- Whatever stood in the file, it now holds the field. -/
theorem run_streamToFile (h : a.sent.content.length ≤ remaining) :
    machine.run (streamToFile a.field path remaining) w =
      (w.put path (some a.sent.content), .ok (remaining - a.sent.content.length)) := by
  have hcreate : machine.run (perform (Call.create path) : Upload Unit) w =
      (w.put path (some []), .ok ()) := rfl
  have hwrite : machine.run (writeChunks path false a.chunks remaining) (w.put path (some [])) =
      (w.put path (some ([] ++ a.chunks.flatten)), .ok (remaining - a.chunks.flatten.length)) :=
    run_writeChunks h
  rw [List.nil_append] at hwrite
  unfold streamToFile
  rw [bind_eq, Machine.run_bind_ok hcreate, bind_eq]
  exact (Machine.run_bind_ok hwrite).trans rfl

theorem run_streamToFile_error (h : ¬ a.sent.content.length ≤ remaining) :
    (machine.run (streamToFile a.field path remaining) w).2 = .error .payloadTooLarge := by
  have hcreate : machine.run (perform (Call.create path) : Upload Unit) w =
      (w.put path (some []), .ok ()) := rfl
  unfold streamToFile
  rw [bind_eq, Machine.run_bind_ok hcreate, bind_eq]
  exact Machine.run_bind_error (run_writeChunks_error h)

end Fields

section Loop
variable {max remaining : Nat} {i j : Intake} {form : Form} {a : Arrival} {path : String} {w : World}

/-- The locals of the loop say what was taken in. -/
structure Tracks (max : Nat) (i : Intake) (form : Form) : Prop where
  written : form.audioWritten = i.audio.isSome
  tags : form.tagsRaw = i.tagsRaw
  recordedAt : form.recordedAtRaw = i.recordedAtRaw
  budget : form.remaining + i.total = max

/-- The world with the audio taken in stored. -/
def keep (w : World) (path : String) (i : Intake) : World :=
  i.audio.elim w fun audio => w.put path (some audio)

theorem keep_put (w : World) (path : String) (i : Intake) (content : Option Bytes) :
    (keep w path i).put path content = w.put path content := by
  cases h : i.audio <;> simp [keep, h, World.put]

theorem keep_add (h : ¬ a.sent.IsAudio) : keep w path (i.add a.sent) = keep w path i := by
  rw [keep, keep, Intake.add_audio_other h]

/-- Too large for the whole is too large for what is left. -/
theorem tooLarge_iff (ht : Tracks max i form) : Intake.TooLarge max i a.sent ↔
    ¬ a.sent.content.length ≤ form.remaining ∨
      a.sent.IsText ∧ maxTextFieldBytes < a.sent.content.length := by
  have hb := ht.budget
  have hover : max < i.total + a.sent.content.length ↔ ¬ a.sent.content.length ≤ form.remaining := by
    omega
  rw [Intake.TooLarge, hover]

theorem not_tooLarge (ht : Tracks max i form) (h : ¬ Intake.TooLarge max i a.sent) :
    a.sent.content.length ≤ form.remaining ∧
      (a.sent.IsText → a.sent.content.length ≤ maxTextFieldBytes) := by
  rw [tooLarge_iff ht, not_or, not_not, not_and, Nat.not_lt] at h
  exact h

theorem audio_not_text (h : a.sent.IsAudio) : ¬ a.sent.IsText := by
  have hname : a.sent.name = some "audio" := h
  simp [SentField.IsText, hname]

theorem receiveField_audio (hn : a.name = some "audio") (h : form.audioWritten = false) :
    receiveField path a.field form = (streamToFile a.field path form.remaining).bind fun left =>
      done ⟨true, a.fileName, form.tagsRaw, form.recordedAtRaw, left⟩ := by
  simp only [receiveField, Arrival.field, hn, h]
  rfl

theorem receiveField_second (hn : a.name = some "audio") (h : form.audioWritten = true) :
    receiveField path a.field form = fail .multipleAudio := by
  simp only [receiveField, Arrival.field, hn, h, if_true]

theorem receiveField_tags (hn : a.name = some "tags") : receiveField path a.field form =
    (lift (readTextField a.field form.remaining)).bind fun p =>
      done { form with tagsRaw := some p.1, remaining := p.2 } := by
  simp only [receiveField, Arrival.field, hn]
  rfl

theorem receiveField_recordedAt (hn : a.name = some "recorded_at") : receiveField path a.field form =
    (lift (readTextField a.field form.remaining)).bind fun p =>
      done { form with recordedAtRaw := some p.1, remaining := p.2 } := by
  simp only [receiveField, Arrival.field, hn]
  rfl

theorem receiveField_other (ha : ¬ a.sent.IsAudio) (ht : ¬ a.sent.IsText) :
    receiveField path a.field form = (lift (charge form.remaining a.sent.content.length)).bind
      fun left => done { form with remaining := left } := by
  have hdiscard : discardField a.field form.remaining =
      charge form.remaining a.sent.content.length := discardChunks_eq
  simp only [SentField.IsText, not_or] at ht
  unfold receiveField
  split
  · next hn => exact absurd hn ha
  · next hn => exact absurd hn ht.1
  · next hn => exact absurd hn ht.2
  · rw [hdiscard]
    rfl

/-- An accepted text field is read as its text. -/
theorem readTextField_ok {text : String} (hfits : a.Fits remaining) (h : a.sent.text = some text) :
    readTextField a.field remaining = .ok (text, remaining - a.sent.content.length) := by
  rw [readTextField_fits hfits, h, Option.elim_some]

/-- A field is accepted with what it comes to in the world and in the form. -/
theorem run_receiveField (ht : Tracks max i form) (h : Intake.takeField max i a.sent = .ok j) :
    ∃ next, machine.run (receiveField path a.field form) (keep w path i) =
      (keep w path j, .ok next) ∧ Tracks max j next := by
  obtain ⟨rfl, honce, hlarge, htext⟩ := Intake.takeField_ok h
  obtain ⟨hroom, hlimit⟩ := not_tooLarge ht hlarge
  have hb := ht.budget
  have hleft : form.remaining - a.sent.content.length + (i.add a.sent).total = max := by
    rw [Intake.add_total]
    omega
  by_cases hisAudio : a.sent.IsAudio
  · have hnone : i.audio = none := by simpa [hisAudio] using honce
    have hfirst : form.audioWritten = false := by rw [ht.written, hnone]; rfl
    have hkeep : keep w path (i.add a.sent) = (keep w path i).put path (some a.sent.content) := by
      rw [keep_put, keep, Intake.add_audio_of hisAudio, Option.elim_some]
    have hname : a.sent.name = some "audio" := hisAudio
    rw [receiveField_audio hisAudio hfirst, Machine.run_bind_ok (run_streamToFile hroom), ← hkeep]
    refine ⟨_, rfl, ?_, ?_, ?_, hleft⟩
    · simp [Intake.add_audio_of hisAudio]
    · simp [Intake.add, hname, ht.tags]
    · simp [Intake.add, hname, ht.recordedAt]
  · have hwritten : form.audioWritten = (i.add a.sent).audio.isSome := by
      rw [Intake.add_audio_other hisAudio, ht.written]
    rw [keep_add hisAudio]
    by_cases hisText : a.sent.IsText
    · obtain ⟨text, hsome⟩ : ∃ text, a.sent.text = some text := by
        rw [← Option.ne_none_iff_exists']
        exact fun hnone => htext ⟨hisText, hnone⟩
      have hread := readTextField_ok ⟨hroom, hlimit hisText⟩ hsome
      rcases hisText with hn | hn
      · rw [receiveField_tags hn, hread]
        refine ⟨_, rfl, hwritten, ?_, ?_, hleft⟩
        · simp [Intake.add, hn, hsome]
        · simp [Intake.add, hn, ht.recordedAt]
      · rw [receiveField_recordedAt hn, hread]
        refine ⟨_, rfl, hwritten, ?_, ?_, hleft⟩
        · simp [Intake.add, hn, ht.tags]
        · simp [Intake.add, hn, hsome]
    · simp only [SentField.IsText, not_or] at hisText
      rw [receiveField_other hisAudio (by simpa [SentField.IsText] using hisText), charge_ok hroom]
      refine ⟨_, rfl, hwritten, ?_, ?_, hleft⟩
      · simp [Intake.add, hisText.1, ht.tags]
      · simp [Intake.add, hisText.2, ht.recordedAt]

theorem run_receiveField_error {e : ApiError} (ht : Tracks max i form)
    (h : Intake.takeField max i a.sent = .error e) :
    (machine.run (receiveField path a.field form) (keep w path i)).2 = .error e := by
  by_cases hsecond : a.sent.IsAudio ∧ i.audio.isSome = true
  · rw [Intake.takeField, if_pos hsecond] at h
    cases h
    rw [receiveField_second hsecond.1 (ht.written.trans hsecond.2)]
    rfl
  · by_cases hlarge : Intake.TooLarge max i a.sent
    · rw [Intake.takeField_tooLarge_iff.mpr ⟨hsecond, hlarge⟩] at h
      cases h
      rw [tooLarge_iff ht] at hlarge
      have hover : ¬ a.sent.IsText → ¬ a.sent.content.length ≤ form.remaining :=
        fun hno => hlarge.resolve_right fun h => hno h.1
      by_cases hisAudio : a.sent.IsAudio
      · have hfirst : form.audioWritten = false := by
          rw [ht.written]
          simpa [hisAudio] using hsecond
        rw [receiveField_audio hisAudio hfirst]
        exact Machine.run_bind_error (run_streamToFile_error (hover (audio_not_text hisAudio)))
      · by_cases hisText : a.sent.IsText
        · have hfits : ¬ a.Fits form.remaining := by
            rintro ⟨hroom, hlimit⟩
            rcases hlarge with hno | ⟨-, hno⟩
            · exact hno hroom
            · omega
          have hread := readTextField_error hfits
          rcases hisText with hn | hn
          · rw [receiveField_tags hn, hread]
            rfl
          · rw [receiveField_recordedAt hn, hread]
            rfl
        · rw [receiveField_other hisAudio hisText, charge_error (hover hisText)]
          rfl
    · obtain ⟨hroom, hlimit⟩ := not_tooLarge ht hlarge
      have htext : a.sent.IsText ∧ a.sent.text = none := by
        by_contra hno
        rw [Intake.takeField, if_neg hsecond, if_neg hlarge, if_neg hno] at h
        cases h
      rw [Intake.takeField, if_neg hsecond, if_neg hlarge, if_pos htext] at h
      cases h
      have hread : readTextField a.field form.remaining = .error .invalidMultipart := by
        rw [readTextField_fits ⟨hroom, hlimit htext.1⟩, htext.2, Option.elim_none]
      rcases htext.1 with hn | hn
      · rw [receiveField_tags hn, hread]
        rfl
      · rw [receiveField_recordedAt hn, hread]
        rfl

/-- The loop over all fields does what its fields come to. -/
theorem run_receiveFields {arrivals : List Arrival} (ht : Tracks max i form)
    (h : Intake.takeFields max i (arrivals.map (·.sent)) = .ok j) :
    ∃ last, machine.run (receiveFields path false (arrivals.map (·.field)) form) (keep w path i) =
      (keep w path j, .ok last) ∧ Tracks max j last := by
  induction arrivals generalizing i form with
  | nil =>
    cases h
    exact ⟨form, rfl, ht⟩
  | cons a rest ih =>
    simp only [List.map_cons, Intake.takeFields] at h
    cases ha : Intake.takeField max i a.sent with
    | error e =>
      rw [ha] at h
      cases h
    | ok mid =>
      rw [ha] at h
      obtain ⟨next, hrun, hnext⟩ := run_receiveField ht ha
      rw [List.map_cons, receiveFields, bind_eq, Machine.run_bind_ok hrun]
      exact ih hnext h

theorem run_receiveFields_error {arrivals : List Arrival} {e : ApiError} (ht : Tracks max i form)
    (h : Intake.takeFields max i (arrivals.map (·.sent)) = .error e) :
    (machine.run (receiveFields path false (arrivals.map (·.field)) form) (keep w path i)).2 =
      .error e := by
  induction arrivals generalizing i form with
  | nil => cases h
  | cons a rest ih =>
    simp only [List.map_cons, Intake.takeFields] at h
    rw [List.map_cons, receiveFields, bind_eq]
    cases ha : Intake.takeField max i a.sent with
    | error e' =>
      rw [ha] at h
      cases h
      exact Machine.run_bind_error (run_receiveField_error ht ha)
    | ok mid =>
      rw [ha] at h
      obtain ⟨next, hrun, hnext⟩ := run_receiveField ht ha
      rw [Machine.run_bind_ok hrun]
      exact ih hnext h

end Loop

section Budget
variable {max : Nat} {path : String} {arrivals : List Arrival} {w : World}

/-- The field loop of `ingest`, from its first field. -/
def fieldLoop (max : Nat) (path : String) (arrivals : List Arrival) (w : World) :
    World × Except ApiError Form :=
  machine.run (receiveFields path false (arrivals.map (·.field)) ⟨false, none, none, none, max⟩) w

/-- What the loop leaves: an error, or the stored audio and the two raw texts. -/
def loopOutcome (path : String) (r : World × Except ApiError Form) :
    Except ApiError (Option Bytes × Option String × Option String) :=
  r.2.map fun form =>
    (if form.audioWritten then r.1.files path else none, form.tagsRaw, form.recordedAtRaw)

theorem fieldLoop_ok (path : String) (w : World) {j : Intake}
    (h : Intake.takeFields max .empty (arrivals.map (·.sent)) = .ok j) :
    ∃ form, fieldLoop max path arrivals w = (keep w path j, .ok form) ∧ Tracks max j form :=
  run_receiveFields (i := .empty) ⟨rfl, rfl, rfl, rfl⟩ h

theorem fieldLoop_error (path : String) (w : World) {e : ApiError}
    (h : Intake.takeFields max .empty (arrivals.map (·.sent)) = .error e) :
    (fieldLoop max path arrivals w).2 = .error e :=
  run_receiveFields_error (i := .empty) ⟨rfl, rfl, rfl, rfl⟩ h

theorem fieldLoop_of_ok {form : Form} {s : World}
    (h : fieldLoop max path arrivals w = (s, .ok form)) :
    ∃ j, Intake.takeFields max .empty (arrivals.map (·.sent)) = .ok j ∧ s = keep w path j ∧
      Tracks max j form := by
  cases hj : Intake.takeFields max .empty (arrivals.map (·.sent)) with
  | error e =>
    have herror := fieldLoop_error path w hj
    rw [h] at herror
    cases herror
  | ok j =>
    obtain ⟨form', hrun, ht⟩ := fieldLoop_ok path w hj
    rw [h] at hrun
    cases hrun
    exact ⟨j, rfl, rfl, ht⟩

theorem keep_files (w : World) (path : String) {j : Intake} {form : Form} (h : Tracks max j form) :
    (if form.audioWritten then (keep w path j).files path else none) = j.audio := by
  rw [h.written]
  cases ha : j.audio with
  | none => rfl
  | some audio =>
    simp only [keep, ha, Option.isSome_some, if_true, Option.elim_some]
    exact w.put_self path _

/-- The outcome of the loop is what the whole fields come to. -/
theorem loopOutcome_eq (max : Nat) (path : String) (arrivals : List Arrival) (w : World) :
    loopOutcome path (fieldLoop max path arrivals w) =
      (Intake.takeFields max .empty (arrivals.map (·.sent))).map fun i =>
        (i.audio, i.tagsRaw, i.recordedAtRaw) := by
  cases h : Intake.takeFields max .empty (arrivals.map (·.sent)) with
  | error e =>
    rw [loopOutcome, fieldLoop_error path w h]
    rfl
  | ok j =>
    obtain ⟨form, hrun, ht⟩ := fieldLoop_ok path w h
    simp only [loopOutcome, hrun, Except.map, keep_files w path ht, ht.tags, ht.recordedAt]

/-- The budget is exact, whatever chunks the fields come in. -/
theorem upload_budget (max : Nat) (path : String) (arrivals : List Arrival) (w : World) :
    loopOutcome path (fieldLoop max path arrivals w) =
      (Intake.takeFields max .empty (arrivals.map (·.sent))).map (fun i =>
        (i.audio, i.tagsRaw, i.recordedAtRaw)) ∧
    (∀ stored texts, loopOutcome path (fieldLoop max path arrivals w) = .ok (stored, texts) →
      Intake.size (arrivals.map (·.sent)) ≤ max ∧
      (∀ f ∈ arrivals.map (·.sent), f.IsText → f.content.length ≤ maxTextFieldBytes) ∧
      (Intake.audios (arrivals.map (·.sent))).map (·.content) = stored.toList) ∧
    (loopOutcome path (fieldLoop max path arrivals w) = .error .payloadTooLarge ↔
      Intake.Exceeds max .empty (arrivals.map (·.sent))) := by
  rw [loopOutcome_eq, ← Intake.takeFields_tooLarge_iff]
  refine ⟨rfl, fun stored texts hok => ?_, ?_⟩
  · cases h : Intake.takeFields max .empty (arrivals.map (·.sent)) with
    | error e =>
      rw [h] at hok
      cases hok
    | ok j =>
      rw [h] at hok
      cases hok
      obtain ⟨htotal, hmax, htexts⟩ := Intake.takeFields_within h (Nat.zero_le _)
      have hsize : j.total = Intake.size (arrivals.map (·.sent)) := by
        rw [htotal]
        exact Nat.zero_add _
      refine ⟨hsize ▸ hmax, htexts, ?_⟩
      rcases Intake.takeFields_audio h with ⟨hnone, haudio⟩ | ⟨f, hone, -, haudio⟩
      · rw [hnone, haudio]
        rfl
      · rw [hone, haudio]
        rfl
  · cases Intake.takeFields max .empty (arrivals.map (·.sent)) <;> simp [Except.map]

end Budget
end Api
end Telegraph
