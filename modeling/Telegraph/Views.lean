import Mathlib.Logic.Function.Basic
import Telegraph.Storage

namespace Telegraph
open Lib Function

/-- What the tables say by key: the Recording, Transcript and Delivery of an id,
and the attempts of a parent in insertion order. -/
structure View where
  recording : String → Option RecordingRow
  transcript : String → Option Transcript
  delivery : String → Option DeliveryRow
  deliveryFor : String → Option DeliveryRow
  transcriptionAttempts : String → List TranscriptionAttempt
  deliveryAttempts : String → List DeliveryAttempt

def Store.view (s : Store) : View where
  recording := s.recording
  transcript := s.transcript
  delivery := s.delivery
  deliveryFor := s.deliveryFor
  transcriptionAttempts := s.transcriptionAttempts.attemptsOf
  deliveryAttempts := s.deliveryAttempts.attemptsOf

namespace View

def withRecording (v : View) (r : RecordingRow) : View :=
  { v with recording := update v.recording r.id (some r) }

def withTranscript (v : View) (t : Transcript) : View :=
  { v with transcript := update v.transcript t.recordingId (some t) }

def withDelivery (v : View) (d : DeliveryRow) : View :=
  { v with
    delivery := update v.delivery d.id (some d)
    deliveryFor := update v.deliveryFor d.recordingId (some d) }

def withTranscriptionAttempt (v : View) (a : TranscriptionAttempt) : View :=
  let grown := v.transcriptionAttempts a.parentId ++ [a]
  { v with transcriptionAttempts := update v.transcriptionAttempts a.parentId grown }

def withDeliveryAttempt (v : View) (a : DeliveryAttempt) : View :=
  let grown := v.deliveryAttempts a.parentId ++ [a]
  { v with deliveryAttempts := update v.deliveryAttempts a.parentId grown }

def mapTranscriptionAttempts (v : View) (f : TranscriptionAttempt → TranscriptionAttempt) : View :=
  { v with transcriptionAttempts := fun x => (v.transcriptionAttempts x).map f }

def mapDeliveryAttempts (v : View) (f : DeliveryAttempt → DeliveryAttempt) : View :=
  { v with deliveryAttempts := fun x => (v.deliveryAttempts x).map f }

def mapRecordings (v : View) (f : RecordingRow → RecordingRow) : View :=
  { v with recording := fun x => (v.recording x).map f }

@[simp] theorem recording_withRecording (v : View) (r : RecordingRow) :
    (v.withRecording r).recording r.id = some r :=
  update_self ..

theorem recording_withRecording_ne {v : View} {r : RecordingRow} {x : String} (h : x ≠ r.id) :
    (v.withRecording r).recording x = v.recording x :=
  update_of_ne h ..

@[simp] theorem delivery_withDelivery (v : View) (d : DeliveryRow) :
    (v.withDelivery d).delivery d.id = some d :=
  update_self ..

theorem delivery_withDelivery_ne {v : View} {d : DeliveryRow} {x : String} (h : x ≠ d.id) :
    (v.withDelivery d).delivery x = v.delivery x :=
  update_of_ne h ..

theorem mapRecordings_id (v : View) : v.mapRecordings id = v := by
  simp only [mapRecordings, Option.map_id_fun, id]

theorem recording_mapRecordings {v : View} {f : RecordingRow → RecordingRow} {x : String}
    {r : RecordingRow} (h : v.recording x = some r) :
    (v.mapRecordings f).recording x = some (f r) :=
  congrArg (Option.map f) h

/-- Only the last of two writes to one row shows. -/
theorem withRecording_withRecording {v : View} {a b : RecordingRow} (h : a.id = b.id) :
    (v.withRecording a).withRecording b = v.withRecording b := by
  simp only [withRecording, h, update_idem]

end View

/-- A finished attempt: the columns the finishing `UPDATE` sets. -/
def Attempt.finished {δ : Type} (a : Attempt δ) (finishedAt : Int) (status : AttemptStatus)
    (retryable : Bool) (detail : Option δ) (errorMessage : Option String) : Attempt δ :=
  { a with
    finishedAt := some finishedAt
    status := status
    retryable := retryable
    detail := detail
    errorMessage := errorMessage }

/-- How the rows of one key sit under another: ids name their rows, a Delivery is
found both by its id and by its Recording, an attempt id occurs once. -/
structure View.Coherent (v : View) : Prop where
  recording_id : ∀ {x r}, v.recording x = some r → r.id = x
  transcript_id : ∀ {x t}, v.transcript x = some t → t.recordingId = x
  delivery_id : ∀ {x d}, v.delivery x = some d → d.id = x
  deliveryFor_id : ∀ {x d}, v.deliveryFor x = some d → d.recordingId = x
  delivery_iff : ∀ {d}, v.delivery d.id = some d ↔ v.deliveryFor d.recordingId = some d
  transcription_parent : ∀ {x a}, a ∈ v.transcriptionAttempts x → a.parentId = x
  transcription_unique : ∀ {x y a b}, a ∈ v.transcriptionAttempts x →
    b ∈ v.transcriptionAttempts y → a.id = b.id → a = b
  delivery_parent : ∀ {x a}, a ∈ v.deliveryAttempts x → a.parentId = x
  delivery_unique : ∀ {x y a b}, a ∈ v.deliveryAttempts x →
    b ∈ v.deliveryAttempts y → a.id = b.id → a = b

namespace Store

theorem recording_id {s : Store} {x : String} {r : RecordingRow} (h : s.recording x = some r) :
    r.id = x := by
  simpa using (Table.find_mem h).2

theorem recording_of_mem {s : Store} {r : RecordingRow} (h : r ∈ s.recordings.rows) :
    s.recording r.id = some r := by
  apply Table.find_of_mem h (by simp)
  intro a b ha hb
  have he : a.id = b.id := by simpa using (beq_iff_eq.mp ha).trans (beq_iff_eq.mp hb).symm
  simp [RecordingRow.clash, he]

theorem delivery_of_mem {s : Store} {d : DeliveryRow} (h : d ∈ s.deliveries.rows) :
    s.delivery d.id = some d := by
  apply Table.find_of_mem h (by simp)
  intro a b ha hb
  have he : a.id = b.id := (beq_iff_eq.mp ha).trans (beq_iff_eq.mp hb).symm
  simp [DeliveryRow.clash, he]

theorem deliveryFor_of_mem {s : Store} {d : DeliveryRow} (h : d ∈ s.deliveries.rows) :
    s.deliveryFor d.recordingId = some d := by
  apply Table.find_of_mem h (by simp)
  intro a b ha hb
  have he : a.recordingId = b.recordingId := (beq_iff_eq.mp ha).trans (beq_iff_eq.mp hb).symm
  simp [DeliveryRow.clash, he]

/-- The row found by its id is the only one with it. -/
theorem eq_of_recording {s : Store} {x : String} {r q : RecordingRow} (hr : s.recording x = some r)
    (hq : q ∈ s.recordings.rows) (hx : q.id = x) : q = r := by
  have hfind := recording_of_mem hq
  rw [hx, hr] at hfind
  exact (Option.some.inj hfind).symm

theorem eq_of_delivery {s : Store} {x : String} {d e : DeliveryRow} (hd : s.delivery x = some d)
    (he : e ∈ s.deliveries.rows) (hx : e.id = x) : e = d := by
  have hfind := delivery_of_mem he
  rw [hx, hd] at hfind
  exact (Option.some.inj hfind).symm

theorem attempt_unique {δ : Type} {t : AttemptTable δ} {a b : Attempt δ} (ha : a ∈ t.rows)
    (hb : b ∈ t.rows) (he : a.id = b.id) : a = b := by
  have key : ∀ c d : Attempt δ, (c.id == a.id) = true → (d.id == a.id) = true →
      Attempt.clash c d = true := by
    intro c d hc hd
    simpa [Attempt.clash] using (beq_iff_eq.mp hc).trans (beq_iff_eq.mp hd).symm
  have hfa := Table.find_of_mem (q := fun c => c.id == a.id) ha (by simp) key
  have hfb := Table.find_of_mem (q := fun c => c.id == a.id) hb (by simp [he]) key
  exact Option.some.inj (hfa.symm.trans hfb)

theorem mem_attemptsOf {δ : Type} {t : AttemptTable δ} {x : String} {a : Attempt δ} :
    a ∈ t.attemptsOf x ↔ a ∈ t.rows ∧ a.parentId = x := by
  simp [AttemptTable.attemptsOf]

theorem view_coherent (s : Store) : s.view.Coherent where
  recording_id := recording_id
  transcript_id h := by simpa using (Table.find_mem h).2
  delivery_id h := by simpa using (Table.find_mem h).2
  deliveryFor_id h := by simpa using (Table.find_mem h).2
  delivery_iff := by
    intro d
    constructor
    · intro h
      exact deliveryFor_of_mem (Table.find_mem h).1
    · intro h
      exact delivery_of_mem (Table.find_mem h).1
  transcription_parent h := (mem_attemptsOf.mp h).2
  transcription_unique ha hb := attempt_unique (mem_attemptsOf.mp ha).1 (mem_attemptsOf.mp hb).1
  delivery_parent h := (mem_attemptsOf.mp h).2
  delivery_unique ha hb := attempt_unique (mem_attemptsOf.mp ha).1 (mem_attemptsOf.mp hb).1

theorem deliveryFor_of_delivery {s : Store} {x : String} {d : DeliveryRow}
    (h : s.delivery x = some d) : s.deliveryFor d.recordingId = some d :=
  deliveryFor_of_mem (Table.find_mem h).1

/-- A keyed `UPDATE` changes the row of its key and no other. -/
theorem view_updateRecordings {s : Store} {x : String} {r : RecordingRow}
    {f : RecordingRow → RecordingRow} {h : Table.KeepsKeys RecordingRow.clash f}
    (hr : s.recording x = some r) (hid : ∀ a, (f a).id = a.id) :
    (s.updateRecordings (·.id == x) f h).view = s.view.withRecording (f r) := by
  have hx : r.id = x := recording_id hr
  have he : (s.updateRecordings (·.id == x) f h).recording =
      update s.recording (f r).id (some (f r)) := by
    funext y
    have hq : ∀ a, ((f a).id == y) = (a.id == y) := fun a => by rw [hid]
    unfold recording updateRecordings
    rw [Table.find_update hq]
    rw [hid, hx]
    by_cases hy : y = x
    · subst y
      rw [update_self]
      have hr' : s.recordings.find (·.id == x) = some r := hr
      rw [hr', Option.map_some, hx]
      simp
    · rw [update_of_ne hy]
      cases hf : s.recordings.find (·.id == y) with
      | none => rfl
      | some a =>
        have ha : a.id = y := recording_id hf
        simp [ha, hy]
  simp only [view, View.withRecording, he]
  rfl

theorem view_updateDeliveries {s : Store} {x : String} {d : DeliveryRow}
    {f : DeliveryRow → DeliveryRow} {h : Table.KeepsKeys DeliveryRow.clash f}
    (hd : s.delivery x = some d) (hid : ∀ a, (f a).id = a.id)
    (hrec : ∀ a, (f a).recordingId = a.recordingId) :
    (s.updateDeliveries (·.id == x) f h).view = s.view.withDelivery (f d) := by
  have hx : d.id = x := s.view_coherent.delivery_id hd
  have hfor : s.deliveryFor d.recordingId = some d :=
    s.view_coherent.delivery_iff.mp (by rw [hx]; exact hd)
  have he : (s.updateDeliveries (·.id == x) f h).delivery =
      update s.delivery (f d).id (some (f d)) := by
    funext y
    have hq : ∀ a, ((f a).id == y) = (a.id == y) := fun a => by rw [hid]
    unfold delivery updateDeliveries
    rw [Table.find_update hq, hid, hx]
    by_cases hy : y = x
    · subst y
      have hd' : s.deliveries.find (·.id == x) = some d := hd
      rw [update_self, hd', Option.map_some, hx]
      simp
    · rw [update_of_ne hy]
      cases hf : s.deliveries.find (·.id == y) with
      | none => rfl
      | some a =>
        have ha : a.id = y := s.view_coherent.delivery_id hf
        simp [ha, hy]
  have hefor : (s.updateDeliveries (·.id == x) f h).deliveryFor =
      update s.deliveryFor (f d).recordingId (some (f d)) := by
    funext y
    have hq : ∀ a, ((f a).recordingId == y) = (a.recordingId == y) := fun a => by rw [hrec]
    unfold deliveryFor updateDeliveries
    rw [Table.find_update hq, hrec]
    by_cases hy : y = d.recordingId
    · subst y
      have hfor' : s.deliveries.find (·.recordingId == d.recordingId) = some d := hfor
      rw [update_self, hfor', Option.map_some, hx]
      simp
    · rw [update_of_ne hy]
      cases hf : s.deliveries.find (·.recordingId == y) with
      | none => rfl
      | some a =>
        have ha : a.recordingId = y := s.view_coherent.deliveryFor_id hf
        have hne : a.id ≠ x := by
          intro hax
          have hda : s.delivery a.id = some a := s.view_coherent.delivery_iff.mpr (by rw [ha]; exact hf)
          rw [hax, hd] at hda
          cases hda
          exact hy ha.symm
        simp [hne]
  simp only [view, View.withDelivery, he, hefor]
  rfl

theorem view_mapRecordings {s : Store} {p : RecordingRow → Bool} {f : RecordingRow → RecordingRow}
    {h : Table.KeepsKeys RecordingRow.clash f} (hid : ∀ a, (f a).id = a.id) :
    (s.updateRecordings p f h).view = s.view.mapRecordings fun r => if p r then f r else r := by
  have he : (s.updateRecordings p f h).recording =
      fun y => (s.recording y).map fun r => if p r then f r else r := by
    funext y
    have hq : ∀ a, ((f a).id == y) = (a.id == y) := fun a => by rw [hid]
    exact Table.find_update (h := h) hq
  simp only [view, View.mapRecordings, he]
  rfl

theorem attemptsOf_finish {δ : Type} {t : AttemptTable δ} {p : Attempt δ → Bool} {finishedAt : Int}
    {status : AttemptStatus} {retryable : Bool} {detail : Attempt δ → Option δ}
    {errorMessage : Option String} {x : String} :
    (t.finish p finishedAt status retryable detail errorMessage).attemptsOf x =
      (t.attemptsOf x).map fun a =>
        if p a then a.finished finishedAt status retryable (detail a) errorMessage else a :=
  Table.filter_update fun _ => rfl

theorem view_finishTranscriptions {s : Store} {p : TranscriptionAttempt → Bool} {finishedAt : Int}
    {status : AttemptStatus} {retryable : Bool} {detail : TranscriptionAttempt → Option String}
    {errorMessage : Option String} :
    (s.finishTranscriptions p finishedAt status retryable detail errorMessage).view =
      s.view.mapTranscriptionAttempts fun a =>
        if p a then a.finished finishedAt status retryable (detail a) errorMessage else a := by
  have he : (s.finishTranscriptions p finishedAt status retryable detail errorMessage).transcriptionAttempts.attemptsOf =
      fun x => (s.transcriptionAttempts.attemptsOf x).map fun a =>
        if p a then a.finished finishedAt status retryable (detail a) errorMessage else a := by
    funext x
    exact attemptsOf_finish
  exact congrArg (fun g => { s.view with transcriptionAttempts := g }) he

theorem view_finishDeliveries {s : Store} {p : DeliveryAttempt → Bool} {finishedAt : Int}
    {status : AttemptStatus} {retryable : Bool} {detail : DeliveryAttempt → Option Int}
    {errorMessage : Option String} :
    (s.finishDeliveries p finishedAt status retryable detail errorMessage).view =
      s.view.mapDeliveryAttempts fun a =>
        if p a then a.finished finishedAt status retryable (detail a) errorMessage else a := by
  have he : (s.finishDeliveries p finishedAt status retryable detail errorMessage).deliveryAttempts.attemptsOf =
      fun x => (s.deliveryAttempts.attemptsOf x).map fun a =>
        if p a then a.finished finishedAt status retryable (detail a) errorMessage else a := by
    funext x
    exact attemptsOf_finish
  exact congrArg (fun g => { s.view with deliveryAttempts := g }) he

theorem checked_ok {ρ : Type} {clash : ρ → ρ → Bool} {t : Table ρ clash} {r : ρ} {parent : Bool}
    {k : Table ρ clash → Store} {s' : Store} (h : checked t r parent k = .ok s') :
    ∃ u, t.insert r = some u ∧ parent = true ∧ s' = k u := by
  unfold checked at h
  split at h
  · cases h
  · rename_i u hu
    cases parent with
    | true => exact ⟨u, hu, rfl, by simpa using h.symm⟩
    | false => simp at h

theorem checked_error {ρ : Type} {clash : ρ → ρ → Bool} {t : Table ρ clash} {r : ρ} {parent : Bool}
    {k : Table ρ clash → Store} {e : StorageError} (h : checked t r parent k = .error e) :
    (∃ a ∈ t.rows, clash a r = true) ∨ parent = false := by
  unfold checked at h
  split at h
  · rename_i hu
    exact Or.inl (Table.insert_none hu)
  · cases parent with
    | true => simp at h
    | false => exact Or.inr rfl

theorem checked_database {ρ : Type} {clash : ρ → ρ → Bool} {t : Table ρ clash} {r : ρ}
    {parent : Bool} {k : Table ρ clash → Store} {e : StorageError}
    (h : checked t r parent k = .error e) : ∃ v, e = .database v := by
  unfold checked at h
  split at h
  · cases h
    exact ⟨_, rfl⟩
  · cases parent with
    | true => simp at h
    | false =>
      cases h
      exact ⟨_, rfl⟩

/-- A row found through a key no other row shares, after inserting it. -/
theorem find_insert_eq {ρ : Type} {clash : ρ → ρ → Bool} {t u : Table ρ clash} {r : ρ}
    {k : ρ → String} (h : t.insert r = some u)
    (hkey : ∀ a, k a = k r → clash a r = true) :
    (fun x => u.find fun a => k a == x) =
        update (fun x => t.find fun a => k a == x) (k r) (some r) ∧
      t.find (fun a => k a == k r) = none := by
  have hnone : t.find (fun a => k a == k r) = none := by
    cases hf : t.find fun a => k a == k r with
    | none => rfl
    | some a =>
      obtain ⟨ha, hq⟩ := Table.find_mem hf
      have hfree := (Table.insert_some h).2 a ha
      rw [hkey a (by simpa using hq)] at hfree
      cases hfree
  refine ⟨?_, hnone⟩
  funext x
  rw [Table.find_insert h]
  by_cases hx : x = k r
  · subst x
    rw [update_self, hnone]
    simp
  · rw [update_of_ne hx]
    have hne : (k r == x) = false := by simpa using fun he => hx he.symm
    rw [hne]
    simp

theorem attemptsOf_insert {δ : Type} {t u : AttemptTable δ} {a : Attempt δ}
    (h : t.insert a = some u) :
    u.attemptsOf = update t.attemptsOf a.parentId (t.attemptsOf a.parentId ++ [a]) := by
  funext x
  unfold AttemptTable.attemptsOf
  rw [(Table.insert_some h).1, List.filter_append]
  by_cases hx : x = a.parentId
  · subst x
    simp
  · have hne : a.parentId ≠ x := fun he => hx he.symm
    simp [hx, hne]

theorem insertTranscript_ok {s s' : Store} {t : Transcript} (h : s.insertTranscript t = .ok s') :
    s'.view = s.view.withTranscript t ∧ s.transcript t.recordingId = none ∧
      (s.recording t.recordingId).isSome = true := by
  obtain ⟨u, hu, hp, rfl⟩ := checked_ok h
  obtain ⟨hf, hn⟩ := find_insert_eq (k := Transcript.recordingId) hu
    (fun a ha => by simp [Transcript.clash, ha])
  exact ⟨congrArg (fun g => { s.view with transcript := g }) hf, hn, hp⟩

theorem insertTranscript_error {s : Store} {t : Transcript} {e : StorageError}
    (h : s.insertTranscript t = .error e) :
    (s.transcript t.recordingId).isSome = true ∨ s.recording t.recordingId = none := by
  rcases checked_error h with ⟨a, ha, hc⟩ | hp
  · refine Or.inl (Option.isSome_iff_ne_none.mpr fun hn => ?_)
    have := Table.find_none hn a ha
    rw [Transcript.clash] at hc
    rw [hc] at this
    cases this
  · exact Or.inr (by simpa using hp)

theorem insertDelivery_ok {s s' : Store} {d : DeliveryRow} (h : s.insertDelivery d = .ok s') :
    s'.view = s.view.withDelivery d ∧ s.delivery d.id = none ∧
      s.deliveryFor d.recordingId = none ∧ (s.recording d.recordingId).isSome = true := by
  obtain ⟨u, hu, hp, rfl⟩ := checked_ok h
  obtain ⟨hf, hn⟩ := find_insert_eq (k := fun d => d.id) hu
    (fun a ha => by simp [DeliveryRow.clash, ha])
  obtain ⟨hg, hm⟩ := find_insert_eq (k := fun d => d.recordingId) hu
    (fun a ha => by simp [DeliveryRow.clash, ha])
  refine ⟨?_, hn, hm, hp⟩
  exact congrArg₂ (fun g k => { s.view with delivery := g, deliveryFor := k }) hf hg

theorem insertTranscriptionAttempt_ok {s s' : Store} {a : TranscriptionAttempt}
    (h : s.insertTranscriptionAttempt a = .ok s') :
    s'.view = s.view.withTranscriptionAttempt a ∧
      (∀ x, ∀ b ∈ s.transcriptionAttempts.attemptsOf x, b.id ≠ a.id) ∧
      (s.recording a.parentId).isSome = true := by
  obtain ⟨u, hu, hp, rfl⟩ := checked_ok h
  refine ⟨?_, ?_, hp⟩
  · exact congrArg (fun g => { s.view with transcriptionAttempts := g }) (attemptsOf_insert hu)
  · intro x b hb
    simpa [Attempt.clash] using (Table.insert_some hu).2 b (mem_attemptsOf.mp hb).1

theorem insertDeliveryAttempt_ok {s s' : Store} {a : DeliveryAttempt}
    (h : s.insertDeliveryAttempt a = .ok s') :
    s'.view = s.view.withDeliveryAttempt a ∧
      (∀ x, ∀ b ∈ s.deliveryAttempts.attemptsOf x, b.id ≠ a.id) ∧
      (s.delivery a.parentId).isSome = true := by
  obtain ⟨u, hu, hp, rfl⟩ := checked_ok h
  refine ⟨?_, ?_, hp⟩
  · exact congrArg (fun g => { s.view with deliveryAttempts := g }) (attemptsOf_insert hu)
  · intro x b hb
    simpa [Attempt.clash] using (Table.insert_some hu).2 b (mem_attemptsOf.mp hb).1

theorem insertAuditEvent_ok {s s' : Store} {e : AuditEvent} (h : s.insertAuditEvent e = .ok s') :
    s'.view = s.view := by
  obtain ⟨u, _, _, rfl⟩ := checked_ok h
  rfl

/-- A duplicate key inserts nothing; a new one adds the row. -/
theorem insertRecording_ok {s s' : Store} {r : RecordingRow} {n : Nat}
    (h : s.insertRecording r = .ok (s', n)) :
    (n = 0 ∧ s' = s ∧ (s.recordingByKey r.clientId r.clientRecordingId).isSome = true) ∨
      (n = 1 ∧ s'.view = s.view.withRecording r ∧ s.recording r.id = none ∧
        s.recordingByKey r.clientId r.clientRecordingId = none ∧
        s'.recordingByKey r.clientId r.clientRecordingId = some r) := by
  unfold insertRecording at h
  split at h
  · rename_i hk
    cases h
    exact Or.inl ⟨rfl, rfl, by rw [hk]; rfl⟩
  · rename_i hk
    split at h
    · rename_i u hu
      cases h
      obtain ⟨hf, hn⟩ := find_insert_eq (k := fun r => r.id) hu
        (fun a ha => by simp [RecordingRow.clash, ha])
      refine Or.inr ⟨rfl, congrArg (fun g => { s.view with recording := g }) hf, hn, hk, ?_⟩
      refine (Table.find_insert hu).trans ?_
      change (s.recordingByKey r.clientId r.clientRecordingId).or _ = some r
      rw [hk]
      simp
    · cases h

end Store
end Telegraph
