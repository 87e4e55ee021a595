import Telegraph.Proofs.Statements
import Telegraph.Views

namespace Telegraph
open Lib Program SqliteStore

/-- The rows of every Recording but the named one are as they were, in every table. -/
structure Elsewhere (named : Option String) (s t : Store) : Prop where
  recordings : t.recordings.rows.filter (fun r => some r.id != named) =
    s.recordings.rows.filter fun r => some r.id != named
  transcripts : t.transcripts.rows.filter (fun q => some q.recordingId != named) =
    s.transcripts.rows.filter fun q => some q.recordingId != named
  transcriptionAttempts : t.transcriptionAttempts.rows.filter (fun a => some a.parentId != named) =
    s.transcriptionAttempts.rows.filter fun a => some a.parentId != named
  deliveries : t.deliveries.rows.filter (fun d => some d.recordingId != named) =
    s.deliveries.rows.filter fun d => some d.recordingId != named
  deliveryAttempts : ∀ d ∈ s.deliveries.rows, some d.recordingId ≠ named →
    t.deliveryAttempts.attemptsOf d.id = s.deliveryAttempts.attemptsOf d.id

/-- Finishing attempts leaves the rows of the other parents alone. -/
theorem AttemptTable.filter_finish {δ : Type} {table : AttemptTable δ} {p : Attempt δ → Bool}
    {t : Int} {status : AttemptStatus} {retryable : Bool} {detail : Attempt δ → Option δ}
    {message : Option String} (key : String → Bool)
    (hp : ∀ a ∈ table.rows, p a = true → key a.parentId = false) :
    (table.finish p t status retryable detail message).rows.filter (fun a => key a.parentId) =
      table.rows.filter fun a => key a.parentId := by
  unfold AttemptTable.finish
  exact Table.filter_update_outside _ (fun _ => rfl) hp

namespace Store
variable {named : Option String} {s t u : Store}

theorem elsewhere_refl (s : Store) : Elsewhere named s s :=
  ⟨rfl, rfl, rfl, rfl, fun _ _ _ => rfl⟩

theorem elsewhere_trans (h : Elsewhere named s t) (k : Elsewhere named t u) : Elsewhere named s u := by
  refine ⟨k.recordings.trans h.recordings, k.transcripts.trans h.transcripts,
    k.transcriptionAttempts.trans h.transcriptionAttempts, k.deliveries.trans h.deliveries, ?_⟩
  intro d hd hx
  -- The Delivery is still there after the first part.
  have hkept : d ∈ t.deliveries.rows.filter fun d => some d.recordingId != named := by
    rw [h.deliveries]
    exact List.mem_filter.mpr ⟨hd, by simpa using hx⟩
  exact (k.deliveryAttempts d (List.mem_filter.mp hkept).1 hx).trans (h.deliveryAttempts d hd hx)

section Updates

theorem elsewhere_updateRecordings {p : RecordingRow → Bool} {f : RecordingRow → RecordingRow}
    {h : Table.KeepsKeys RecordingRow.clash f} (hf : ∀ r, (f r).id = r.id)
    (hp : ∀ r, p r = true → some r.id = named) : Elsewhere named s (s.updateRecordings p f h) := by
  refine ⟨?_, rfl, rfl, rfl, fun _ _ _ => rfl⟩
  refine Table.filter_update_outside h ?_ ?_
  · intro r
    rw [hf]
  · intro r _ hr
    simp [hp r hr]

theorem elsewhere_updateDeliveries {p : DeliveryRow → Bool} {f : DeliveryRow → DeliveryRow}
    {h : Table.KeepsKeys DeliveryRow.clash f} (hf : ∀ d, (f d).recordingId = d.recordingId)
    (hp : ∀ d ∈ s.deliveries.rows, p d = true → some d.recordingId = named) :
    Elsewhere named s (s.updateDeliveries p f h) := by
  refine ⟨rfl, rfl, rfl, ?_, fun _ _ _ => rfl⟩
  refine Table.filter_update_outside h ?_ ?_
  · intro d
    rw [hf]
  · intro d hd hpd
    simp [hp d hd hpd]

theorem elsewhere_finishTranscriptions {code message : Option String} {x : String}
    {t : Int} {status : AttemptStatus} {retryable : Bool}
    (hp : ∀ b ∈ s.transcriptionAttempts.rows, b.id = x → some b.parentId = named) :
    Elsewhere named s
      (s.finishTranscriptions (·.id == x) t status retryable (fun _ => code) message) := by
  refine ⟨rfl, rfl, ?_, rfl, fun _ _ _ => rfl⟩
  refine AttemptTable.filter_finish (fun parent => some parent != named) ?_
  intro b hb hx
  simp [hp b hb (by simpa using hx)]

theorem elsewhere_finishDeliveries {message : Option String} {code : Option Int} {x : String}
    {t : Int} {status : AttemptStatus} {retryable : Bool}
    (hp : ∀ b ∈ s.deliveryAttempts.rows, b.id = x →
      ∀ d ∈ s.deliveries.rows, d.id = b.parentId → some d.recordingId = named) :
    Elsewhere named s
      (s.finishDeliveries (·.id == x) t status retryable (fun _ => code) message) := by
  refine ⟨rfl, rfl, rfl, rfl, ?_⟩
  intro d hd hne
  refine AttemptTable.filter_finish (fun parent => parent == d.id) ?_
  intro b hb hx
  rw [beq_eq_false_iff_ne]
  exact fun he => hne (hp b hb (by simpa using hx) d hd he.symm)

end Updates

section Inserts

theorem elsewhere_insertRecording {r : RecordingRow} {n : Nat} (hr : some r.id = named)
    (h : s.insertRecording r = .ok (t, n)) : Elsewhere named s t ∧ t.auditEvents = s.auditEvents := by
  unfold insertRecording at h
  split at h
  · cases h
    exact ⟨elsewhere_refl s, rfl⟩
  · split at h
    · next grown hi =>
      cases h
      exact ⟨⟨Table.filter_insert hi (by simp [hr]), rfl, rfl, rfl, fun _ _ _ => rfl⟩, rfl⟩
    · cases h

theorem elsewhere_insertTranscript {new : Transcript} (hn : some new.recordingId = named)
    (h : s.insertTranscript new = .ok t) : Elsewhere named s t ∧ t.auditEvents = s.auditEvents := by
  obtain ⟨grown, hg, -, rfl⟩ := checked_ok h
  exact ⟨⟨rfl, Table.filter_insert hg (by simp [hn]), rfl, rfl, fun _ _ _ => rfl⟩, rfl⟩

theorem elsewhere_insertDelivery {row : DeliveryRow} (hn : some row.recordingId = named)
    (h : s.insertDelivery row = .ok t) : Elsewhere named s t ∧ t.auditEvents = s.auditEvents := by
  obtain ⟨grown, hg, -, rfl⟩ := checked_ok h
  exact ⟨⟨rfl, rfl, rfl, Table.filter_insert hg (by simp [hn]), fun _ _ _ => rfl⟩, rfl⟩

theorem elsewhere_insertTranscriptionAttempt {a : TranscriptionAttempt}
    (ha : some a.parentId = named) (h : s.insertTranscriptionAttempt a = .ok t) :
    Elsewhere named s t ∧ t.auditEvents = s.auditEvents := by
  obtain ⟨grown, hg, -, rfl⟩ := checked_ok h
  exact ⟨⟨rfl, rfl, Table.filter_insert hg (by simp [ha]), rfl, fun _ _ _ => rfl⟩, rfl⟩

theorem elsewhere_insertDeliveryAttempt {a : DeliveryAttempt}
    (ha : ∀ d ∈ s.deliveries.rows, d.id = a.parentId → some d.recordingId = named)
    (h : s.insertDeliveryAttempt a = .ok t) :
    Elsewhere named s t ∧ t.auditEvents = s.auditEvents := by
  obtain ⟨grown, hg, -, rfl⟩ := checked_ok h
  refine ⟨⟨rfl, rfl, rfl, rfl, fun d hd hne => ?_⟩, rfl⟩
  refine Table.filter_insert hg ?_
  rw [beq_eq_false_iff_ne]
  exact fun he => hne (ha d hd he.symm)

theorem elsewhere_insertAuditEvent {e : AuditEvent} (h : s.insertAuditEvent e = .ok t) :
    Elsewhere named s t ∧ t.auditEvents.rows = s.auditEvents.rows ++ [e] := by
  obtain ⟨grown, hg, -, rfl⟩ := checked_ok h
  exact ⟨⟨rfl, rfl, rfl, rfl, fun _ _ _ => rfl⟩, (Table.insert_some hg).1⟩

end Inserts
end Store
end Telegraph
