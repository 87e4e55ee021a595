import Telegraph.Lib.Reading
import Telegraph.Proofs.Identity
import Telegraph.Proofs.SingleTransactions
import Telegraph.Proofs.WorkQueue

namespace Telegraph
open Lib Program SqliteStore

/-- Where a Recording waits for the Operator. -/
def RecordingStatus.Parked (status : RecordingStatus) : Prop :=
  status = .backlogged ∨ status = .transcriptionFailed ∨ status = .deliveryFailed

/-- A status no worker's guarded transition leads from. -/
theorem RecordingStatus.unparked {next : RecordingStatus}
    (hn : next ∈ [.routing, .backlogged, .transcriptionFailed, .delivered, .deliveryFailed])
    (status : RecordingStatus) (h : status.canTransitionTo next = true) : ¬ status.Parked := by
  simp only [List.mem_cons, List.not_mem_nil, or_false] at hn
  rintro (rfl | rfl | rfl) <;> rcases hn with rfl | rfl | rfl | rfl | rfl <;> cases h

/-- The Recording as its upload wrote it. -/
def Recording.asUploaded (r : Recording) : Recording :=
  { r with
    status := .received
    selectedSinkName := none
    latestError := none
    updatedAt := r.createdAt }

namespace RecordingRow

def asUploaded (r : RecordingRow) : RecordingRow := ⟨r.toRecording.asUploaded, none⟩

theorem id_of_asUploaded {q r : RecordingRow} (h : q.asUploaded = r.asUploaded) : q.id = r.id := by
  have hid := congrArg (fun r : RecordingRow => r.id) h
  exact hid

end RecordingRow

theorem Store.insertTranscript_frame {s t : Store} {new : Transcript} (h : s.insertTranscript new = .ok t) :
    t.recordings = s.recordings ∧ t.auditEvents = s.auditEvents := by
  obtain ⟨_, -, -, rfl⟩ := Store.checked_ok h
  exact ⟨rfl, rfl⟩

namespace SqliteStore

/-- What the statements of the workers do to the Recordings, the Transcripts and the audit
log, but for the `INSERT` of a Transcript: the columns of a Recording change, and a status
that is not parked changes along the diagram. -/
structure Permits (R : Store → Store → Prop) : Prop where
  elsewhere : ∀ {s t : Store}, t.recordings = s.recordings → t.transcripts = s.transcripts →
    t.auditEvents = s.auditEvents → R s t
  columns : ∀ {s : Store} {p : RecordingRow → Bool} {f : RecordingRow → RecordingRow}
    {h : Table.KeepsKeys RecordingRow.clash f}, (∀ r, (f r).asUploaded = r.asUploaded) →
    (∀ r, (f r).status = r.status) → R s (s.updateRecordings p f h)
  moves : ∀ {s : Store} {p : RecordingRow → Bool} {next : RecordingStatus} {t : Int},
    (∀ x r, s.recording x = some r → p r = true →
      r.status.canTransitionTo next = true ∧ ¬ r.status.Parked) → R s (s.setStatus p next t)

variable {R : Store → Store → Prop} {x y a code message : String} {t now : Int} {next : RecordingStatus}

section Helpers

theorem Permits.update (h : Permits R) {p : Store → RecordingRow → Bool}
    {f : RecordingRow → RecordingRow} {hk : Table.KeepsKeys RecordingRow.clash f} {rows : Store → Nat}
    (hu : ∀ r, (f r).asUploaded = r.asUploaded) (hs : ∀ r, (f r).status = r.status) :
    (modify (fun s => s.updateRecordings (p s) f hk) rows : Query Nat).Always R :=
  always_modify fun _ => h.columns hu hs

/-- A guarded transition that starts from no parked status. -/
theorem Permits.transition_within (h : Permits R) {c : Connection Store}
    {post : Unit → Connection Store → Prop}
    (hp : ∀ r, c.view.recording x = some r → r.status.canTransitionTo next = true → ¬ r.status.Parked)
    (hpost : ∀ k, post () k) : (guardedTransition x next t).Within R c post := by
  change (Program.bind (require ((c.view.recording x).map (·.status)) _) _).Within _ _ _
  refine within_require fun status hs => ?_
  obtain ⟨r, hr, rfl⟩ := Option.map_eq_some_iff.mp hs
  split
  · next hcan =>
    refine within_modify (h.moves fun y q hq hpq => ?_) (hpost _)
    obtain rfl : y = x := (Store.recording_id hq).symm.trans (by simpa using hpq)
    obtain rfl : q = r := Option.some.inj (hq.symm.trans hr)
    exact ⟨hcan, hp q hr hcan⟩
  · trivial

theorem Permits.transition (h : Permits R)
    (hn : next ∈ [.routing, .backlogged, .transcriptionFailed, .delivered, .deliveryFailed]) :
    (guardedTransition x next t).Always R :=
  fun _ => h.transition_within (fun _ _ => RecordingStatus.unparked hn _) fun _ => trivial

theorem Permits.setRecordingError (h : Permits R) : (setRecordingError x t message).Always R :=
  always_bind (h.update (fun _ => rfl) fun _ => rfl) fun _ => always_done

theorem Permits.finishTranscriptionAttempt (h : Permits R) {status : AttemptStatus} {retryable : Bool}
    {code message : Option String} :
    (finishTranscriptionAttempt a t status retryable code message).Always R :=
  always_bind (always_modify fun _ => h.elsewhere rfl rfl rfl) fun _ => always_done

theorem Permits.finishDeliveryAttempt (h : Permits R) {status : AttemptStatus} {retryable : Bool}
    {code : Option Int} {message : Option String} :
    (finishDeliveryAttempt a t status retryable code message).Always R :=
  always_bind (always_modify fun _ => h.elsewhere rfl rfl rfl) fun _ => always_done

theorem Permits.updateDeliveries (h : Permits R) {p : DeliveryRow → Bool} {f : DeliveryRow → DeliveryRow}
    {hk : Table.KeepsKeys DeliveryRow.clash f} {rows : Store → Nat} :
    (modify (·.updateDeliveries p f hk) rows : Query Nat).Always R :=
  always_modify fun _ => h.elsewhere rfl rfl rfl

theorem Permits.insertDelivery (h : Permits R) {new : NewDelivery} : (insertDelivery new).Always R := by
  refine always_bind (always_attempt fun s t ht => ?_) fun _ =>
    always_bind (h.update (fun _ => rfl) fun _ => rfl) fun _ => always_done
  obtain ⟨_, -, -, rfl⟩ := Store.checked_ok ht
  exact h.elsewhere rfl rfl rfl

theorem recordingIdForDelivery_reads : (recordingIdForDelivery x).Reads :=
  reads_query.bind fun _ => reads_require

theorem currentStatus_reads : (currentStatus x).Reads := reads_query.bind fun _ => reads_require

theorem retryAnchor_always : (retryAnchor x).Always R := by
  refine always_bind always_query fun _ => always_bind always_require fun row => ?_
  split
  · exact always_done
  · exact always_bind always_query fun _ => always_require

theorem claimAttempt_always {δ : Type} {attempts : Store → AttemptTable δ}
    {insert : Store → Attempt δ → Except StorageError Store} (h : ∀ s t b, insert s b = .ok t → R s t) :
    (claimAttempt attempts insert a x now).Always R := by
  refine always_bind always_query fun inFlight => ?_
  split
  · exact always_done
  · exact always_bind always_query fun number =>
      always_bind (always_attempt fun s t => h s t _) fun _ => always_done

end Helpers

section Workers

/-- Only a received Recording is claimed, though a failed one could go the same way. -/
theorem Permits.claimReceivedTx (h : Permits R) : (claimReceivedTx now).Always R := by
  intro c
  refine within_of_always always_begin fun _ k => ?_
  apply within_query
  cases ho : k.view.oldestWithStatus .received with
  | none => trivial
  | some x =>
    refine within_bind (h.transition_within (fun r hr _ => ?_) fun _ => trivial)
    obtain ⟨q, hq, hst⟩ := Store.oldestWithStatus_some ho
    obtain rfl : q = r := Option.some.inj (hq.symm.trans hr)
    simp [RecordingStatus.Parked, hst]

theorem Permits.claimReceivedForTranscription (h : Permits R) :
    (claimReceivedForTranscription now).Always R := by
  refine always_bind h.claimReceivedTx fun found => Reads.always ?_
  cases found with
  | none => trivial
  | some x => exact requireRecording_reads.bind fun _ => trivial

theorem Permits.startTranscriptionAttempt (h : Permits R) : (startTranscriptionAttempt a x now).Always R := by
  refine always_bind always_begin fun _ =>
    always_bind (claimAttempt_always fun s t b ht => ?_) fun number => ?_
  · obtain ⟨_, -, -, rfl⟩ := Store.checked_ok ht
    exact h.elsewhere rfl rfl rfl
  · split
    · exact always_bind always_drop fun _ => always_done
    · exact always_bind retryAnchor_always fun _ => always_bind always_commit fun _ => always_done

theorem Permits.succeedTranscriptionTx (h : Permits R) {new : NewTranscript}
    (hi : ∀ s t, s.insertTranscript new = .ok t → R s t) :
    (succeedTranscriptionTx a t new).Always R :=
  always_bind always_begin fun _ => always_bind h.finishTranscriptionAttempt fun _ =>
    always_bind (always_attempt hi) fun _ => always_bind (h.transition (by simp)) fun _ => always_commit

theorem Permits.succeedTranscription (h : Permits R) {new : NewTranscript}
    (hi : ∀ s t, s.insertTranscript new = .ok t → R s t) : (succeedTranscription a t new).Always R :=
  always_bind (h.succeedTranscriptionTx hi) fun _ => requireTranscript_reads.always

theorem Permits.retryTranscription (h : Permits R) : (retryTranscription a x t code message).Always R :=
  always_bind always_begin fun _ => always_bind h.finishTranscriptionAttempt fun _ =>
    always_bind h.setRecordingError fun _ => always_commit

theorem Permits.failTranscriptionTx (h : Permits R) : (failTranscriptionTx a x t code message).Always R :=
  always_bind always_begin fun _ => always_bind h.finishTranscriptionAttempt fun _ =>
    always_bind h.setRecordingError fun _ => always_bind (h.transition (by simp)) fun _ => always_commit

theorem Permits.failTranscription (h : Permits R) : (failTranscription a x t code message).Always R :=
  always_bind h.failTranscriptionTx fun _ => requireRecording_reads.always

theorem Permits.markBackloggedTx (h : Permits R) : (markBackloggedTx x t).Always R :=
  always_bind always_begin fun _ => always_bind (h.transition (by simp)) fun _ => always_commit

theorem Permits.markBacklogged (h : Permits R) : (markBacklogged x t).Always R :=
  always_bind h.markBackloggedTx fun _ => requireRecording_reads.always

/-- The claim of a route is conditional on the status. -/
theorem Permits.routeToSinkTx (h : Permits R) {new : NewDelivery} : (routeToSinkTx new).Always R := by
  refine always_bind always_begin fun _ => always_bind (always_modify fun s => ?_) fun n => ?_
  · refine h.moves fun y r _ hp => ?_
    simp only [Bool.and_eq_true, beq_iff_eq] at hp
    simp [RecordingStatus.Parked, hp.2, RecordingStatus.canTransitionTo]
  · split
    · exact always_bind always_drop fun _ => always_done
    · exact always_bind h.insertDelivery fun _ => always_bind always_commit fun _ => always_done

theorem Permits.routeToSink (h : Permits R) {new : NewDelivery} : (routeToSink new).Always R := by
  refine always_bind h.routeToSinkTx fun found => Reads.always ?_
  cases found with
  | true => exact requireDelivery_reads.bind fun _ => trivial
  | false => trivial

theorem Permits.startDeliveryAttempt (h : Permits R) : (startDeliveryAttempt a x now).Always R := by
  refine always_bind always_begin fun _ =>
    always_bind (claimAttempt_always fun s t b ht => ?_) fun number => ?_
  · obtain ⟨_, -, -, rfl⟩ := Store.checked_ok ht
    exact h.elsewhere rfl rfl rfl
  · split
    · exact always_bind always_drop fun _ => always_done
    · exact always_bind always_commit fun _ => always_done

theorem Permits.succeedDeliveryTx (h : Permits R) {httpStatus : Option Int} :
    (succeedDeliveryTx a x t httpStatus).Always R :=
  always_bind always_begin fun _ => always_bind recordingIdForDelivery_reads.always fun _ =>
    always_bind h.finishDeliveryAttempt fun _ => always_bind h.updateDeliveries fun _ =>
      always_bind (h.transition (by simp)) fun _ => always_commit

theorem Permits.succeedDelivery (h : Permits R) {httpStatus : Option Int} :
    (succeedDelivery a x t httpStatus).Always R :=
  always_bind h.succeedDeliveryTx fun _ => requireDelivery_reads.always

theorem Permits.retryDelivery (h : Permits R) {httpStatus : Option Int} :
    (retryDelivery a x t httpStatus message).Always R :=
  always_bind always_begin fun _ => always_bind recordingIdForDelivery_reads.always fun _ =>
    always_bind h.finishDeliveryAttempt fun _ => always_bind h.updateDeliveries fun _ =>
      always_bind h.setRecordingError fun _ => always_commit

theorem Permits.failDeliveryTx (h : Permits R) {httpStatus : Option Int} :
    (failDeliveryTx a x t httpStatus message).Always R :=
  always_bind always_begin fun _ => always_bind recordingIdForDelivery_reads.always fun _ =>
    always_bind h.finishDeliveryAttempt fun _ => always_bind h.updateDeliveries fun _ =>
      always_bind h.setRecordingError fun _ =>
        always_bind (h.transition (by simp)) fun _ => always_commit

theorem Permits.failDelivery (h : Permits R) {httpStatus : Option Int} :
    (failDelivery a x t httpStatus message).Always R :=
  always_bind h.failDeliveryTx fun _ => requireDelivery_reads.always

end Workers

/-- One walk over the methods of the workers, for every such relation. -/
theorem Permits.apply (h : Permits R) (hi : ∀ {s t new}, Store.insertTranscript s new = .ok t → R s t)
    (refl : ∀ s, R s s) (trans : ∀ {s t u}, R s t → R t u → R s u)
    {op : Operation} (hop : op.ByWorker) (s : Store) : R s (op.apply s) := by
  have run : ∀ {α : Type} {q : Query α}, q.Always R → R s (q.run s).1 :=
    fun hq => hq.run refl trans s
  cases op with
  | claimReceivedForTranscription now => exact run h.claimReceivedForTranscription
  | startTranscriptionAttempt a x now => exact run h.startTranscriptionAttempt
  | succeedTranscription a t new => exact run (h.succeedTranscription fun _ _ => hi)
  | retryTranscription a x t code message => exact run h.retryTranscription
  | failTranscription a x t code message => exact run h.failTranscription
  | markBacklogged x t => exact run h.markBacklogged
  | routeToSink new => exact run h.routeToSink
  | startDeliveryAttempt a x now => exact run h.startDeliveryAttempt
  | succeedDelivery a x t code => exact run h.succeedDelivery
  | retryDelivery a x t code message => exact run h.retryDelivery
  | failDelivery a x t code message => exact run h.failDelivery
  | _ => exact hop.elim

theorem Permits.foldl (h : Permits R) (hi : ∀ {s t new}, Store.insertTranscript s new = .ok t → R s t)
    (refl : ∀ s, R s s) (trans : ∀ {s t u}, R s t → R t u → R s u) {ops : List Operation}
    (hops : ∀ op ∈ ops, op.ByWorker) (s : Store) : R s (ops.foldl Operation.apply s) :=
  List.foldlRecOn ops _ (refl s) fun t ht op hop => trans ht (h.apply hi refl trans (hops op hop) t)

section Requests

/-- What looks only at the Transcripts and at the columns that the uploads wrote. -/
structure Overlooks (R : Store → Store → Prop) : Prop where
  elsewhere : ∀ {s t : Store}, t.recordings = s.recordings → t.transcripts = s.transcripts → R s t
  columns : ∀ {s : Store} {p : RecordingRow → Bool} {f : RecordingRow → RecordingRow}
    {h : Table.KeepsKeys RecordingRow.clash f}, (∀ r, (f r).asUploaded = r.asUploaded) →
    R s (s.updateRecordings p f h)

theorem Overlooks.permits (h : Overlooks R) : Permits R where
  elsewhere hr ht _ := h.elsewhere hr ht
  columns hu _ := h.columns hu
  moves _ := h.columns fun _ => rfl

theorem Overlooks.update (h : Overlooks R) {p : Store → RecordingRow → Bool}
    {f : RecordingRow → RecordingRow} {hk : Table.KeepsKeys RecordingRow.clash f} {rows : Store → Nat}
    (hu : ∀ r, (f r).asUploaded = r.asUploaded) :
    (modify (fun s => s.updateRecordings (p s) f hk) rows : Query Nat).Always R :=
  always_modify fun _ => h.columns hu

theorem Overlooks.guardedTransition (h : Overlooks R) : (guardedTransition x next t).Always R := by
  refine always_bind always_query fun _ => always_bind always_require fun _ => ?_
  split
  · exact always_bind (h.update fun _ => rfl) fun _ => always_done
  · exact always_fail

theorem Overlooks.clearRecordingError (h : Overlooks R) : (clearRecordingError x).Always R :=
  always_bind (h.update fun _ => rfl) fun _ => always_done

theorem Overlooks.insertAuditEvent (h : Overlooks R) {e : AuditEvent} : (insertAuditEvent e).Always R := by
  refine always_attempt fun s t ht => ?_
  obtain ⟨_, -, -, rfl⟩ := Store.checked_ok ht
  exact h.elsewhere rfl rfl

theorem Overlooks.manualRouteTx (h : Overlooks R) {input : ManualRoute} :
    (manualRouteTx input).Always R := by
  refine always_bind always_begin fun _ => always_bind currentStatus_reads.always fun status => ?_
  split
  · exact always_fail
  · exact always_bind h.permits.insertDelivery fun _ => always_bind h.guardedTransition fun _ =>
      always_bind h.insertAuditEvent fun _ => always_commit

theorem Overlooks.manualRoute (h : Overlooks R) {input : ManualRoute} : (manualRoute input).Always R :=
  always_bind h.manualRouteTx fun _ => requireDelivery_reads.always

theorem Overlooks.manualRetryTranscription (h : Overlooks R) {input : ManualRetryTranscription} :
    (manualRetryTranscription input).Always R := by
  refine always_bind always_begin fun _ => always_bind currentStatus_reads.always fun status => ?_
  split
  · exact always_fail
  · exact always_bind h.guardedTransition fun _ => always_bind h.clearRecordingError fun _ =>
      always_bind (h.update fun _ => rfl) fun _ => always_bind h.insertAuditEvent fun _ =>
        always_bind always_commit fun _ => requireRecording_reads.always

theorem Overlooks.manualRetryDelivery (h : Overlooks R) {input : ManualRetryDelivery} :
    (manualRetryDelivery input).Always R := by
  refine always_bind always_begin fun _ => always_bind currentStatus_reads.always fun status => ?_
  split
  · exact always_fail
  · exact always_bind always_query fun _ => always_bind always_require fun _ =>
      always_bind h.permits.updateDeliveries fun _ => always_bind h.guardedTransition fun _ =>
        always_bind h.clearRecordingError fun _ => always_bind h.insertAuditEvent fun _ =>
          always_bind always_commit fun _ => requireDelivery_reads.always

theorem Overlooks.recoverAbandonedAttempts (h : Overlooks R) : (recoverAbandonedAttempts now).Always R :=
  always_bind always_begin fun _ => always_bind (h.update fun _ => rfl) fun _ =>
    always_bind (always_modify fun _ => h.elsewhere rfl rfl) fun _ =>
      always_bind (h.update fun _ => rfl) fun _ => always_bind (h.update fun _ => rfl) fun _ =>
        always_bind (always_modify fun _ => h.elsewhere rfl rfl) fun _ =>
          always_bind always_commit fun _ => always_done

end Requests

end SqliteStore
end Telegraph
