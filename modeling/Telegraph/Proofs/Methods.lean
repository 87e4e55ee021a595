import Telegraph.Lib.Contract
import Telegraph.SqliteStore
import Telegraph.Views

namespace Telegraph

/-- A change that touches only the surfaced error and the update time. -/
def Annotates (f : RecordingRow → RecordingRow) : Prop :=
  ∀ r, ∃ e u, f r = { r with latestError := e, updatedAt := u }

theorem annotates_id : Annotates id := fun r => ⟨r.latestError, r.updatedAt, rfl⟩

theorem Annotates.id_eq {g : RecordingRow → RecordingRow} (h : Annotates g) (r : RecordingRow) :
    (g r).id = r.id := by
  obtain ⟨_, _, he⟩ := h r
  rw [he]

theorem Annotates.status_eq {g : RecordingRow → RecordingRow} (h : Annotates g) (r : RecordingRow) :
    (g r).status = r.status := by
  obtain ⟨_, _, he⟩ := h r
  rw [he]

/-- The row the finishing `UPDATE … WHERE id = ?` leaves. -/
def finishing {δ : Type} (attemptId : String) (finishedAt : Int) (status : AttemptStatus)
    (retryable : Bool) (detail : Option δ) (errorMessage : Option String) (a : Attempt δ) :
    Attempt δ :=
  if a.id == attemptId then a.finished finishedAt status retryable detail errorMessage else a

namespace SqliteStore
open Lib Program

section Helpers
variable {α : Type} {s w : Store} {f : Unit → Query α}
variable {ok : α → Connection Store → Prop} {bad : StorageError → Connection Store → Prop}

theorem ensures_guardedTransition {x : String} {next : RecordingStatus} {t : Int}
    (hn : w.recording x = none → bad (.recordingNotFound x) ⟨s, some w⟩)
    (hc : ∀ r, w.recording x = some r → r.status.canTransitionTo next = false →
      bad (.invalidTransition r.status next) ⟨s, some w⟩)
    (hs : ∀ r w', w.recording x = some r → r.status.canTransitionTo next = true →
      w'.view = w.view.withRecording (r.moved next t) →
      (f ()).Ensures ⟨s, some w'⟩ ok bad) :
    ((guardedTransition x next t).bind f).Ensures ⟨s, some w⟩ ok bad := by
  apply ensures_then
  unfold guardedTransition
  apply ensures_query
  apply ensures_require
  · intro h
    exact hn (by simpa using h)
  · intro current h
    obtain ⟨r, hr, rfl⟩ := Option.map_eq_some_iff.mp h
    cases hcan : r.status.canTransitionTo next with
    | false => exact hc r hr hcan
    | true => exact hs r _ hr hcan (Store.view_updateRecordings hr fun _ => rfl)

theorem ensures_setRecordingError {x message : String} {t : Int}
    (h : ∀ w' g, Annotates g → w'.view = w.view.mapRecordings g →
      (f ()).Ensures ⟨s, some w'⟩ ok bad) :
    ((setRecordingError x t message).bind f).Ensures ⟨s, some w⟩ ok bad := by
  apply ensures_then
  apply ensures_modify
  refine h _ _ ?_ (Store.view_mapRecordings fun _ => rfl)
  intro r
  dsimp only
  split
  · exact ⟨_, _, rfl⟩
  · exact ⟨r.latestError, r.updatedAt, rfl⟩

theorem ensures_setLatestError {x : String} {message : Option String} {rows : Store → Nat}
    {f : Nat → Query α}
    (h : ∀ w' g, Annotates g → w'.view = w.view.mapRecordings g →
      (f (rows w)).Ensures ⟨s, some w'⟩ ok bad) :
    ((Program.modify (·.setLatestError (·.id == x) message) rows).bind f).Ensures
      ⟨s, some w⟩ ok bad := by
  apply ensures_modify
  refine h _ _ ?_ (Store.view_mapRecordings fun _ => rfl)
  intro r
  dsimp only
  split
  · exact ⟨_, r.updatedAt, rfl⟩
  · exact ⟨r.latestError, r.updatedAt, rfl⟩

theorem ensures_finishTranscriptionAttempt {a : String} {t : Int} {status : AttemptStatus}
    {retryable : Bool} {code message : Option String}
    (h : ∀ w', w'.view =
        w.view.mapTranscriptionAttempts (finishing a t status retryable code message) →
      (f ()).Ensures ⟨s, some w'⟩ ok bad) :
    ((finishTranscriptionAttempt a t status retryable code message).bind f).Ensures
      ⟨s, some w⟩ ok bad := by
  apply ensures_then
  apply ensures_modify
  exact h _ Store.view_finishTranscriptions

theorem ensures_finishDeliveryAttempt {a : String} {t : Int} {status : AttemptStatus}
    {retryable : Bool} {code : Option Int} {message : Option String}
    (h : ∀ w', w'.view = w.view.mapDeliveryAttempts (finishing a t status retryable code message) →
      (f ()).Ensures ⟨s, some w'⟩ ok bad) :
    ((finishDeliveryAttempt a t status retryable code message).bind f).Ensures
      ⟨s, some w⟩ ok bad := by
  apply ensures_then
  apply ensures_modify
  exact h _ Store.view_finishDeliveries

theorem ensures_recordingIdForDelivery {x : String} {f : String → Query α}
    (hn : w.delivery x = none → bad (.deliveryNotFound x) ⟨s, some w⟩)
    (hs : ∀ d, w.delivery x = some d → (f d.recordingId).Ensures ⟨s, some w⟩ ok bad) :
    ((recordingIdForDelivery x).bind f).Ensures ⟨s, some w⟩ ok bad := by
  apply ensures_then
  apply ensures_query
  apply ensures_require_last
  · intro h
    exact hn (by simpa using h)
  · intro y h
    obtain ⟨d, hd, rfl⟩ := Option.map_eq_some_iff.mp h
    exact hs d hd

theorem ensures_currentStatus {x : String} {f : RecordingStatus → Query α}
    (hn : w.recording x = none → bad (.recordingNotFound x) ⟨s, some w⟩)
    (hs : ∀ r, w.recording x = some r → (f r.status).Ensures ⟨s, some w⟩ ok bad) :
    ((currentStatus x).bind f).Ensures ⟨s, some w⟩ ok bad := by
  apply ensures_then
  apply ensures_query
  apply ensures_require_last
  · intro h
    exact hn (by simpa using h)
  · intro y h
    obtain ⟨r, hr, rfl⟩ := Option.map_eq_some_iff.mp h
    exact hs r hr

theorem ensures_insertTranscript {t : NewTranscript}
    (he : ∀ e, (w.transcript t.recordingId).isSome = true ∨ w.recording t.recordingId = none →
      bad e ⟨s, some w⟩)
    (hs : ∀ w', w'.view = w.view.withTranscript t → w.transcript t.recordingId = none →
      (w.recording t.recordingId).isSome = true → (f ()).Ensures ⟨s, some w'⟩ ok bad) :
    ((insertTranscript t).bind f).Ensures ⟨s, some w⟩ ok bad := by
  apply ensures_attempt
  · intro e h
    exact he e (Store.insertTranscript_error h)
  · intro w' h
    obtain ⟨hv, hn, hr⟩ := Store.insertTranscript_ok h
    exact hs w' hv hn hr

theorem ensures_insertDelivery {new : NewDelivery}
    (he : ∀ e, w.insertDelivery (deliveryRow new) = .error e → bad e ⟨s, some w⟩)
    (hs : ∀ r w', w.recording new.recordingId = some r → w.delivery new.id = none →
      w.deliveryFor new.recordingId = none →
      w'.view = (w.view.withDelivery (deliveryRow new)).withRecording
        (r.withSink new.sinkName) →
      (f ()).Ensures ⟨s, some w'⟩ ok bad) :
    ((insertDelivery new).bind f).Ensures ⟨s, some w⟩ ok bad := by
  apply ensures_then
  apply ensures_attempt
  · exact he
  · intro u h
    obtain ⟨hv, hd, hf, hr⟩ := Store.insertDelivery_ok h
    obtain ⟨r, hr⟩ := Option.isSome_iff_exists.mp hr
    have hru : u.recording new.recordingId = some r := (congrFun (congrArg View.recording hv) _).trans hr
    apply ensures_modify
    refine hs r _ hr hd hf ?_
    rw [← hv]
    exact Store.view_updateRecordings hru fun _ => rfl

theorem ensures_insertAuditEvent {e : AuditEvent}
    (he : ∀ e', w.insertAuditEvent e = .error e' → bad e' ⟨s, some w⟩)
    (hs : ∀ w', w'.view = w.view → (f ()).Ensures ⟨s, some w'⟩ ok bad) :
    ((insertAuditEvent e).bind f).Ensures ⟨s, some w⟩ ok bad := by
  apply ensures_attempt
  · exact he
  · intro w' h
    exact hs w' (Store.insertAuditEvent_ok h)

end Helpers

section Readback
variable {s : Store} {bad : StorageError → Connection Store → Prop}

theorem ensures_requireRecording {x : String} {r : RecordingRow}
    {ok : Recording → Connection Store → Prop} (h : s.recording x = some r)
    (hok : ok r.toRecording ⟨s, none⟩) : (requireRecording x).Ensures ⟨s, none⟩ ok bad := by
  apply ensures_read
  rw [h]
  exact hok

theorem ensures_requireDelivery {x : String} {d : DeliveryRow}
    {ok : Delivery → Connection Store → Prop} (h : s.delivery x = some d)
    (hok : ok d.toDelivery ⟨s, none⟩) : (requireDelivery x).Ensures ⟨s, none⟩ ok bad := by
  apply ensures_read
  rw [h]
  exact hok

theorem ensures_requireTranscript {x : String} {t : Transcript}
    {ok : Transcript → Connection Store → Prop} (h : s.transcript x = some t)
    (hok : ok t ⟨s, none⟩) : (requireTranscript x).Ensures ⟨s, none⟩ ok bad := by
  apply ensures_read
  rw [h]
  exact hok

end Readback

section Methods
variable {s : Store}

theorem recording_eq {s' : Store} {v : View} (h : s'.view = v) (x : String) :
    s'.recording x = v.recording x :=
  congrFun (congrArg View.recording h) x

theorem insertRecording_transacts {new : NewRecording} :
    (insertRecording new).Transacts s
      (fun n s' => (n = 0 ∧ s' = s ∧
          (s.recordingByKey new.clientId new.clientRecordingId).isSome = true) ∨
        (n = 1 ∧ s'.view = s.view.withRecording (newRow new) ∧ s.recording new.id = none ∧
          s.recordingByKey new.clientId new.clientRecordingId = none ∧
          s'.recordingByKey new.clientId new.clientRecordingId = some (newRow new)))
      fun _ => True := by
  apply ensures_statement
  · exact fun _ _ => ⟨rfl, trivial⟩
  · intro v n h
    exact ⟨rfl, Store.insertRecording_ok h⟩

theorem createRecording_transacts {new : NewRecording} :
    (createRecording new).Transacts s
      (fun _ s' => s' = s ∨
        (s'.view = s.view.withRecording (newRow new) ∧ s.recording new.id = none))
      fun _ => True := by
  apply insertRecording_transacts.andThen
  rintro n s' (⟨-, rfl, hk⟩ | ⟨-, hv, hn, -, hk⟩)
  · obtain ⟨r, hr⟩ := Option.isSome_iff_exists.mp hk
    apply ensures_read
    rw [hr]
    exact ⟨rfl, Or.inl rfl⟩
  · apply ensures_read
    rw [hk]
    exact ⟨rfl, Or.inr ⟨hv, hn⟩⟩

theorem updateRecordingStatusTx_transacts {x : String} {next : RecordingStatus} {t : Int} :
    (updateRecordingStatusTx x next t).Transacts s
      (fun _ s' => ∃ r, s.recording x = some r ∧ r.status.canTransitionTo next = true ∧
        s'.view = s.view.withRecording (r.moved next t))
      (fun e => (e = .recordingNotFound x ∧ s.recording x = none) ∨
        ∃ r, s.recording x = some r ∧ r.status.canTransitionTo next = false ∧
          e = .invalidTransition r.status next) := by
  apply ensures_begin
  apply ensures_guardedTransition
  · exact fun h => ⟨rfl, Or.inl ⟨rfl, h⟩⟩
  · exact fun r hr hc => ⟨rfl, Or.inr ⟨r, hr, hc, rfl⟩⟩
  intro r w hr hc hv
  apply ensures_commit_last
  exact ⟨rfl, r, hr, hc, hv⟩

theorem storeTranscript_transacts {t : NewTranscript} :
    (storeTranscript t).Transacts s
      (fun _ s' => ∃ r, s.recording t.recordingId = some r ∧ r.status.canTransitionTo .routing ∧
        s.transcript t.recordingId = none ∧
        s'.view = (s.view.withTranscript t).withRecording
          (r.moved .routing t.createdAt))
      fun _ => True := by
  apply ensures_begin
  apply ensures_insertTranscript
  · exact fun _ _ => ⟨rfl, trivial⟩
  intro u hu hn _
  apply ensures_guardedTransition
  · exact fun _ => ⟨rfl, trivial⟩
  · exact fun _ _ _ => ⟨rfl, trivial⟩
  intro r w hr hc hv
  rw [hu] at hv
  apply ensures_commit
  have ht : w.transcript t.recordingId = some t := by
    have := congrFun (congrArg View.transcript hv) t.recordingId
    exact this.trans (Function.update_self ..)
  exact ensures_requireTranscript ht ⟨rfl, r, (recording_eq hu _).symm.trans hr, hc, hn, hv⟩

/-- Selecting a Sink by any of the three paths: one new Delivery, the Sink's name
on the Recording, and the Recording `delivering`. -/
def Selects (s : Store) (new : NewDelivery) (r : RecordingRow) (s' : Store) : Prop :=
  s.recording new.recordingId = some r ∧ s.delivery new.id = none ∧
    s.deliveryFor new.recordingId = none ∧
    s'.view = (s.view.withDelivery (deliveryRow new)).withRecording
      ((r.withSink new.sinkName).moved .delivering new.selectedAt)

theorem Selects.delivery {new : NewDelivery} {r : RecordingRow} {s' : Store}
    (h : Selects s new r s') : s'.delivery new.id = some (deliveryRow new) := by
  have := congrFun (congrArg View.delivery h.2.2.2) new.id
  exact this.trans (Function.update_self ..)

theorem selectSink_transacts {new : NewDelivery} :
    (selectSink new).Transacts s
      (fun _ s' => ∃ r, r.status.canTransitionTo .delivering = true ∧ Selects s new r s')
      fun _ => True := by
  apply ensures_begin
  apply ensures_insertDelivery
  · exact fun _ _ => ⟨rfl, trivial⟩
  intro r u hr hd hf hu
  apply ensures_guardedTransition
  · exact fun _ => ⟨rfl, trivial⟩
  · exact fun _ _ _ => ⟨rfl, trivial⟩
  intro q w hq hc hv
  have hx : r.id = new.recordingId := Store.recording_id hr
  have hqr : q = r.withSink new.sinkName := by
    have := (recording_eq hu new.recordingId).symm.trans hq
    rw [← hx] at this
    exact (Option.some.inj ((View.recording_withRecording _ _).symm.trans this)).symm
  subst hqr
  rw [hu] at hv
  have hsel : Selects s new r w := ⟨hr, hd, hf, hv.trans (View.withRecording_withRecording rfl)⟩
  apply ensures_commit
  exact ensures_requireDelivery hsel.delivery ⟨rfl, r, hc, hsel⟩

/-- A Delivery already stands where the new one would go. -/
def Taken (s : Store) (new : NewDelivery) : Prop :=
  ∃ d ∈ s.deliveries.rows, d.id = new.id ∨ d.recordingId = new.recordingId

theorem insertDelivery_refused {new : NewDelivery} {e : StorageError} {r : RecordingRow}
    (hr : s.recording new.recordingId = some r) (h : s.insertDelivery (deliveryRow new) = .error e) :
    Taken s new ∧ ∃ v, e = .database v := by
  refine ⟨?_, Store.checked_database h⟩
  rcases Store.checked_error h with ⟨d, hd, hc⟩ | hp
  · refine ⟨d, hd, ?_⟩
    simpa [DeliveryRow.clash, deliveryRow] using hc
  · change (s.recording new.recordingId).isSome = false at hp
    simp [hr] at hp

theorem routeToSinkTx_transacts {new : NewDelivery} :
    (routeToSinkTx new).Transacts s
      (fun claimed s' =>
        (claimed = false ∧ s' = s ∧ ∀ r, s.recording new.recordingId = some r → r.status ≠ .routing) ∨
        (claimed = true ∧ ∃ r, r.status = .routing ∧ Selects s new r s'))
      fun e => (∃ r, s.recording new.recordingId = some r ∧ r.status = .routing) ∧ Taken s new ∧
        ∃ v, e = .database v := by
  apply ensures_begin
  apply ensures_modify
  split
  · rename_i hz
    apply ensures_drop
    refine ⟨rfl, Or.inl ⟨rfl, rfl, fun r hr hs => ?_⟩⟩
    have hmem := (Table.find_mem hr).1
    have hz' : s.recordings.rows.filter (fun r => r.id == new.recordingId && r.status == .routing) = [] :=
      List.length_eq_zero_iff.mp (by simpa [Table.count] using hz)
    have := List.filter_eq_nil_iff.mp hz' r hmem
    simp [Store.recording_id hr, hs] at this
  · rename_i hz
    have hne : s.recordings.rows.filter (fun r => r.id == new.recordingId && r.status == .routing) ≠ [] := by
      intro he
      simp [Table.count, he] at hz
    obtain ⟨r, hr⟩ := List.exists_mem_of_ne_nil _ hne
    have hrp := (List.mem_filter.mp hr).2
    have hid : r.id = new.recordingId := by simp at hrp; exact hrp.1
    have hst : r.status = .routing := by simp at hrp; exact hrp.2
    have hrec : s.recording new.recordingId = some r := by
      rw [← hid]
      exact Store.recording_of_mem (List.mem_filter.mp hr).1
    have hview : (s.setStatus (fun r => r.id == new.recordingId && r.status == .routing) .delivering
        new.selectedAt).view =
        s.view.withRecording (r.moved .delivering new.selectedAt) := by
      rw [← Store.view_updateRecordings (f := (·.moved .delivering new.selectedAt))
        (h := fun _ _ => ⟨rfl, rfl⟩) hrec fun _ => rfl]
      have hsame : s.setStatus (fun r => r.id == new.recordingId && r.status == .routing) .delivering
          new.selectedAt = s.updateRecordings (·.id == new.recordingId)
            (·.moved .delivering new.selectedAt) fun _ _ => ⟨rfl, rfl⟩ := by
        unfold Store.setStatus Store.updateRecordings
        congr 1
        apply Table.ext_rows
        apply List.map_congr_left
        intro a ha
        by_cases hax : a.id = new.recordingId
        · have : a = r := by
            have := Store.recording_of_mem ha
            rw [hax, hrec] at this
            exact (Option.some.inj this).symm
          simp [this, hid, hst]
        · simp [hax]
      rw [hsame]
    have hmoved : (s.setStatus (fun r => r.id == new.recordingId && r.status == .routing) .delivering
        new.selectedAt).recording new.recordingId = some (r.moved .delivering new.selectedAt) := by
      have := recording_eq hview new.recordingId
      rw [← hid] at this ⊢
      exact this.trans (View.recording_withRecording _ _)
    apply ensures_insertDelivery
    · exact fun e he => ⟨rfl, ⟨r, hrec, hst⟩, insertDelivery_refused (s := Store.setStatus s _ _ _) hmoved he⟩
    intro q u hq hd hf hu
    apply ensures_commit
    refine ⟨rfl, Or.inr ⟨rfl, r, hst, hrec, ?_, ?_, ?_⟩⟩
    · exact (congrFun (congrArg View.delivery hview) _).symm.trans hd
    · exact (congrFun (congrArg View.deliveryFor hview) _).symm.trans hf
    · obtain rfl := Option.some.inj (hmoved.symm.trans hq)
      rw [hu, hview]
      change ((s.view.withDelivery _).withRecording _).withRecording _ = _
      exact View.withRecording_withRecording rfl

/-- The Delivery a manual route asks for. -/
def manualDelivery (input : ManualRoute) : NewDelivery :=
  ⟨input.deliveryId, input.recordingId, input.sinkName, input.selectedAt, some input.retryDeadlineAt⟩

theorem manualRouteTx_transacts {input : ManualRoute} :
    (manualRouteTx input).Transacts s
      (fun _ s' => ∃ r, r.status = .backlogged ∧ Selects s (manualDelivery input) r s')
      fun e => (s.recording input.recordingId = none ∧ e = .recordingNotFound input.recordingId) ∨
        ∃ r, s.recording input.recordingId = some r ∧
          ((r.status ≠ .backlogged ∧ e = .recordingNotBacklogged input.recordingId r.status) ∨
            (r.status = .backlogged ∧ ∃ v, e = .database v)) := by
  apply ensures_begin
  apply ensures_currentStatus
  · exact fun h => ⟨rfl, Or.inl ⟨h, rfl⟩⟩
  intro r hr
  split
  · rename_i hst
    exact ⟨rfl, Or.inr ⟨r, hr, Or.inl ⟨by simpa using hst, rfl⟩⟩⟩
  rename_i hst
  have hst : r.status = .backlogged := by simpa using hst
  have refused : ∀ e w, (∃ v, e = .database v) →
      (⟨s, w⟩ : Connection Store).committed = s ∧ ((s.recording input.recordingId = none ∧
        e = StorageError.recordingNotFound input.recordingId) ∨
        ∃ r, s.recording input.recordingId = some r ∧
          ((r.status ≠ .backlogged ∧ e = .recordingNotBacklogged input.recordingId r.status) ∨
            (r.status = .backlogged ∧ ∃ v, e = .database v))) :=
    fun e w he => ⟨rfl, Or.inr ⟨r, hr, Or.inr ⟨hst, he⟩⟩⟩
  apply ensures_insertDelivery
  · exact fun e he => refused e _ (Store.checked_database he)
  intro q u hq hd hf hu
  obtain rfl : r = q := Option.some.inj (hr.symm.trans hq)
  have hru : u.recording input.recordingId = some (r.withSink input.sinkName) := by
    have := recording_eq hu input.recordingId
    rw [← Store.recording_id hr] at this ⊢
    exact this.trans (View.recording_withRecording _ _)
  apply ensures_guardedTransition
  · exact fun hn => absurd (hru.symm.trans hn) (by simp)
  · intro q hq hc
    obtain rfl := Option.some.inj (hru.symm.trans hq)
    exact absurd (hc.symm.trans (RecordingStatus.to_delivering.mpr (Or.inr (Or.inl hst))))
      Bool.false_ne_true
  intro q w hq hc hv
  obtain rfl := Option.some.inj (hru.symm.trans hq)
  apply ensures_insertAuditEvent
  · exact fun e he => refused e _ (Store.checked_database he)
  intro w' hw'
  rw [hv, hu] at hw'
  apply ensures_commit_last
  exact ⟨rfl, r, hst, hr, hd, hf, hw'.trans (View.withRecording_withRecording rfl)⟩

theorem manualRoute_transacts {input : ManualRoute} :
    (manualRoute input).Transacts s
      (fun _ s' => ∃ r, r.status = .backlogged ∧ Selects s (manualDelivery input) r s')
      fun _ => True := by
  apply (manualRouteTx_transacts.weaken (fun _ _ => id) fun _ _ => trivial).andThen
  rintro _ s' ⟨r, hst, hsel⟩
  exact ensures_requireDelivery hsel.delivery ⟨rfl, r, hst, hsel⟩

theorem manualRetryTranscription_transacts {input : ManualRetryTranscription} :
    (manualRetryTranscription input).Transacts s
      (fun q s' => q.id = input.recordingId ∧ ∃ r, s.recording input.recordingId = some r ∧
        r.status = .transcriptionFailed ∧ s'.view = s.view.withRecording
          (((r.moved .transcribing input.at_).withError none).withWindow input.at_))
      fun _ => True := by
  apply ensures_begin
  apply ensures_currentStatus
  · exact fun _ => ⟨rfl, trivial⟩
  intro r hr
  split
  · exact ⟨rfl, trivial⟩
  rename_i hst
  have hst : r.status = .transcriptionFailed := by simpa using hst
  apply ensures_guardedTransition
  · exact fun _ => ⟨rfl, trivial⟩
  · exact fun _ _ _ => ⟨rfl, trivial⟩
  intro q u hq _ hu
  obtain rfl : r = q := Option.some.inj (hr.symm.trans hq)
  have hid := Store.recording_id hr
  have hru : u.recording input.recordingId = some (r.moved .transcribing input.at_) := by
    rw [recording_eq hu, ← hid]
    exact View.recording_withRecording _ _
  apply ensures_then
  apply ensures_modify
  have hv := Store.view_updateRecordings (f := (·.withError none)) (h := fun _ _ => ⟨rfl, rfl⟩) hru
    fun _ => rfl
  rw [hu] at hv
  replace hv := hv.trans (View.withRecording_withRecording rfl)
  apply ensures_modify
  have hrv := (recording_eq hv r.id).trans (View.recording_withRecording _ _)
  rw [hid] at hrv
  have hw := Store.view_updateRecordings (f := (·.withWindow input.at_))
    (h := fun _ _ => ⟨rfl, rfl⟩) hrv fun _ => rfl
  rw [hv] at hw
  replace hw := hw.trans (View.withRecording_withRecording rfl)
  apply ensures_insertAuditEvent
  · exact fun _ _ => ⟨rfl, trivial⟩
  intro w' hw'
  replace hw' := hw'.trans hw
  apply ensures_commit
  have hrw := (recording_eq hw' r.id).trans (View.recording_withRecording _ _)
  rw [hid] at hrw
  exact ensures_requireRecording hrw ⟨rfl, hid, r, hr, hst, hw'⟩

theorem delivery_eq {s' : Store} {v : View} (h : s'.view = v) (x : String) :
    s'.delivery x = v.delivery x :=
  congrFun (congrArg View.delivery h) x

theorem manualRetryDelivery_transacts {input : ManualRetryDelivery} :
    (manualRetryDelivery input).Transacts s
      (fun q s' => ∃ r d, q.id = d.id ∧ s.recording input.recordingId = some r ∧
        r.status = .deliveryFailed ∧ s.deliveryFor input.recordingId = some d ∧
        s'.view = (s.view.withDelivery (reopened input d)).withRecording
          ((r.moved .delivering input.at_).withError none))
      fun _ => True := by
  apply ensures_begin
  apply ensures_currentStatus
  · exact fun _ => ⟨rfl, trivial⟩
  intro r hr
  split
  · exact ⟨rfl, trivial⟩
  rename_i hst
  have hst : r.status = .deliveryFailed := by simpa using hst
  have hid := Store.recording_id hr
  apply ensures_query
  apply ensures_require
  · exact fun _ => ⟨rfl, trivial⟩
  intro y hy
  obtain ⟨d, hfor, rfl⟩ := Option.map_eq_some_iff.mp hy
  have hd : s.delivery d.id = some d :=
    s.view_coherent.delivery_iff.mpr (by rw [s.view_coherent.deliveryFor_id hfor]; exact hfor)
  apply ensures_modify
  have hu := Store.view_updateDeliveries (f := reopened input) (h := fun _ _ => ⟨rfl, rfl⟩) hd
    (fun _ => rfl) fun _ => rfl
  apply ensures_guardedTransition
  · exact fun _ => ⟨rfl, trivial⟩
  · exact fun _ _ _ => ⟨rfl, trivial⟩
  intro q w hq _ hw
  obtain rfl : r = q := Option.some.inj (hr.symm.trans ((recording_eq hu _).symm.trans hq))
  rw [hu] at hw
  have hrw := (recording_eq hw r.id).trans (View.recording_withRecording _ _)
  rw [hid] at hrw
  apply ensures_then
  apply ensures_modify
  have hv := Store.view_updateRecordings (f := (·.withError none)) (h := fun _ _ => ⟨rfl, rfl⟩) hrw
    fun _ => rfl
  rw [hw] at hv
  replace hv := hv.trans (View.withRecording_withRecording rfl)
  apply ensures_insertAuditEvent
  · exact fun _ _ => ⟨rfl, trivial⟩
  intro w' hw'
  replace hw' := hw'.trans hv
  apply ensures_commit
  have hdw := (delivery_eq hw' d.id).trans (View.delivery_withDelivery s.view (reopened input d))
  exact ensures_requireDelivery hdw ⟨rfl, r, d, rfl, hr, hst, hfor, hw'⟩

/-- A Delivery and its Recording leave `delivering` together. -/
def Completes (v : View) (x : String) (status : DeliveryStatus) (t : Int) (d : DeliveryRow)
    (r : RecordingRow) (v' : View) : Prop :=
  v.delivery x = some d ∧ v.recording d.recordingId = some r ∧
    r.status.canTransitionTo (recordingStatusOf status) = true ∧
    ∃ e g, Annotates g ∧
      v' = ((v.withDelivery ((d.completed status t).withError e)).mapRecordings g).withRecording
        ((g r).moved (recordingStatusOf status) t)

theorem Completes.delivery {v v' : View} {x : String} {status : DeliveryStatus} {t : Int}
    {d : DeliveryRow} {r : RecordingRow} (h : Completes v x status t d r v') :
    ∃ d', v'.delivery d.id = some d' := by
  obtain ⟨_, _, _, e, g, _, rfl⟩ := h
  exact ⟨_, View.delivery_withDelivery v ((d.completed status t).withError e)⟩

theorem Completes.delivering {v v' : View} {x : String} {status : DeliveryStatus} {t : Int}
    {d : DeliveryRow} {r : RecordingRow} (h : Completes v x status t d r v')
    (hstat : status ≠ .delivering) : r.status = .delivering := by
  obtain ⟨_, _, hcan, _⟩ := h
  cases status with
  | delivering => exact absurd rfl hstat
  | delivered => exact RecordingStatus.to_delivered.mp hcan
  | deliveryFailed => exact RecordingStatus.to_deliveryFailed.mp hcan

/-- The transition that ends the three completing methods. -/
theorem ensures_completing {α : Type} {w : Store} {v : View} {x : String} {status : DeliveryStatus}
    {t : Int} {d : DeliveryRow} {g : RecordingRow → RecordingRow} {e : Option String}
    {f : Unit → Query α} {ok : α → Connection Store → Prop}
    {bad : StorageError → Connection Store → Prop} (hd : v.delivery x = some d) (hg : Annotates g)
    (hw : w.view = (v.withDelivery ((d.completed status t).withError e)).mapRecordings g)
    (hn : v.recording d.recordingId = none → ∀ e, bad e ⟨s, some w⟩)
    (hc : ∀ r, v.recording d.recordingId = some r →
      r.status.canTransitionTo (recordingStatusOf status) = false → ∀ e, bad e ⟨s, some w⟩)
    (hs : ∀ r w', Completes v x status t d r w'.view → (f ()).Ensures ⟨s, some w'⟩ ok bad) :
    ((guardedTransition d.recordingId (recordingStatusOf status) t).bind f).Ensures
      ⟨s, some w⟩ ok bad := by
  have back : ∀ q, w.recording d.recordingId = some q →
      ∃ r, v.recording d.recordingId = some r ∧ q = g r := by
    intro q hq
    obtain ⟨r, hr, rfl⟩ := Option.map_eq_some_iff.mp ((recording_eq hw d.recordingId).symm.trans hq)
    exact ⟨r, hr, rfl⟩
  apply ensures_guardedTransition
  · intro h
    refine hn ?_ _
    exact Option.map_eq_none_iff.mp ((recording_eq hw d.recordingId).symm.trans h)
  · intro q hq hcan
    obtain ⟨r, hr, rfl⟩ := back q hq
    exact hc r hr (by rwa [hg.status_eq] at hcan) _
  · intro q w' hq hcan hw'
    obtain ⟨r, hr, rfl⟩ := back q hq
    rw [hg.status_eq] at hcan
    rw [hw] at hw'
    exact hs r w' ⟨hd, hr, hcan, e, g, hg, hw'⟩

theorem completeDelivery_transacts {x : String} {status : DeliveryStatus} {t : Int}
    {error : Option String} :
    (completeDelivery x status t error).Transacts s
      (fun _ s' => ∃ d r, Completes s.view x status t d r s'.view) fun _ => True := by
  apply ensures_begin
  apply ensures_recordingIdForDelivery
  · exact fun _ => ⟨rfl, trivial⟩
  intro d hd
  have hid : d.id = x := s.view_coherent.delivery_id hd
  apply ensures_modify
  have hu := Store.view_updateDeliveries (f := fun d => (d.completed status t).withError error)
    (h := fun _ _ => ⟨rfl, rfl⟩) hd (fun _ => rfl) fun _ => rfl
  have finish : ∀ (w : Store) (g : RecordingRow → RecordingRow), Annotates g →
      w.view = (s.view.withDelivery ((d.completed status t).withError error)).mapRecordings g →
      Ensures ((guardedTransition d.recordingId (recordingStatusOf status) t).bind fun _ =>
          commitTx.bind fun _ => requireDelivery x) ⟨s, some w⟩
        (fun _ c => c.working = none ∧ ∃ d r, Completes s.view x status t d r c.committed.view)
        (fun _ c => c.committed = s ∧ True) := by
    intro w g hg hw
    apply ensures_completing hd hg hw
    · exact fun _ _ => ⟨rfl, trivial⟩
    · exact fun _ _ _ _ => ⟨rfl, trivial⟩
    intro r w' hw'
    obtain ⟨d', hd'⟩ := hw'.delivery
    rw [hid] at hd'
    apply ensures_commit
    exact ensures_requireDelivery hd' ⟨rfl, d, r, hw'⟩
  cases error with
  | none => exact finish _ id annotates_id (hu.trans (View.mapRecordings_id _).symm)
  | some message =>
    apply ensures_then
    apply ensures_setLatestError
    intro w g hg hw
    rw [hu] at hw
    exact finish w g hg hw

/-- A Delivery has one Recording, so that Recording's status is the only one to look at. -/
theorem not_delivering {x : String} {d : DeliveryRow} (hd : s.delivery x = some d)
    (h : ∀ r, s.recording d.recordingId = some r → r.status ≠ .delivering) :
    ¬ ∃ d r, s.delivery x = some d ∧ s.recording d.recordingId = some r ∧ r.status = .delivering := by
  rintro ⟨d', r, hd', hr, hst⟩
  obtain rfl := Option.some.inj (hd.symm.trans hd')
  exact h r hr hst

theorem succeedDeliveryTx_transacts {a x : String} {t : Int} {code : Option Int} :
    (succeedDeliveryTx a x t code).Transacts s
      (fun _ s' => ∃ d r, Completes
        (s.view.mapDeliveryAttempts (finishing a t .succeeded false code none))
        x .delivered t d r s'.view)
      fun _ => ¬ ∃ d r, s.delivery x = some d ∧ s.recording d.recordingId = some r ∧
        r.status = .delivering := by
  apply ensures_begin
  apply ensures_recordingIdForDelivery
  · exact fun h => ⟨rfl, fun ⟨d, _, hd, _⟩ => by simp [h] at hd⟩
  intro d hd
  apply ensures_finishDeliveryAttempt
  intro u hu
  have hdu : u.delivery x = some d := (delivery_eq hu x).trans hd
  apply ensures_modify
  have hw := Store.view_updateDeliveries (f := (·.completed .delivered t))
    (h := fun _ _ => ⟨rfl, rfl⟩) hdu (fun _ => rfl) fun _ => rfl
  rw [hu] at hw
  change ((guardedTransition d.recordingId (recordingStatusOf .delivered) t).bind _).Ensures _ _ _
  refine ensures_completing hd annotates_id
    (hw.trans (View.mapRecordings_id _).symm) ?_ ?_ ?_
  · intro hn _
    exact ⟨rfl, not_delivering hd fun r hr => absurd (hr.symm.trans hn) (by simp)⟩
  · intro r hr hc _
    refine ⟨rfl, not_delivering hd fun r' hr' hst => ?_⟩
    obtain rfl := Option.some.inj (hr.symm.trans hr')
    exact absurd (hc.symm.trans (RecordingStatus.to_delivered.mpr hst)) (by simp)
  · intro r w' hw'
    apply ensures_commit_last
    exact ⟨rfl, d, r, hw'⟩

theorem failDeliveryTx_transacts {a x message : String} {t : Int} {code : Option Int} :
    (failDeliveryTx a x t code message).Transacts s
      (fun _ s' => ∃ d r, Completes
        (s.view.mapDeliveryAttempts (finishing a t .failed false code (some message)))
        x .deliveryFailed t d r s'.view)
      fun _ => ¬ ∃ d r, s.delivery x = some d ∧ s.recording d.recordingId = some r ∧
        r.status = .delivering := by
  apply ensures_begin
  apply ensures_recordingIdForDelivery
  · exact fun h => ⟨rfl, fun ⟨d, _, hd, _⟩ => by simp [h] at hd⟩
  intro d hd
  apply ensures_finishDeliveryAttempt
  intro u hu
  have hdu : u.delivery x = some d := (delivery_eq hu x).trans hd
  apply ensures_modify
  have hw := Store.view_updateDeliveries
    (f := fun d => (d.completed .deliveryFailed t).withError (some message))
    (h := fun _ _ => ⟨rfl, rfl⟩) hdu (fun _ => rfl) fun _ => rfl
  rw [hu] at hw
  apply ensures_setRecordingError
  intro w g hg hwg
  rw [hw] at hwg
  change ((guardedTransition d.recordingId (recordingStatusOf .deliveryFailed) t).bind _).Ensures _ _ _
  refine ensures_completing hd hg hwg ?_ ?_ ?_
  · intro hn _
    exact ⟨rfl, not_delivering hd fun r hr => absurd (hr.symm.trans hn) (by simp)⟩
  · intro r hr hc _
    refine ⟨rfl, not_delivering hd fun r' hr' hst => ?_⟩
    obtain rfl := Option.some.inj (hr.symm.trans hr')
    exact absurd (hc.symm.trans (RecordingStatus.to_deliveryFailed.mpr hst)) (by simp)
  · intro r w' hw'
    apply ensures_commit_last
    exact ⟨rfl, d, r, hw'⟩

theorem retryDelivery_transacts {a x message : String} {t : Int} {code : Option Int} :
    (retryDelivery a x t code message).Transacts s
      (fun _ s' => ∃ d g, Annotates g ∧ s.delivery x = some d ∧
        s'.view = ((s.view.mapDeliveryAttempts (finishing a t .failed true code (some message)))
          |>.withDelivery (d.withError (some message))).mapRecordings g)
      fun _ => s.delivery x = none := by
  apply ensures_begin
  apply ensures_recordingIdForDelivery
  · exact fun h => ⟨rfl, h⟩
  intro d hd
  apply ensures_finishDeliveryAttempt
  intro u hu
  have hdu : u.delivery x = some d := (delivery_eq hu x).trans hd
  apply ensures_modify
  have hw := Store.view_updateDeliveries (f := (·.withError (some message)))
    (h := fun _ _ => ⟨rfl, rfl⟩) hdu (fun _ => rfl) fun _ => rfl
  rw [hu] at hw
  apply ensures_setRecordingError
  intro w g hg hwg
  rw [hw] at hwg
  apply ensures_commit_last
  exact ⟨rfl, d, g, hg, hd, hwg⟩

theorem succeedTranscriptionTx_transacts {a : String} {t : Int} {new : NewTranscript} :
    (succeedTranscriptionTx a t new).Transacts s
      (fun _ s' => ∃ r, s.recording new.recordingId = some r ∧ r.status = .transcribing ∧
        s.transcript new.recordingId = none ∧
        s'.view = ((s.view.mapTranscriptionAttempts (finishing a t .succeeded false none none))
          |>.withTranscript new).withRecording (r.moved .routing t))
      fun _ => ¬ ∃ r, s.recording new.recordingId = some r ∧ r.status = .transcribing ∧
        s.transcript new.recordingId = none := by
  apply ensures_begin
  apply ensures_finishTranscriptionAttempt
  intro u hu
  have htu : u.transcript new.recordingId = s.transcript new.recordingId :=
    congrFun (congrArg View.transcript hu) _
  have hru : u.recording new.recordingId = s.recording new.recordingId := recording_eq hu _
  apply ensures_insertTranscript
  · intro e he
    refine ⟨rfl, fun ⟨r, hr, _, ht⟩ => ?_⟩
    rw [htu, hru, hr, ht] at he
    simp at he
  intro w hw hn _
  rw [htu] at hn
  have hrw : w.recording new.recordingId = s.recording new.recordingId := (recording_eq hw _).trans hru
  apply ensures_guardedTransition
  · intro h
    refine ⟨rfl, fun ⟨r, hr, _⟩ => ?_⟩
    rw [hrw, hr] at h
    cases h
  · intro q hq hc
    refine ⟨rfl, fun ⟨r, hr, hst, _⟩ => ?_⟩
    obtain rfl := Option.some.inj (hr.symm.trans (hrw.symm.trans hq))
    rw [RecordingStatus.to_routing.mpr hst] at hc
    cases hc
  intro r w' hr hc hw'
  rw [hw, hu] at hw'
  apply ensures_commit_last
  exact ⟨rfl, r, hrw.symm.trans hr, RecordingStatus.to_routing.mp hc, hn, hw'⟩

theorem retryTranscription_transacts {a x code message : String} {t : Int} :
    (retryTranscription a x t code message).Transacts s
      (fun _ s' => ∃ g, Annotates g ∧
        s'.view = (s.view.mapTranscriptionAttempts
          (finishing a t .failed true (some code) (some message))).mapRecordings g)
      fun _ => False := by
  apply ensures_begin
  apply ensures_finishTranscriptionAttempt
  intro u hu
  apply ensures_setRecordingError
  intro w g hg hw
  rw [hu] at hw
  apply ensures_commit_last
  exact ⟨rfl, g, hg, hw⟩

theorem failTranscriptionTx_transacts {a x code message : String} {t : Int} :
    (failTranscriptionTx a x t code message).Transacts s
      (fun _ s' => ∃ r g, Annotates g ∧ s.recording x = some r ∧ r.status = .transcribing ∧
        s'.view = ((s.view.mapTranscriptionAttempts
          (finishing a t .failed false (some code) (some message))).mapRecordings g).withRecording
            ((g r).moved .transcriptionFailed t))
      fun _ => ¬ ∃ r, s.recording x = some r ∧ r.status = .transcribing := by
  apply ensures_begin
  apply ensures_finishTranscriptionAttempt
  intro u hu
  apply ensures_setRecordingError
  intro w g hg hw
  rw [hu] at hw
  have back : ∀ q, w.recording x = some q → ∃ r, s.recording x = some r ∧ q = g r := by
    intro q hq
    obtain ⟨r, hr, rfl⟩ := Option.map_eq_some_iff.mp ((recording_eq hw x).symm.trans hq)
    exact ⟨r, hr, rfl⟩
  apply ensures_guardedTransition
  · intro h
    refine ⟨rfl, fun ⟨r, hr, _⟩ => ?_⟩
    have := Option.map_eq_none_iff.mp ((recording_eq hw x).symm.trans h)
    exact absurd (hr.symm.trans this) (by simp)
  · intro q hq hc
    obtain ⟨r, hr, rfl⟩ := back q hq
    rw [hg.status_eq] at hc
    refine ⟨rfl, fun ⟨r', hr', hst⟩ => ?_⟩
    obtain rfl := Option.some.inj (hr.symm.trans hr')
    rw [RecordingStatus.to_transcriptionFailed.mpr hst] at hc
    cases hc
  intro q w' hq hc hw'
  obtain ⟨r, hr, rfl⟩ := back q hq
  rw [hg.status_eq] at hc
  rw [hw] at hw'
  apply ensures_commit_last
  exact ⟨rfl, r, g, hg, hr, RecordingStatus.to_transcriptionFailed.mp hc, hw'⟩

theorem updateRecordingStatus_transacts {x : String} {next : RecordingStatus} {t : Int} :
    (updateRecordingStatus x next t).Transacts s
      (fun _ s' => ∃ r, s.recording x = some r ∧ r.status.canTransitionTo next = true ∧
        s'.view = s.view.withRecording (r.moved next t))
      fun _ => True := by
  apply (updateRecordingStatusTx_transacts.weaken (fun _ _ => id) fun _ _ => trivial).andThen
  intro _ s' ⟨r, hr, hc, hv⟩
  have hr' := (recording_eq hv r.id).trans (View.recording_withRecording _ (r.moved next t))
  rw [Store.recording_id hr] at hr'
  exact ensures_requireRecording hr' ⟨rfl, r, hr, hc, hv⟩

theorem routeToSink_transacts {new : NewDelivery} :
    (routeToSink new).Transacts s
      (fun _ s' => s' = s ∨ ∃ r, r.status = .routing ∧ Selects s new r s') fun _ => True := by
  apply (routeToSinkTx_transacts.weaken (fun _ _ => id) fun _ _ => trivial).andThen
  rintro claimed s' (⟨rfl, hs, _⟩ | ⟨rfl, r, hst, hsel⟩)
  · exact ⟨rfl, Or.inl hs⟩
  · apply ensures_then
    exact ensures_requireDelivery hsel.delivery ⟨rfl, Or.inr ⟨r, hst, hsel⟩⟩

theorem succeedTranscription_transacts {a : String} {t : Int} {new : NewTranscript} :
    (succeedTranscription a t new).Transacts s
      (fun _ s' => ∃ r, s.recording new.recordingId = some r ∧ r.status = .transcribing ∧
        s.transcript new.recordingId = none ∧
        s'.view = ((s.view.mapTranscriptionAttempts (finishing a t .succeeded false none none))
          |>.withTranscript new).withRecording (r.moved .routing t))
      fun _ => ¬ ∃ r, s.recording new.recordingId = some r ∧ r.status = .transcribing ∧
        s.transcript new.recordingId = none := by
  apply succeedTranscriptionTx_transacts.andThen
  intro _ s' ⟨r, hr, hst, hn, hv⟩
  have ht : s'.transcript new.recordingId = some new :=
    (congrFun (congrArg View.transcript hv) _).trans (Function.update_self ..)
  exact ensures_requireTranscript ht ⟨rfl, r, hr, hst, hn, hv⟩

theorem failTranscription_transacts {a x code message : String} {t : Int} :
    (failTranscription a x t code message).Transacts s
      (fun _ s' => ∃ r g, Annotates g ∧ s.recording x = some r ∧ r.status = .transcribing ∧
        s'.view = ((s.view.mapTranscriptionAttempts
          (finishing a t .failed false (some code) (some message))).mapRecordings g).withRecording
            ((g r).moved .transcriptionFailed t))
      fun _ => ¬ ∃ r, s.recording x = some r ∧ r.status = .transcribing := by
  apply failTranscriptionTx_transacts.andThen
  intro _ s' ⟨r, g, hg, hr, hst, hv⟩
  have hr' := (recording_eq hv _).trans
    (View.recording_withRecording _ ((g r).moved .transcriptionFailed t))
  change s'.recording (g r).id = _ at hr'
  rw [hg.id_eq, Store.recording_id hr] at hr'
  exact ensures_requireRecording hr' ⟨rfl, r, g, hg, hr, hst, hv⟩

theorem succeedDelivery_transacts {a x : String} {t : Int} {code : Option Int} :
    (succeedDelivery a x t code).Transacts s
      (fun _ s' => ∃ d r, Completes
        (s.view.mapDeliveryAttempts (finishing a t .succeeded false code none))
        x .delivered t d r s'.view)
      fun _ => ¬ ∃ d r, s.delivery x = some d ∧ s.recording d.recordingId = some r ∧
        r.status = .delivering := by
  apply succeedDeliveryTx_transacts.andThen
  intro _ s' ⟨d, r, h⟩
  obtain ⟨d', hd'⟩ := h.delivery
  rw [s.view_coherent.delivery_id h.1] at hd'
  exact ensures_requireDelivery hd' ⟨rfl, d, r, h⟩

theorem failDelivery_transacts {a x message : String} {t : Int} {code : Option Int} :
    (failDelivery a x t code message).Transacts s
      (fun _ s' => ∃ d r, Completes
        (s.view.mapDeliveryAttempts (finishing a t .failed false code (some message)))
        x .deliveryFailed t d r s'.view)
      fun _ => ¬ ∃ d r, s.delivery x = some d ∧ s.recording d.recordingId = some r ∧
        r.status = .delivering := by
  apply failDeliveryTx_transacts.andThen
  intro _ s' ⟨d, r, h⟩
  obtain ⟨d', hd'⟩ := h.delivery
  rw [s.view_coherent.delivery_id h.1] at hd'
  exact ensures_requireDelivery hd' ⟨rfl, d, r, h⟩

end Methods

end SqliteStore
end Telegraph
