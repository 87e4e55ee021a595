import Telegraph.Proofs.Lifecycle
import Telegraph.Proofs.Statements

namespace Telegraph
open Lib Program SqliteStore

/-- The same rows in the three tables, attempts aside. -/
def SameRows (s t : Store) : Prop :=
  s.recordings = t.recordings ∧ s.transcripts = t.transcripts ∧ s.deliveries = t.deliveries

/-- Whenever both calls succeed, they leave the same rows. -/
def Agree {α β : Type} (s : Store) (p : Query α) (q : Query β) : Prop :=
  ∀ s₁ a s₂ b, p.run s = (s₁, .ok a) → q.run s = (s₂, .ok b) → SameRows s₁ s₂

/-- A Delivery that can be marked delivered still shows the error of an earlier attempt. -/
def Stale (s : Store) (deliveryId : String) : Prop :=
  ∃ d r, s.delivery deliveryId = some d ∧ s.recording d.recordingId = some r ∧
    r.status = .delivering ∧ d.latestError ≠ none

section Forms
variable {s s' : Store} {x a message : String} {t : Int}

theorem storeTranscript_leaves {new : NewTranscript} {q : Transcript}
    (h : (storeTranscript new).run s = (s', .ok q)) :
    ∃ v, s.insertTranscript new = .ok v ∧
      s' = v.setStatus (·.id == new.recordingId) .routing new.createdAt := by
  refine Within.returned (P := fun _ s' => ∃ v, s.insertTranscript new = .ok v ∧
    s' = v.setStatus (·.id == new.recordingId) .routing new.createdAt) ?_ h
  apply within_begin
  apply within_insertTranscript
  refine fun v hv => ⟨trivial, ?_⟩
  apply within_guardedTransition
  refine fun r _ _ => ⟨trivial, ?_⟩
  apply within_commit
  exact within_requireTranscript_last fun _ _ => ⟨v, hv, rfl⟩

theorem succeedTranscription_leaves {new : NewTranscript} {q : Transcript}
    (h : (succeedTranscription a t new).run s = (s', .ok q)) :
    ∃ v, (s.finishTranscriptions (·.id == a) t .succeeded false (fun _ => none) none).insertTranscript
        new = .ok v ∧ s' = v.setStatus (·.id == new.recordingId) .routing t := by
  refine Within.returned (P := fun _ s' => ∃ v,
    (s.finishTranscriptions (·.id == a) t .succeeded false (fun _ => none) none).insertTranscript
      new = .ok v ∧ s' = v.setStatus (·.id == new.recordingId) .routing t) ?_ h
  apply within_bind
  apply within_begin
  apply within_finishTranscriptionAttempt trivial
  apply within_insertTranscript
  refine fun v hv => ⟨trivial, ?_⟩
  apply within_guardedTransition
  refine fun r _ _ => ⟨trivial, ?_⟩
  exact within_requireTranscript_last fun _ _ => ⟨v, hv, rfl⟩

theorem selectSink_leaves {new : NewDelivery} {q : Delivery}
    (h : (selectSink new).run s = (s', .ok q)) :
    ∃ v, s.insertDelivery (deliveryRow new) = .ok v ∧
      s' = (v.setSink (·.id == new.recordingId) new.sinkName).setStatus (·.id == new.recordingId)
        .delivering new.selectedAt := by
  refine Within.returned (P := fun _ s' => ∃ v, s.insertDelivery (deliveryRow new) = .ok v ∧
    s' = (v.setSink (·.id == new.recordingId) new.sinkName).setStatus (·.id == new.recordingId)
      .delivering new.selectedAt) ?_ h
  apply within_begin
  apply within_insertDelivery
  refine fun v hv => ⟨trivial, trivial, ?_⟩
  apply within_guardedTransition
  refine fun r _ _ => ⟨trivial, ?_⟩
  apply within_commit
  exact within_requireDelivery_last fun _ _ => ⟨v, hv, rfl⟩

/-- The rows the conditional claim of `route_to_sink` matches. -/
def claims (new : NewDelivery) (r : RecordingRow) : Bool :=
  r.id == new.recordingId && r.status == .routing

theorem routeToSink_leaves {new : NewDelivery} {q : RoutingOutcome} {r : RecordingRow}
    (hr : s.recording new.recordingId = some r) (hst : r.status = .routing)
    (h : (routeToSink new).run s = (s', .ok q)) :
    ∃ v, (s.setStatus (claims new) .delivering new.selectedAt).insertDelivery (deliveryRow new) =
        .ok v ∧ s' = v.setSink (·.id == new.recordingId) new.sinkName := by
  refine Within.returned (P := fun _ s' => ∃ v,
    (s.setStatus (claims new) .delivering new.selectedAt).insertDelivery (deliveryRow new) = .ok v ∧
      s' = v.setSink (·.id == new.recordingId) new.sinkName) ?_ h
  have hclaimed : (s.recordings.count (claims new) == 0) = false := by
    have hmem : r ∈ s.recordings.rows.filter (claims new) :=
      List.mem_filter.mpr ⟨(Table.find_mem hr).1, by simp [claims, Store.recording_id hr, hst]⟩
    rw [beq_eq_false_iff_ne, Table.count]
    exact fun hz => absurd (List.length_eq_zero_iff.mp hz ▸ hmem) List.not_mem_nil
  apply within_bind
  apply within_begin
  apply within_modify trivial
  change (if (s.recordings.count (claims new) == 0) = true then _ else _ : Query Bool).Within _ _ _
  rw [hclaimed]
  apply within_insertDelivery
  refine fun v hv => ⟨trivial, trivial, ?_⟩
  apply within_commit
  apply within_requireDelivery
  exact fun _ _ => ⟨v, hv, rfl⟩

theorem markDeliveryDelivered_leaves {q : Delivery}
    (h : (markDeliveryDelivered x t).run s = (s', .ok q)) :
    ∃ d r, s.delivery x = some d ∧ s.recording d.recordingId = some r ∧ r.status = .delivering ∧
      s' = (s.updateDeliveries (·.id == x) (fun d => (d.completed .delivered t).withError none)
        fun _ _ => ⟨rfl, rfl⟩).setStatus (·.id == d.recordingId) .delivered t := by
  refine Within.returned (P := fun _ s' => ∃ d r, s.delivery x = some d ∧
    s.recording d.recordingId = some r ∧ r.status = .delivering ∧
    s' = (s.updateDeliveries (·.id == x) (fun d => (d.completed .delivered t).withError none)
      fun _ _ => ⟨rfl, rfl⟩).setStatus (·.id == d.recordingId) .delivered t) ?_ h
  apply within_begin
  apply within_recordingIdForDelivery
  intro d hd
  apply within_modify trivial
  apply within_guardedTransition
  refine fun r hr hcan => ⟨trivial, ?_⟩
  apply within_commit
  exact within_requireDelivery_last fun _ _ =>
    ⟨d, r, hd, hr, RecordingStatus.to_delivered.mp hcan, rfl⟩

theorem succeedDelivery_leaves {q : Delivery} {code : Option Int}
    (h : (succeedDelivery a x t code).run s = (s', .ok q)) :
    ∃ d, s.delivery x = some d ∧
      s' = ((s.finishDeliveries (·.id == a) t .succeeded false (fun _ => code) none).updateDeliveries
        (·.id == x) (·.completed .delivered t) fun _ _ => ⟨rfl, rfl⟩).setStatus
        (·.id == d.recordingId) .delivered t := by
  refine Within.returned (P := fun _ s' => ∃ d, s.delivery x = some d ∧
    s' = ((s.finishDeliveries (·.id == a) t .succeeded false (fun _ => code) none).updateDeliveries
      (·.id == x) (·.completed .delivered t) fun _ _ => ⟨rfl, rfl⟩).setStatus
      (·.id == d.recordingId) .delivered t) ?_ h
  apply within_bind
  apply within_begin
  apply within_recordingIdForDelivery
  intro d hd
  apply within_finishDeliveryAttempt trivial
  apply within_modify trivial
  apply within_guardedTransition
  refine fun r _ _ => ⟨trivial, ?_⟩
  exact within_requireDelivery_last fun _ _ => ⟨d, hd, rfl⟩

theorem markDeliveryFailed_leaves {q : Delivery}
    (h : (markDeliveryFailed x t message).run s = (s', .ok q)) :
    ∃ d, s.delivery x = some d ∧
      s' = ((s.updateDeliveries (·.id == x)
        (fun d => (d.completed .deliveryFailed t).withError (some message)) fun _ _ => ⟨rfl, rfl⟩)
        |>.setLatestError (·.id == d.recordingId) (some message)).setStatus
        (·.id == d.recordingId) .deliveryFailed t := by
  refine Within.returned (P := fun _ s' => ∃ d, s.delivery x = some d ∧
    s' = ((s.updateDeliveries (·.id == x)
      (fun d => (d.completed .deliveryFailed t).withError (some message)) fun _ _ => ⟨rfl, rfl⟩)
      |>.setLatestError (·.id == d.recordingId) (some message)).setStatus
      (·.id == d.recordingId) .deliveryFailed t) ?_ h
  apply within_begin
  apply within_recordingIdForDelivery
  intro d hd
  apply within_modify trivial
  apply within_modify trivial
  apply within_guardedTransition
  refine fun r _ _ => ⟨trivial, ?_⟩
  apply within_commit
  exact within_requireDelivery_last fun _ _ => ⟨d, hd, rfl⟩

theorem failDelivery_leaves {q : Delivery} {code : Option Int}
    (h : (failDelivery a x t code message).run s = (s', .ok q)) :
    ∃ d, s.delivery x = some d ∧
      s' = (((s.finishDeliveries (·.id == a) t .failed false (fun _ => code) (some message))
        |>.updateDeliveries (·.id == x)
        (fun d => (d.completed .deliveryFailed t).withError (some message)) fun _ _ => ⟨rfl, rfl⟩)
        |>.setError (·.id == d.recordingId) message t).setStatus
        (·.id == d.recordingId) .deliveryFailed t := by
  refine Within.returned (P := fun _ s' => ∃ d, s.delivery x = some d ∧
    s' = (((s.finishDeliveries (·.id == a) t .failed false (fun _ => code) (some message))
      |>.updateDeliveries (·.id == x)
      (fun d => (d.completed .deliveryFailed t).withError (some message)) fun _ _ => ⟨rfl, rfl⟩)
      |>.setError (·.id == d.recordingId) message t).setStatus
      (·.id == d.recordingId) .deliveryFailed t) ?_ h
  apply within_bind
  apply within_begin
  apply within_recordingIdForDelivery
  intro d hd
  apply within_finishDeliveryAttempt trivial
  apply within_modify trivial
  apply within_setRecordingError trivial
  apply within_guardedTransition
  refine fun r _ _ => ⟨trivial, ?_⟩
  exact within_requireDelivery_last fun _ _ => ⟨d, hd, rfl⟩

end Forms

namespace Store
variable {s u v : Store}

/-- Inserting the same row into the same table, whatever the attempts are. -/
theorem insertTranscript_same {new : NewTranscript} {s' u' : Store}
    (hs : s.insertTranscript new = .ok s') (hu : u.insertTranscript new = .ok u')
    (hr : u.recordings = s.recordings) (ht : u.transcripts = s.transcripts)
    (hd : u.deliveries = s.deliveries) : SameRows s' u' := by
  obtain ⟨g, hg, -, rfl⟩ := checked_ok hs
  obtain ⟨k, hk, -, rfl⟩ := checked_ok hu
  rw [ht, hg] at hk
  exact ⟨hr.symm, Option.some.inj hk, hd.symm⟩

theorem insertDelivery_same {row : DeliveryRow} {s' u' : Store}
    (hs : s.insertDelivery row = .ok s') (hu : u.insertDelivery row = .ok u')
    (ht : u.transcripts = s.transcripts) (hd : u.deliveries = s.deliveries) :
    s'.recordings = s.recordings ∧ u'.recordings = u.recordings ∧ s'.transcripts = u'.transcripts ∧
      s'.deliveries = u'.deliveries := by
  obtain ⟨g, hg, -, rfl⟩ := checked_ok hs
  obtain ⟨k, hk, -, rfl⟩ := checked_ok hu
  rw [hd, hg] at hk
  exact ⟨rfl, rfl, ht.symm, Option.some.inj hk⟩

end Store

theorem transcript_forms_agree (s : Store) (a : String) (new : NewTranscript) :
    Agree s (storeTranscript new) (succeedTranscription a new.createdAt new) := by
  intro s₁ q s₂ q' h₁ h₂
  obtain ⟨v, hv, rfl⟩ := storeTranscript_leaves h₁
  obtain ⟨w, hw, rfl⟩ := succeedTranscription_leaves h₂
  obtain ⟨hr, ht, hd⟩ := Store.insertTranscript_same hv hw rfl rfl rfl
  refine ⟨?_, ht, hd⟩
  simp only [Store.setStatus, Store.updateRecordings, hr]

/-- From `routing`, the conditional claim and the guarded move write the same row. -/
theorem sink_forms_agree (s : Store) (new : NewDelivery) {r : RecordingRow}
    (hr : s.recording new.recordingId = some r) (hst : r.status = .routing) :
    Agree s (selectSink new) (routeToSink new) := by
  intro s₁ q s₂ q' h₁ h₂
  obtain ⟨v, hv, rfl⟩ := selectSink_leaves h₁
  obtain ⟨w, hw, rfl⟩ := routeToSink_leaves hr hst h₂
  obtain ⟨hrv, hrw, ht, hd⟩ := Store.insertDelivery_same hv hw rfl rfl
  refine ⟨?_, ht, hd⟩
  apply Table.ext_rows
  simp only [Store.setStatus, Store.setSink, Store.updateRecordings, hrv, hrw, Table.update,
    List.map_map]
  apply List.map_congr_left
  intro p hp
  by_cases hid : p.id = new.recordingId
  · obtain rfl := Store.eq_of_recording hr hp hid
    simp [claims, hid, hst, RecordingRow.withSink, RecordingRow.moved]
  · simp [claims, hid]

theorem failed_forms_agree (s : Store) (a x : String) (t : Int) (code : Option Int)
    (message : String) :
    Agree s (markDeliveryFailed x t message) (failDelivery a x t code message) := by
  intro s₁ q s₂ q' h₁ h₂
  obtain ⟨d, hd, rfl⟩ := markDeliveryFailed_leaves h₁
  obtain ⟨e, he, rfl⟩ := failDelivery_leaves h₂
  obtain rfl := Option.some.inj (hd.symm.trans he)
  refine ⟨?_, rfl, rfl⟩
  apply Table.ext_rows
  simp only [Store.setStatus, Store.setLatestError, Store.setError, Store.updateRecordings,
    Store.updateDeliveries, Store.finishDeliveries, Table.update, List.map_map]
  apply List.map_congr_left
  intro p _
  by_cases hid : p.id = d.recordingId
  · simp [hid, RecordingRow.withError, RecordingRow.erred, RecordingRow.moved]
  · simp [hid]

section Delivered
variable {s : Store} {x a : String} {t : Int} {code : Option Int} {d : DeliveryRow}
  {r : RecordingRow}

/-- Both forms go through on a Delivery whose Recording is `delivering`. -/
theorem markDeliveryDelivered_succeeds (hd : s.delivery x = some d)
    (hr : s.recording d.recordingId = some r) (hst : r.status = .delivering) :
    ∃ s' q, (markDeliveryDelivered x t).run s = (s', .ok q) := by
  have never : (markDeliveryDelivered x t).Transacts s (fun _ _ => True) fun _ => False := by
    apply ensures_begin
    apply ensures_recordingIdForDelivery
    · exact fun hn => absurd (hd.symm.trans hn) (by simp)
    intro e he
    obtain rfl := Option.some.inj (hd.symm.trans he)
    apply ensures_modify
    apply ensures_guardedTransition
    · exact fun hn => absurd (hr.symm.trans hn) (by simp)
    · intro q hq hcan
      obtain rfl := Option.some.inj (hr.symm.trans hq)
      exact absurd (hcan.symm.trans (RecordingStatus.to_delivered.mpr hst)) Bool.false_ne_true
    intro q w hq _ hw
    apply ensures_commit
    have hdw : ∃ row, w.delivery x = some row := by
      have hview := congrFun (congrArg View.delivery hw) x
      refine ⟨(d.completed .delivered t).withError none, hview.trans ?_⟩
      have hu := Store.view_updateDeliveries (f := fun d => (d.completed .delivered t).withError none)
        (h := fun _ _ => ⟨rfl, rfl⟩) hd (fun _ => rfl) fun _ => rfl
      have hx : d.id = x := s.view_coherent.delivery_id hd
      refine (congrFun (congrArg View.delivery hu) x).trans ?_
      rw [← hx]
      exact View.delivery_withDelivery _ ((d.completed .delivered t).withError none)
    obtain ⟨row, hrow⟩ := hdw
    exact ensures_requireDelivery hrow ⟨rfl, trivial⟩
  rcases never.run_cases with ⟨q, s', h, -⟩ | ⟨e, -, he⟩
  · exact ⟨s', q, h⟩
  · exact he.elim

theorem succeedDelivery_succeeds (hd : s.delivery x = some d)
    (hr : s.recording d.recordingId = some r) (hst : r.status = .delivering) :
    ∃ s' q, (succeedDelivery a x t code).run s = (s', .ok q) := by
  have never : (succeedDelivery a x t code).Transacts s (fun _ _ => True) fun _ => False := by
    refine Transacts.andThen (succeedDeliveryTx_transacts.weaken (fun _ _ h => h)
      fun _ hn => hn ⟨d, r, hd, hr, hst⟩) ?_
    intro _ s' ⟨e, q, h⟩
    obtain ⟨e', he'⟩ := h.delivery
    rw [s.view_coherent.delivery_id h.1] at he'
    exact ensures_requireDelivery he' ⟨rfl, trivial⟩
  rcases never.run_cases with ⟨q, s', h, -⟩ | ⟨e, -, he⟩
  · exact ⟨s', q, h⟩
  · exact he.elim

end Delivered

theorem delivered_forms_agree_iff (s : Store) (a x : String) (t : Int) (code : Option Int) :
    Agree s (markDeliveryDelivered x t) (succeedDelivery a x t code) ↔ ¬ Stale s x := by
  constructor
  · rintro h ⟨d, r, hd, hr, hst, hstale⟩
    obtain ⟨s₁, q, h₁⟩ : ∃ s' q, (markDeliveryDelivered x t).run s = (s', .ok q) :=
      markDeliveryDelivered_succeeds hd hr hst
    obtain ⟨s₂, q', h₂⟩ : ∃ s' q, (succeedDelivery a x t code).run s = (s', .ok q) :=
      succeedDelivery_succeeds hd hr hst
    have hsame := (h _ _ _ _ h₁ h₂).2.2
    obtain ⟨e, _, he, -, -, rfl⟩ := markDeliveryDelivered_leaves h₁
    obtain ⟨e', he', rfl⟩ := succeedDelivery_leaves h₂
    -- Both results map the same rows, so they agree on this Delivery's row.
    have hrows := congrArg (fun table : Table DeliveryRow DeliveryRow.clash => table.rows) hsame
    simp only [Store.setStatus, Store.updateRecordings, Store.updateDeliveries,
      Store.finishDeliveries, Table.update, List.map_inj_left] at hrows
    have hrow := congrArg (fun row : DeliveryRow => row.latestError) (hrows d (Table.find_mem hd).1)
    have hx : d.id = x := s.view_coherent.delivery_id hd
    simp only [hx, beq_self_eq_true, if_true, DeliveryRow.withError, DeliveryRow.completed] at hrow
    exact hstale hrow.symm
  · intro hn s₁ q s₂ q' h₁ h₂
    obtain ⟨d, r, hd, hr, hst, rfl⟩ := markDeliveryDelivered_leaves h₁
    obtain ⟨e, he, rfl⟩ := succeedDelivery_leaves h₂
    obtain rfl := Option.some.inj (hd.symm.trans he)
    have hclean : d.latestError = none := by
      by_contra hne
      exact hn ⟨d, r, hd, hr, hst, hne⟩
    refine ⟨rfl, rfl, ?_⟩
    apply Table.ext_rows
    simp only [Store.setStatus, Store.updateRecordings, Store.updateDeliveries,
      Store.finishDeliveries, Table.update]
    apply List.map_congr_left
    intro p hp
    by_cases hid : p.id = x
    · obtain rfl := Store.eq_of_delivery hd hp hid
      simp [hid, DeliveryRow.withError, DeliveryRow.completed, hclean]
    · simp [hid]

/-- In any store, three of the pairs of forms always agree; the pair that completes a
Delivery does unless that Delivery still shows an earlier error. -/
theorem forms_agree (s : Store) :
    (∀ a new, Agree s (storeTranscript new) (succeedTranscription a new.createdAt new)) ∧
    (∀ new r, s.recording new.recordingId = some r → r.status = .routing →
      Agree s (selectSink new) (routeToSink new)) ∧
    (∀ a x t code message,
      Agree s (markDeliveryFailed x t message) (failDelivery a x t code message)) ∧
    ∀ a x t code, Agree s (markDeliveryDelivered x t) (succeedDelivery a x t code) ↔ ¬ Stale s x :=
  ⟨transcript_forms_agree s, fun new _ => sink_forms_agree s new, failed_forms_agree s,
    delivered_forms_agree_iff s⟩

/-- One upload whose Delivery fails once, retryably. -/
def failedOnce : List Operation :=
  [.createRecording firstUpload, .claimReceivedForTranscription 0,
    .storeTranscript ⟨"r1", "soniox", "hello", "", none, none, 0⟩,
    .selectSink ⟨"d1", "r1", "notes", 0, none⟩, .startDeliveryAttempt "a1" "d1" 0,
    .retryDelivery "a1" "d1" 1 none "timed out", .startDeliveryAttempt "a2" "d1" 2]

/-- After a retryable failure the worker form keeps the error that the direct form clears. -/
theorem delivered_forms_differ :
    ¬ ∀ (ops : List Operation) (a x : String) (t : Int) (code : Option Int),
      Agree (Operation.applyAll ops) (markDeliveryDelivered x t) (succeedDelivery a x t code) := by
  intro h
  have hclean := (delivered_forms_agree_iff (Operation.applyAll failedOnce) "a2" "d1" 3 none).mp
    (h failedOnce "a2" "d1" 3 none)
  have hrow : ((Operation.applyAll failedOnce).delivery "d1").map
      (fun d => (d.recordingId, d.latestError)) = some ("r1", some "timed out") := by
    decide +kernel
  have hrec : ((Operation.applyAll failedOnce).recording "r1").map (·.status) = some .delivering := by
    decide +kernel
  obtain ⟨d, hd, hde⟩ := Option.map_eq_some_iff.mp hrow
  obtain ⟨r, hr, hst⟩ := Option.map_eq_some_iff.mp hrec
  obtain ⟨hid, herr⟩ := Prod.mk.inj hde
  exact hclean ⟨d, r, hd, by rw [hid, hr], hst, by simp [herr]⟩

end Telegraph
