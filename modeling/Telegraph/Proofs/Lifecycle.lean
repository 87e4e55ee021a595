import Telegraph.Operation
import Telegraph.Proofs.WorkQueue

namespace Telegraph
open Lib Program SqliteStore

/-- The rows each status goes with. -/
def StageOf (status : RecordingStatus) (sink : Option String) (t : Option Transcript)
    (d : Option DeliveryRow) : Prop :=
  match status with
  | .received | .transcribing | .transcriptionFailed => t = none ∧ d = none ∧ sink = none
  | .routing | .backlogged => t.isSome = true ∧ d = none ∧ sink = none
  | .delivering | .delivered | .deliveryFailed =>
    t.isSome = true ∧ ∃ e, d = some e ∧ recordingStatusOf e.status = status ∧
      sink = some e.sinkName

/-- The lifecycle of one key, read off its Recording, Transcript and Delivery. -/
def Stage (r : Option RecordingRow) (t : Option Transcript) (d : Option DeliveryRow) : Prop :=
  match r with
  | none => t = none ∧ d = none
  | some r => StageOf r.status r.selectedSinkName t d

/-- Every key is in its lifecycle; a key without a Recording has nothing else. -/
def View.Lifecycle (v : View) : Prop :=
  ∀ x, Stage (v.recording x) (v.transcript x) (v.deliveryFor x)

namespace Stage
variable {r : RecordingRow} {t : Option Transcript} {d : Option DeliveryRow}

theorem undecided (h : Stage (some r) t d)
    (hs : r.status = .received ∨ r.status = .transcribing ∨ r.status = .transcriptionFailed) :
    t = none ∧ d = none ∧ r.selectedSinkName = none := by
  replace h : StageOf r.status r.selectedSinkName t d := h
  rcases hs with hs | hs | hs <;> rw [hs] at h <;> exact h

theorem transcribed (h : Stage (some r) t d) (hs : r.status = .routing ∨ r.status = .backlogged) :
    t.isSome = true ∧ d = none ∧ r.selectedSinkName = none := by
  replace h : StageOf r.status r.selectedSinkName t d := h
  rcases hs with hs | hs <;> rw [hs] at h <;> exact h

theorem selected (h : Stage (some r) t d)
    (hs : r.status = .delivering ∨ r.status = .delivered ∨ r.status = .deliveryFailed) :
    t.isSome = true ∧ ∃ e, d = some e ∧ recordingStatusOf e.status = r.status ∧
      r.selectedSinkName = some e.sinkName := by
  replace h : StageOf r.status r.selectedSinkName t d := h
  rcases hs with hs | hs | hs <;> rw [hs] at h ⊢ <;> exact h

/-- Only the status and the Sink of the Recording count. -/
theorem congr {q : RecordingRow} (h : Stage (some r) t d) (hs : q.status = r.status)
    (hk : q.selectedSinkName = r.selectedSinkName) : Stage (some q) t d := by
  change StageOf q.status q.selectedSinkName t d
  rw [hs, hk]
  exact h

/-- A Delivery may change as long as its status and its Sink stay. -/
theorem redelivered {r : Option RecordingRow} {d d' : DeliveryRow} (h : Stage r t (some d))
    (hs : d'.status = d.status) (hk : d'.sinkName = d.sinkName) : Stage r t (some d') := by
  cases r with
  | none => cases h.2
  | some r =>
    change StageOf r.status r.selectedSinkName t (some d) at h
    change StageOf r.status r.selectedSinkName t (some d')
    cases hr : r.status <;> rw [hr] at h
    case received | transcribing | transcriptionFailed | routing | backlogged => cases h.2.1
    all_goals
      obtain ⟨ht, e, he, hst, hsink⟩ := h
      obtain rfl := Option.some.inj he
      exact ⟨ht, d', rfl, by rw [hs, hst], by rw [hk, hsink]⟩

theorem of_selected {e : DeliveryRow} (ht : t.isSome = true)
    (hs : recordingStatusOf e.status = r.status) (hk : r.selectedSinkName = some e.sinkName) :
    Stage (some r) t (some e) := by
  change StageOf r.status _ _ _
  rw [← hs]
  cases he : e.status <;> exact ⟨ht, e, rfl, by rw [he], hk⟩

end Stage

namespace View.Lifecycle
variable {v : View}

theorem withRecording (h : v.Lifecycle) {r : RecordingRow}
    (hr : Stage (some r) (v.transcript r.id) (v.deliveryFor r.id)) :
    (v.withRecording r).Lifecycle := by
  intro x
  by_cases hx : x = r.id
  · subst x
    rw [View.recording_withRecording]
    exact hr
  · rw [View.recording_withRecording_ne hx]
    exact h x

theorem mapRecordings (h : v.Lifecycle) {f : RecordingRow → RecordingRow}
    (hf : ∀ r t d, Stage (some r) t d → Stage (some (f r)) t d) : (v.mapRecordings f).Lifecycle := by
  intro x
  have hx := h x
  change Stage ((v.recording x).map f) (v.transcript x) (v.deliveryFor x)
  cases hr : v.recording x with
  | none => rwa [hr] at hx
  | some r =>
    rw [hr] at hx
    exact hf r _ _ hx

theorem annotated (h : v.Lifecycle) {g : RecordingRow → RecordingRow} (hg : Annotates g) :
    (v.mapRecordings g).Lifecycle :=
  h.mapRecordings fun r _ _ hr => by
    obtain ⟨_, _, he⟩ := hg r
    exact hr.congr (by rw [he]) (by rw [he])

/-- A Transcript arrives together with the move to `routing`. -/
theorem transcribed (h : v.Lifecycle) {r : RecordingRow} {t : Transcript} {at_ : Int}
    (hid : r.id = t.recordingId) (hr : v.recording t.recordingId = some r)
    (hst : r.status = .transcribing) :
    ((v.withTranscript t).withRecording (r.moved .routing at_)).Lifecycle := by
  have hx := h t.recordingId
  rw [hr] at hx
  obtain ⟨-, hd, hk⟩ := hx.undecided (Or.inr (Or.inl hst))
  intro x
  by_cases hxe : x = r.id
  · subst x
    have hrow := View.recording_withRecording (v.withTranscript t) (r.moved .routing at_)
    change View.recording _ r.id = _ at hrow
    rw [hrow]
    refine ⟨?_, ?_, hk⟩
    · change ((v.withTranscript t).transcript r.id).isSome = true
      rw [hid]
      simp [withTranscript]
    · change v.deliveryFor r.id = none
      rw [hid]
      exact hd
  · rw [View.recording_withRecording_ne (r := r.moved .routing at_) hxe]
    change Stage (v.recording x) (Function.update v.transcript t.recordingId (some t) x) (v.deliveryFor x)
    rw [Function.update_of_ne (hid ▸ hxe)]
    exact h x

/-- Selecting a Sink, by any path, from a status that allows it. -/
theorem selects {s s' : Store} {new : NewDelivery} {r : RecordingRow} (h : s.view.Lifecycle)
    (hc : r.status.canTransitionTo .delivering = true) (hs : Selects s new r s') :
    s'.view.Lifecycle := by
  obtain ⟨hr, -, hf, hv⟩ := hs
  have hid := Store.recording_id hr
  have hx := h new.recordingId
  change Stage (s.recording new.recordingId) (s.transcript _) (s.deliveryFor _) at hx
  rw [hr] at hx
  have ht : (s.transcript new.recordingId).isSome = true := by
    rcases RecordingStatus.to_delivering.mp hc with hst | hst | hst
    · exact (hx.transcribed (Or.inl hst)).1
    · exact (hx.transcribed (Or.inr hst)).1
    · exact (hx.selected (Or.inr (Or.inr hst))).1
  rw [hv]
  intro x
  by_cases hxe : x = r.id
  · subst x
    have hrow := View.recording_withRecording (s.view.withDelivery (deliveryRow new))
      ((r.withSink new.sinkName).moved .delivering new.selectedAt)
    change View.recording _ r.id = _ at hrow
    rw [hrow]
    refine ⟨hid ▸ ht, deliveryRow new, ?_, rfl, rfl⟩
    change Function.update s.deliveryFor new.recordingId (some (deliveryRow new)) r.id = _
    rw [hid, Function.update_self]
  · rw [View.recording_withRecording_ne
      (r := (r.withSink new.sinkName).moved .delivering new.selectedAt) hxe]
    change Stage (s.recording x) (s.transcript x)
      (Function.update s.deliveryFor new.recordingId (some (deliveryRow new)) x)
    rw [Function.update_of_ne (hid ▸ hxe)]
    exact h x

/-- A row of a Delivery and its Recording change together, keeping the Sink. -/
theorem delivery_moves (h : v.Lifecycle) {d d' : DeliveryRow} {r r' : RecordingRow}
    {g : RecordingRow → RecordingRow} (hg : Annotates g)
    (hfor : v.deliveryFor d.recordingId = some d) (hr : v.recording d.recordingId = some r)
    (hid : r.id = d.recordingId) (hst : r.status = .delivering ∨ r.status = .deliveryFailed)
    (hdid : d'.recordingId = d.recordingId) (hdsink : d'.sinkName = d.sinkName)
    (hrid : r'.id = r.id) (hrsink : r'.selectedSinkName = r.selectedSinkName)
    (hsame : recordingStatusOf d'.status = r'.status) :
    (((v.withDelivery d').mapRecordings g).withRecording r').Lifecycle := by
  have hx := h d.recordingId
  rw [hr, hfor] at hx
  obtain ⟨ht, e, he, -, hk⟩ := hx.selected (hst.elim Or.inl fun h => Or.inr (Or.inr h))
  obtain rfl := Option.some.inj he
  intro x
  by_cases hxe : x = r'.id
  · subst x
    rw [View.recording_withRecording]
    have hrow : Function.update v.deliveryFor d'.recordingId (some d') r'.id = some d' := by
      rw [hrid, hid, hdid, Function.update_self]
    change Stage (some r') (v.transcript r'.id)
      (Function.update v.deliveryFor d'.recordingId (some d') r'.id)
    rw [hrow]
    exact Stage.of_selected (by rw [hrid, hid]; exact ht) hsame (by rw [hrsink, hk, hdsink])
  · rw [View.recording_withRecording_ne hxe]
    have hne : x ≠ d'.recordingId := fun he => hxe (by rw [he, hdid, ← hid, hrid])
    have hold := h.annotated hg x
    change Stage ((v.recording x).map g) (v.transcript x)
      (Function.update v.deliveryFor d'.recordingId (some d') x)
    rw [Function.update_of_ne hne]
    exact hold

theorem recovers (h : v.Lifecycle) {s : Store} {f : RecordingRow → RecordingRow}
    (hf : Recovers s f) : (v.mapRecordings f).Lifecycle :=
  h.mapRecordings fun r t d hr => by
    obtain ⟨e, u, he⟩ := hf r
    cases hu : Unstarted s r with
    | false => exact hr.congr (by simp [he, hu]) (by rw [he])
    | true =>
      have hst : r.status = .transcribing := by
        have := hu
        simp only [Unstarted, Bool.and_eq_true, beq_iff_eq] at this
        exact this.1
      have hs : (f r).status = .received := by simp [he, hu]
      have hk : (f r).selectedSinkName = r.selectedSinkName := by rw [he]
      change StageOf (f r).status (f r).selectedSinkName t d
      rw [hs, hk]
      exact hr.undecided (Or.inr (Or.inl hst))

/-- A status change among the statuses that have nothing yet, or among those
that have only a Transcript. -/
theorem moved (h : v.Lifecycle) {r q : RecordingRow} {x : String} (hr : v.recording x = some r)
    (hid : r.id = x) (hqid : q.id = r.id)
    (hst : ∀ t d, Stage (some r) t d → StageOf q.status q.selectedSinkName t d) :
    (v.withRecording q).Lifecycle := by
  apply h.withRecording
  have hx := h x
  rw [hr] at hx
  rw [hqid, hid]
  exact hst _ _ hx

/-- A Delivery row changed without touching its status or its Sink. -/
theorem redelivered (h : v.Lifecycle) {d e : DeliveryRow}
    (hfor : v.deliveryFor d.recordingId = some d) (hid : e.recordingId = d.recordingId)
    (hs : e.status = d.status) (hk : e.sinkName = d.sinkName) : (v.withDelivery e).Lifecycle := by
  intro x
  change Stage (v.recording x) (v.transcript x)
    (Function.update v.deliveryFor e.recordingId (some e) x)
  by_cases hx : x = e.recordingId
  · subst x
    rw [Function.update_self]
    have hold := h d.recordingId
    rw [hfor, ← hid] at hold
    exact hold.redelivered hs hk
  · rw [Function.update_of_ne hx]
    exact h x

/-- A Delivery finishing together with its Recording. -/
theorem completes (h : v.Lifecycle) {x : String} {status : DeliveryStatus} {t : Int}
    {d : DeliveryRow} {r : RecordingRow} {v' : View} (hid : ∀ {y q}, v.recording y = some q → q.id = y)
    (hfor : v.delivery x = some d → v.deliveryFor d.recordingId = some d)
    (hstat : status ≠ .delivering) (hc : Completes v x status t d r v') : v'.Lifecycle := by
  have hst := hc.delivering hstat
  obtain ⟨hd, hr, hcan, e, g, hg, rfl⟩ := hc
  obtain ⟨_, _, hge⟩ := hg r
  exact h.delivery_moves hg (hfor hd) hr (hid hr) (Or.inl hst) rfl rfl
    (hg.id_eq r) (by rw [hge]; rfl) rfl

end View.Lifecycle

namespace Store

theorem create_lifecycle {s : Store} {new : NewRecording} (h : s.view.Lifecycle)
    (hn : s.recording new.id = none) : (s.view.withRecording (newRow new)).Lifecycle := by
  apply View.Lifecycle.withRecording h
  have hx := h new.id
  change Stage (s.recording new.id) (s.transcript new.id) (s.deliveryFor new.id) at hx
  rw [hn] at hx
  exact ⟨hx.1, hx.2, rfl⟩

theorem retryTranscription_lifecycle {s : Store} {input : ManualRetryTranscription}
    {r : RecordingRow} (h : s.view.Lifecycle) (hr : s.recording input.recordingId = some r)
    (hst : r.status = .transcriptionFailed) :
    (s.view.withRecording
      (((r.moved .transcribing input.at_).withError none).withWindow input.at_)).Lifecycle :=
  h.moved hr (Store.recording_id hr) rfl fun _ _ hx => hx.undecided (Or.inr (Or.inr hst))

theorem claim_lifecycle {s : Store} {x : String} {r : RecordingRow} {t : Int}
    (h : s.view.Lifecycle) (hr : s.recording x = some r) (hst : r.status = .received) :
    (s.view.withRecording (r.moved .transcribing t)).Lifecycle :=
  h.moved hr (Store.recording_id hr) rfl fun _ _ hx => hx.undecided (Or.inl hst)

theorem backlog_lifecycle {s : Store} {x : String} {r : RecordingRow} {t : Int}
    (h : s.view.Lifecycle) (hr : s.recording x = some r) (hst : r.status = .routing) :
    (s.view.withRecording (r.moved .backlogged t)).Lifecycle :=
  h.moved hr (Store.recording_id hr) rfl fun _ _ hx => hx.transcribed (Or.inl hst)

theorem reopen_lifecycle {s : Store} {input : ManualRetryDelivery} {r : RecordingRow}
    {d : DeliveryRow} (h : s.view.Lifecycle) (hr : s.recording input.recordingId = some r)
    (hst : r.status = .deliveryFailed) (hfor : s.deliveryFor input.recordingId = some d) :
    ((s.view.withDelivery (reopened input d)).withRecording
      ((r.moved .delivering input.at_).withError none)).Lifecycle := by
  have hd := s.view_coherent.deliveryFor_id hfor
  rw [← View.mapRecordings_id (s.view.withDelivery (reopened input d))]
  apply h.delivery_moves (d := d) (r := r) annotates_id
  · rw [hd]
    exact hfor
  · rw [hd]
    exact hr
  · rw [hd]
    exact Store.recording_id hr
  · exact Or.inr hst
  all_goals rfl

theorem failTranscription_lifecycle {v : View} {x : String} {r : RecordingRow} {t : Int}
    {g : RecordingRow → RecordingRow} (h : v.Lifecycle) (hv : v.Coherent) (hg : Annotates g)
    (hr : v.recording x = some r) (hst : r.status = .transcribing) :
    ((v.mapRecordings g).withRecording ((g r).moved .transcriptionFailed t)).Lifecycle := by
  refine (h.annotated hg).moved (View.recording_mapRecordings hr) ?_ rfl fun _ _ hx => ?_
  · exact (hg.id_eq r).trans (hv.recording_id hr)
  · exact hx.undecided (Or.inr (Or.inl (by rw [hg.status_eq]; exact hst)))

end Store

namespace Operation

/-- Each operation, with any arguments and whatever its outcome, keeps every key
in its lifecycle. -/
theorem apply_lifecycle (s : Store) (op : Operation) (h : s.view.Lifecycle) :
    (apply s op).view.Lifecycle := by
  cases op with
  | createRecording new =>
    refine createRecording_transacts.run_preserves (·.view.Lifecycle) h fun _ s' hs => ?_
    rcases hs with rfl | ⟨hv, hn⟩
    · exact h
    · rw [hv]
      exact Store.create_lifecycle h hn
  | claimReceivedForTranscription now =>
    refine claimReceivedForTranscription_transacts.run_preserves (·.view.Lifecycle) h
      fun _ s' hs => ?_
    rcases hs with rfl | ⟨x, r, hr, hst, hv⟩
    · exact h
    · rw [hv]
      exact Store.claim_lifecycle h hr hst
  | startTranscriptionAttempt a x now =>
    refine startTranscriptionAttempt_transacts.run_preserves (·.view.Lifecycle) h
      fun _ s' hs => ?_
    rcases hs with ⟨-, rfl, -⟩ | ⟨r, first, -, -, -, -, hv, -⟩
    · exact h
    · rw [hv]
      exact h
  | succeedTranscription a t new =>
    refine succeedTranscription_transacts.run_preserves (·.view.Lifecycle) h fun _ s' hs => ?_
    obtain ⟨r, hr, hst, -, hv⟩ := hs
    rw [hv]
    exact View.Lifecycle.transcribed (v := s.view.mapTranscriptionAttempts _) h
      (Store.recording_id hr) hr hst
  | retryTranscription a x t code message =>
    refine retryTranscription_transacts.run_preserves (·.view.Lifecycle) h fun _ s' hs => ?_
    obtain ⟨g, hg, hv⟩ := hs
    rw [hv]
    exact View.Lifecycle.annotated (v := s.view.mapTranscriptionAttempts _) h hg
  | failTranscription a x t code message =>
    refine failTranscription_transacts.run_preserves (·.view.Lifecycle) h fun _ s' hs => ?_
    obtain ⟨r, g, hg, hr, hst, hv⟩ := hs
    rw [hv]
    exact Store.failTranscription_lifecycle (v := s.view) h s.view_coherent hg hr hst
  | storeTranscript new =>
    refine storeTranscript_transacts.run_preserves (·.view.Lifecycle) h fun _ s' hs => ?_
    obtain ⟨r, hr, hc, -, hv⟩ := hs
    rw [hv]
    exact h.transcribed (Store.recording_id hr) hr (RecordingStatus.to_routing.mp hc)
  | markBacklogged x t =>
    refine updateRecordingStatus_transacts.run_preserves (·.view.Lifecycle) h fun _ s' hs => ?_
    obtain ⟨r, hr, hc, hv⟩ := hs
    rw [hv]
    exact Store.backlog_lifecycle h hr (RecordingStatus.to_backlogged.mp hc)
  | routeToSink new =>
    refine routeToSink_transacts.run_preserves (·.view.Lifecycle) h fun _ s' hs => ?_
    rcases hs with rfl | ⟨r, hst, hsel⟩
    · exact h
    · exact h.selects (RecordingStatus.to_delivering.mpr (Or.inl hst)) hsel
  | selectSink new =>
    refine selectSink_transacts.run_preserves (·.view.Lifecycle) h fun _ s' hs => ?_
    obtain ⟨r, hc, hsel⟩ := hs
    exact h.selects hc hsel
  | manualRoute input =>
    refine manualRoute_transacts.run_preserves (·.view.Lifecycle) h fun _ s' hs => ?_
    obtain ⟨r, hst, hsel⟩ := hs
    exact h.selects (RecordingStatus.to_delivering.mpr (Or.inr (Or.inl hst))) hsel
  | startDeliveryAttempt a x now =>
    refine startDeliveryAttempt_transacts.run_preserves (·.view.Lifecycle) h fun _ s' hs => ?_
    rcases hs with ⟨-, rfl, -⟩ | ⟨d, -, -, -, -, hv⟩
    · exact h
    · rw [hv]
      exact h
  | succeedDelivery a x t code =>
    refine succeedDelivery_transacts.run_preserves (·.view.Lifecycle) h fun _ s' hs => ?_
    obtain ⟨d, r, hc⟩ := hs
    exact View.Lifecycle.completes (v := s.view.mapDeliveryAttempts _) h
      Store.recording_id Store.deliveryFor_of_delivery (by decide) hc
  | retryDelivery a x t code message =>
    refine retryDelivery_transacts.run_preserves (·.view.Lifecycle) h fun _ s' hs => ?_
    obtain ⟨d, g, hg, hd, hv⟩ := hs
    rw [hv]
    have hd' := View.Lifecycle.redelivered (e := d.withError (some message)) h
      (Store.deliveryFor_of_delivery hd) rfl rfl rfl
    exact View.Lifecycle.annotated (v := (s.view.mapDeliveryAttempts _).withDelivery _) hd' hg
  | failDelivery a x t code message =>
    refine failDelivery_transacts.run_preserves (·.view.Lifecycle) h fun _ s' hs => ?_
    obtain ⟨d, r, hc⟩ := hs
    exact View.Lifecycle.completes (v := s.view.mapDeliveryAttempts _) h
      Store.recording_id Store.deliveryFor_of_delivery (by decide) hc
  | markDeliveryDelivered x t =>
    refine completeDelivery_transacts.run_preserves (·.view.Lifecycle) h fun _ s' hs => ?_
    obtain ⟨d, r, hc⟩ := hs
    exact h.completes Store.recording_id Store.deliveryFor_of_delivery (by decide) hc
  | markDeliveryFailed x t error =>
    refine completeDelivery_transacts.run_preserves (·.view.Lifecycle) h fun _ s' hs => ?_
    obtain ⟨d, r, hc⟩ := hs
    exact h.completes Store.recording_id Store.deliveryFor_of_delivery (by decide) hc
  | manualRetryTranscription input =>
    refine manualRetryTranscription_transacts.run_preserves (·.view.Lifecycle) h fun _ s' hs => ?_
    obtain ⟨_, r, hr, hst, hv⟩ := hs
    rw [hv]
    exact Store.retryTranscription_lifecycle h hr hst
  | manualRetryDelivery input =>
    refine manualRetryDelivery_transacts.run_preserves (·.view.Lifecycle) h fun _ s' hs => ?_
    obtain ⟨r, d, _, hr, hst, hfor, hv⟩ := hs
    rw [hv]
    exact Store.reopen_lifecycle h hr hst hfor
  | recoverAbandonedAttempts now =>
    obtain ⟨f, hf, hv⟩ := recovered_view now s
    change (recovered now s).view.Lifecycle
    rw [hv]
    exact h.recovers hf

theorem applyAll_lifecycle (ops : List Operation) : (applyAll ops).view.Lifecycle := by
  have run : ∀ (ops : List Operation) (s : Store), s.view.Lifecycle →
      (ops.foldl apply s).view.Lifecycle := by
    intro ops
    induction ops with
    | nil => exact fun _ h => h
    | cons op ops ih => exact fun s h => ih _ (apply_lifecycle s op h)
  exact run ops Store.empty fun _ => ⟨rfl, rfl⟩

end Operation

namespace Store
variable {s : Store} {x : String}

theorem transcriptsOf_eq : s.transcriptsOf x = (s.transcript x).toList :=
  Table.filter_eq_toList fun a b ha hb => by
    simpa [Transcript.clash] using (beq_iff_eq.mp ha).trans (beq_iff_eq.mp hb).symm

theorem deliveriesOf_eq : s.deliveriesOf x = (s.deliveryFor x).toList :=
  Table.filter_eq_toList fun a b ha hb => by
    have he : a.recordingId = b.recordingId := (beq_iff_eq.mp ha).trans (beq_iff_eq.mp hb).symm
    simp [DeliveryRow.clash, he]

/-- The lifecycle of a key, said of the rows themselves. -/
theorem lawful_of_stage {r : RecordingRow}
    (h : Stage (some r) (s.transcript r.id) (s.deliveryFor r.id)) : s.Lawful r := by
  change StageOf r.status r.selectedSinkName _ _ at h
  unfold Lawful
  rw [transcriptsOf_eq, deliveriesOf_eq]
  cases hr : r.status <;> rw [hr] at h
  case received | transcribing | transcriptionFailed =>
    obtain ⟨ht, hd, hk⟩ := h
    exact ⟨by rw [ht]; rfl, by rw [hd]; rfl, hk⟩
  case routing | backlogged =>
    obtain ⟨ht, hd, hk⟩ := h
    obtain ⟨t, ht⟩ := Option.isSome_iff_exists.mp ht
    exact ⟨⟨t, by rw [ht]; rfl⟩, by rw [hd]; rfl, hk⟩
  all_goals
    obtain ⟨ht, d, hd, hs, hk⟩ := h
    obtain ⟨t, ht⟩ := Option.isSome_iff_exists.mp ht
    exact ⟨⟨t, by rw [ht]; rfl⟩, d, by rw [hd]; rfl, hs, hk⟩

end Store

/-- In every state the store operations reach, each Recording has exactly the
Transcript, Delivery and Sink its status promises. -/
theorem Operation.recordings_lawful (ops : List Operation) :
    ∀ r ∈ (applyAll ops).recordings.rows, (applyAll ops).Lawful r := by
  intro r hr
  apply Store.lawful_of_stage
  have h := applyAll_lifecycle ops r.id
  change Stage ((applyAll ops).recording r.id) _ _ at h
  rwa [Store.recording_of_mem hr] at h

def firstUpload : NewRecording :=
  ⟨"r1", "phone", "1", none, some "blobs/r1", none, none, none, none, none, ⟨[]⟩, none, 0⟩

/-- Two workers' operations over that upload: a transcription that is retried, a late
claim, a routing and a Delivery whose second attempt the Sink accepts. -/
def uploadToDelivery : List Operation :=
  [.createRecording firstUpload, .claimReceivedForTranscription 1,
    .startTranscriptionAttempt "t1" "r1" 1, .retryTranscription "t1" "r1" 2 "503" "busy",
    .claimReceivedForTranscription 3, .startTranscriptionAttempt "t2" "r1" 8,
    .succeedTranscription "t2" 9 ⟨"r1", "soniox", "hello", "", none, none, 9⟩,
    .routeToSink ⟨"d1", "r1", "notes", 10, some 100⟩, .startDeliveryAttempt "a1" "d1" 11,
    .retryDelivery "a1" "d1" 12 none "timed out", .startDeliveryAttempt "a2" "d1" 18,
    .succeedDelivery "a2" "d1" 19 (some 200)]

/-- The Recording of that run is delivered, and its rows are those its status promises. -/
theorem Operation.delivered_upload_lawful : ∃ r, (applyAll uploadToDelivery).recording "r1" = some r ∧
    r.status = .delivered ∧ (applyAll uploadToDelivery).Lawful r := by
  have hstatus : ((applyAll uploadToDelivery).recording "r1").map (·.status) = some .delivered := by
    decide +kernel
  obtain ⟨r, hr, hdelivered⟩ := Option.map_eq_some_iff.mp hstatus
  exact ⟨r, hr, hdelivered, recordings_lawful uploadToDelivery r (Table.find_mem hr).1⟩

end Telegraph
