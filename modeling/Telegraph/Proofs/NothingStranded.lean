import Telegraph.Proofs.RetryPacing

namespace Telegraph
open Lib Program Lib.Retry SqliteStore

/-- The Recording a Transcription tick has claimed. -/
def Transcription.Pc.claim : Pc → Option String
  | .confirming _ id => some id
  | .claimed _ recording _ => some recording.id
  | .started recording _ _ => some recording.id
  | .calling recording _ _ => some recording.id
  | .answered recording _ _ _ _ => some recording.id
  | _ => none

/-- The Delivery a Delivery tick has claimed. -/
def Delivering.Pc.claim : Pc → Option String
  | .claimed _ candidate => some candidate.delivery.id
  | .started candidate _ => some candidate.delivery.id
  | .calling candidate _ => some candidate.delivery.id
  | .answered candidate _ _ _ => some candidate.delivery.id
  | _ => none

namespace Store
variable {s : Store} {x : String}

/-- `transcription_retry_candidates` returns this Recording. -/
def ListsTranscription (s : Store) (x : String) : Prop :=
  ∃ candidates, transcriptionRetryCandidates.run s = (s, .ok candidates) ∧
    ∃ k ∈ candidates, k.recording.id = x

/-- `delivery_candidates` returns this Recording. -/
def ListsDelivery (s : Store) (x : String) : Prop :=
  ∃ candidates, deliveryCandidates.run s = (s, .ok candidates) ∧
    ∃ k ∈ candidates, k.recording.id = x

theorem recording_of_active (h : (s.view.transcriptionLedger x).phase = .active) :
    ∃ r, s.recording x = some r := by
  change (s.view.transcriptionStage x).1 = _ at h
  cases hr : s.recording x with
  | some r => exact ⟨r, rfl⟩
  | none =>
    rw [View.transcriptionStage_of_none (v := s.view) hr] at h
    cases h

theorem delivery_of_active (h : (s.view.deliveryLedger x).phase = .active) :
    ∃ d, s.delivery x = some d := by
  change (s.view.deliveryStage x).1 = _ at h
  cases hd : s.delivery x with
  | some d => exact ⟨d, rfl⟩
  | none =>
    rw [View.deliveryStage_of_none (v := s.view) hd] at h
    cases h

/-- A Delivery has its Recording and its Transcript. -/
theorem parents_of_delivery {d : DeliveryRow} (h : s.view.Lifecycle) (hd : s.delivery x = some d) :
    ∃ r t, s.recording d.recordingId = some r ∧ s.transcript d.recordingId = some t := by
  have hstage := h d.recordingId
  change Stage (s.recording d.recordingId) (s.transcript d.recordingId)
    (s.deliveryFor d.recordingId) at hstage
  rw [deliveryFor_of_delivery hd] at hstage
  cases hr : s.recording d.recordingId with
  | none =>
    rw [hr] at hstage
    cases hstage.2
  | some r =>
    rw [hr] at hstage
    by_cases hs : r.status = .delivering ∨ r.status = .delivered ∨ r.status = .deliveryFailed
    · obtain ⟨t, ht⟩ := Option.isSome_iff_exists.mp (hstage.selected hs).1
      exact ⟨r, t, rfl, ht⟩
    · have hnone : some d = none := by
        cases hst : r.status <;> rw [hst] at hs
        case received => exact (hstage.undecided (Or.inl hst)).2.1
        case transcribing => exact (hstage.undecided (Or.inr (Or.inl hst))).2.1
        case transcriptionFailed => exact (hstage.undecided (Or.inr (Or.inr hst))).2.1
        case routing => exact (hstage.transcribed (Or.inl hst)).2.1
        case backlogged => exact (hstage.transcribed (Or.inr hst)).2.1
        all_goals exact absurd hs (by simp)
      cases hnone

/-- Every row of the retry query becomes a candidate. -/
theorem listsTranscription_of_mem (hs : ∀ x, (s.view.transcriptionLedger x).Sound)
    {row : TranscriptionRetryRow} (hm : row ∈ s.transcriptionRetryRows) :
    s.ListsTranscription row.recordingId := by
  have hread : ∀ row ∈ s.transcriptionRetryRows, Ensures
      (do pure (transcriptionCandidate row (← requireRecording row.recordingId)) :
        Query TranscriptionRetryCandidate) ⟨s, none⟩
      (fun k c => c = ⟨s, none⟩ ∧ k.recording.id = row.recordingId) fun _ _ => False := by
    intro row hm
    obtain ⟨r, hr⟩ := recording_of_active (mem_transcriptionRetryRows hs hm).1
    apply ensures_then
    exact ensures_requireRecording hr ⟨rfl, recording_id hr⟩
  have hrun : transcriptionRetryCandidates.Transacts s
      (fun ks s' => s' = s ∧ ∀ row ∈ s.transcriptionRetryRows, ∃ k ∈ ks,
        k.recording.id = row.recordingId) fun _ => False := by
    apply ensures_read
    refine ensures_weaken (ensures_collect hread) ?_ fun _ _ => False.elim
    rintro ks c ⟨rfl, hks⟩
    exact ⟨rfl, rfl, hks⟩
  rcases hrun.run_cases with ⟨ks, s', hr, rfl, hks⟩ | ⟨_, _, hbad⟩
  · exact ⟨ks, hr, hks row hm⟩
  · exact hbad.elim

/-- Every row of the Delivery query becomes a candidate, of the Delivery's Recording. -/
theorem listsDelivery_of_mem (h : s.view.Lifecycle) (hs : ∀ x, (s.view.deliveryLedger x).Sound)
    {row : DeliveryCandidateRow} (hm : row ∈ s.deliveryCandidateRows) :
    ∃ d, s.delivery row.deliveryId = some d ∧ s.ListsDelivery d.recordingId := by
  have hread : ∀ row ∈ s.deliveryCandidateRows, Ensures (do
        let delivery ← requireDelivery row.deliveryId
        let recording ← requireRecording delivery.recordingId
        let transcript ← requireTranscript delivery.recordingId
        pure (deliveryCandidate row delivery recording transcript) : Query DeliveryCandidate) ⟨s, none⟩
      (fun k c => c = ⟨s, none⟩ ∧ ∃ d, s.delivery row.deliveryId = some d ∧
        k.recording.id = d.recordingId) fun _ _ => False := by
    intro row hm
    obtain ⟨d, hd⟩ := delivery_of_active (mem_deliveryCandidateRows hs hm).1
    obtain ⟨r, t, hr, ht⟩ := parents_of_delivery h hd
    apply ensures_then
    apply ensures_requireDelivery hd
    apply ensures_then
    apply ensures_requireRecording hr
    apply ensures_then
    exact ensures_requireTranscript ht ⟨rfl, d, hd, recording_id hr⟩
  have hrun : deliveryCandidates.Transacts s
      (fun ks s' => s' = s ∧ ∀ row ∈ s.deliveryCandidateRows, ∃ k ∈ ks,
        ∃ d, s.delivery row.deliveryId = some d ∧ k.recording.id = d.recordingId)
      fun _ => False := by
    apply ensures_read
    refine ensures_weaken (ensures_collect hread) ?_ fun _ _ => False.elim
    rintro ks c ⟨rfl, hks⟩
    exact ⟨rfl, rfl, hks⟩
  rcases hrun.run_cases with ⟨ks, s', hr, rfl, hks⟩ | ⟨_, _, hbad⟩
  · obtain ⟨k, hk, d, hd, hid⟩ := hks row hm
    exact ⟨d, hd, ks, hr, k, hk, hid⟩
  · exact hbad.elim

end Store

section Claims

theorem Transcription.Pc.Stands.claim_owner {pc : Transcription.Pc} {slot : Slot String} {x : String}
    (h : pc.Stands slot) (ho : slot.owner = some x) : pc.claim = some x := by
  cases h <;> first | exact ho | cases ho

theorem Transcription.Pc.Stands.claim_claimed {pc : Transcription.Pc} {t : Int} {x : String}
    (h : pc.Stands (.claimed t x)) : pc.claim = some x := by
  cases h <;> rfl

theorem Transcription.Pc.Stands.claim_free {pc : Transcription.Pc} (h : pc.Stands .free) :
    pc.claim = none := by
  cases h <;> rfl

theorem Delivering.Pc.Stands.claim_owner {ι : Type} {d : Board ι Int} {pc : Delivering.Pc}
    {slot : Slot Int} {x : String} (h : pc.Stands d slot) (ho : slot.owner = some x) :
    pc.claim = some x := by
  cases h <;> first | exact ho | cases ho

theorem Delivering.Pc.Stands.claim_free {ι : Type} {d : Board ι Int} {pc : Delivering.Pc}
    (h : pc.Stands d .free) : pc.claim = none := by
  cases h <;> rfl

end Claims

namespace Service
variable {ι : Type} {c c' : Service ι} {b : Board ι String} {d : Board ι Int}
variable {trace events : List Event} {route : Recording → RoutingDecision} {r : RecordingRow}

theorem Accounted.transcribing_active (h : c.Accounted trace b d)
    (hr : r ∈ c.store.recordings.rows) (hst : r.status = .transcribing) :
    (b.items r.id).phase = .active := by
  rw [← h.refines.transcriptions]
  change (c.store.view.transcriptionStage r.id).1 = _
  rw [View.transcriptionStage_of_recording (v := c.store.view) (Store.recording_of_mem hr), hst]
  rfl

/-- A claim without an attempt is some tick's. -/
theorem Accounted.unstarted_claimed (h : c.Accounted trace b d) (hrun : c.running = true)
    (hr : r ∈ c.store.recordings.rows) (hst : r.status = .transcribing)
    (hn : c.store.transcriptionAttempts.attemptsOf r.id = []) :
    ∃ i, (c.transcribers i).claim = some r.id := by
  have hl : b.items r.id = c.store.view.transcriptionLedger r.id := by rw [h.refines.transcriptions]
  obtain ⟨i, t, hi⟩ := h.transcription.taken (h.refines.transcription_running.trans hrun) r.id
    (h.transcribing_active hr hst) (by rw [hl]; exact hn) (by rw [hl]; rfl)
  have hstand := h.refines.transcribers i
  rw [hi] at hstand
  exact ⟨i, hstand.claim_claimed⟩

/-- Transcription never loses a Recording: the retry query returns it or a tick has
claimed it. -/
theorem Accounted.transcribing_kept (h : c.Accounted trace b d) (hrun : c.running = true)
    (hr : r ∈ c.store.recordings.rows) (hst : r.status = .transcribing) :
    c.store.ListsTranscription r.id ∨ ∃ i, (c.transcribers i).claim = some r.id := by
  by_cases hc : (b.items r.id).Closed
  · by_cases hn : c.store.transcriptionAttempts.attemptsOf r.id = []
    · exact Or.inr (h.unstarted_claimed hrun hr hst hn)
    · rw [← h.refines.transcriptions] at hc
      have hsound : ∀ x, (c.store.view.transcriptionLedger x).Sound := by
        intro x
        rw [h.refines.transcriptions]
        exact h.transcription.sound x
      obtain ⟨row, hm, hid⟩ := Store.transcriptionRetryRows_complete (Store.recording_of_mem hr) hst
        hn ((Ledger.closed_iff rfl).mp hc) (hsound r.id)
      exact Or.inl (hid ▸ Store.listsTranscription_of_mem hsound hm)
  · obtain ⟨i, hi⟩ := h.transcription.owned (h.refines.transcription_running.trans hrun) r.id hc
    exact Or.inr ⟨i, (h.refines.transcribers i).claim_owner hi⟩

/-- Delivery never loses a Recording: the candidate query returns it or a tick has
claimed its Delivery. -/
theorem Accounted.delivering_kept (h : c.Accounted trace b d) (hrun : c.running = true)
    (hr : r ∈ c.store.recordings.rows) (hst : r.status = .delivering) :
    c.store.ListsDelivery r.id ∨
      ∃ e i, c.store.deliveryFor r.id = some e ∧ (c.deliverers i).claim = some e.id := by
  have hstage := h.refines.lifecycle r.id
  change Stage (c.store.recording r.id) (c.store.transcript r.id) (c.store.deliveryFor r.id) at hstage
  rw [Store.recording_of_mem hr] at hstage
  obtain ⟨_, e, hfor, hs, _⟩ := hstage.selected (Or.inl hst)
  rw [hst] at hs
  have hdst : e.status = .delivering := by
    cases he : e.status <;> rw [he] at hs <;> first | rfl | cases hs
  have hrid := c.store.view_coherent.deliveryFor_id hfor
  have hdel : c.store.delivery e.id = some e :=
    c.store.view_coherent.delivery_iff.mpr (by rw [hrid]; exact hfor)
  have hl : d.items e.id = c.store.view.deliveryLedger e.id := by rw [h.refines.deliveries]
  by_cases hc : (d.items e.id).Closed
  · rw [hl] at hc
    have hsound : ∀ x, (c.store.view.deliveryLedger x).Sound := by
      intro x
      rw [h.refines.deliveries]
      exact h.delivery.sound x
    obtain ⟨row, hm, hid⟩ := Store.deliveryCandidateRows_complete hdel hdst
      ((Ledger.closed_iff rfl).mp hc)
    obtain ⟨f, hf, hlist⟩ := Store.listsDelivery_of_mem h.refines.lifecycle hsound hm
    rw [hid, hdel] at hf
    cases hf
    rw [hrid] at hlist
    exact Or.inl hlist
  · obtain ⟨i, hi⟩ := h.delivery.owned (h.refines.delivery_running.trans hrun) e.id hc
    exact Or.inr ⟨e, i, hfor, (h.refines.deliverers i).claim_owner hi⟩

/-- Without a tick in progress every attempt is over. -/
theorem Accounted.all_finished (h : c.Accounted trace b d) (hrun : c.running = true)
    (ht : ∀ i, (c.transcribers i).claim = none) (hd : ∀ i, (c.deliverers i).claim = none) :
    (∀ a ∈ c.store.transcriptionAttempts.rows, a.finishedAt ≠ none) ∧
      ∀ a ∈ c.store.deliveryAttempts.rows, a.finishedAt ≠ none := by
  constructor
  · intro a ha
    have hclosed : (b.items a.parentId).Closed := by
      by_contra hc
      obtain ⟨i, hi⟩ := h.transcription.owned (h.refines.transcription_running.trans hrun) _ hc
      have := (h.refines.transcribers i).claim_owner hi
      rw [ht i] at this
      cases this
    rw [← h.refines.transcriptions] at hclosed
    exact hclosed a (Store.mem_attemptsOf.mpr ⟨ha, rfl⟩)
  · intro a ha
    have hclosed : (d.items a.parentId).Closed := by
      by_contra hc
      obtain ⟨i, hi⟩ := h.delivery.owned (h.refines.delivery_running.trans hrun) _ hc
      have := (h.refines.deliverers i).claim_owner hi
      rw [hd i] at this
      cases this
    rw [← h.refines.deliveries] at hclosed
    exact hclosed a (Store.mem_attemptsOf.mpr ⟨ha, rfl⟩)

end Service

/-- Where a Recording may rest between two steps of the service. -/
inductive Place where
  | claimable
  | retried
  | routing
  | delivering
  | parked
deriving DecidableEq, Repr

def Store.Rests (s : Store) (r : RecordingRow) : Place → Prop
  | .claimable => r.status = .received
  | .retried => r.status = .transcribing ∧ s.ListsTranscription r.id
  | .routing => r.status = .routing
  | .delivering => r.status = .delivering ∧ s.ListsDelivery r.id
  | .parked => r.status = .backlogged ∨ r.status = .transcriptionFailed ∨
      r.status = .deliveryFailed ∨ r.status = .delivered

theorem Store.rests_unique {s : Store} {r : RecordingRow}
    (ht : r.status = .transcribing → s.ListsTranscription r.id)
    (hd : r.status = .delivering → s.ListsDelivery r.id) : ∃! p, s.Rests r p := by
  have only : ∀ {p q : Place}, s.Rests r p → s.Rests r q → p = q := by
    intro p q hp hq
    cases p <;> cases q <;> simp only [Rests] at hp hq <;> first | rfl | simp_all
  have rests : ∃ p, s.Rests r p := by
    cases hs : r.status with
    | received => exact ⟨.claimable, hs⟩
    | transcribing => exact ⟨.retried, hs, ht hs⟩
    | routing => exact ⟨.routing, hs⟩
    | delivering => exact ⟨.delivering, hs, hd hs⟩
    | backlogged => exact ⟨.parked, Or.inl hs⟩
    | transcriptionFailed => exact ⟨.parked, Or.inr (Or.inl hs)⟩
    | deliveryFailed => exact ⟨.parked, Or.inr (Or.inr (Or.inl hs))⟩
    | delivered => exact ⟨.parked, Or.inr (Or.inr (Or.inr hs))⟩
  obtain ⟨p, hp⟩ := rests
  exact ⟨p, hp, fun q hq => only hq hp⟩

section Again
variable {s : Store} {now : Int}

theorem Store.updateRecordings_eq_self {p : RecordingRow → Bool} {f : RecordingRow → RecordingRow}
    {h : Table.KeepsKeys RecordingRow.clash f} (hp : ∀ r ∈ s.recordings.rows, p r = false) :
    s.updateRecordings p f h = s :=
  congrArg (fun t => { s with recordings := t }) (Table.update_eq_self hp)

theorem AttemptTable.finish_open_eq_self {δ : Type} {t : AttemptTable δ} {status : AttemptStatus}
    {retryable : Bool} {detail : Attempt δ → Option δ} {message : Option String}
    (h : ∀ a ∈ t.rows, a.finishedAt ≠ none) :
    t.finish (·.finishedAt.isNone) now status retryable detail message = t :=
  Table.update_eq_self fun a ha => by simpa [Option.isSome_iff_ne_none] using h a ha

theorem AttemptTable.inFlight_eq_false {δ : Type} {t : AttemptTable δ}
    (h : ∀ a ∈ t.rows, a.finishedAt ≠ none) (x : String) : t.inFlight x = false :=
  Attempt.anyInFlight_false.mpr fun a ha => h a (Store.mem_attemptsOf.mp ha).1

theorem AttemptTable.count_open_eq_zero {δ : Type} {t : AttemptTable δ}
    (h : ∀ a ∈ t.rows, a.finishedAt ≠ none) : t.count (·.finishedAt.isNone) = 0 := by
  unfold Table.count
  rw [List.filter_eq_nil_iff.mpr fun a ha => by simpa using h a ha]
  rfl

/-- Recovery has nothing to do where no attempt is in flight and no claim is idle. -/
theorem SqliteStore.recover_again (ht : ∀ a ∈ s.transcriptionAttempts.rows, a.finishedAt ≠ none)
    (hd : ∀ a ∈ s.deliveryAttempts.rows, a.finishedAt ≠ none)
    (hu : ∀ r ∈ s.recordings.rows, Unstarted s r = false) (now : Int) :
    ∃ report, (recoverAbandonedAttempts now).run s = (s, .ok report) ∧ report.hasChanges = false := by
  have hclose : closeTranscriptions now s = s := by
    have herr : s.setError (fun r => s.transcriptionAttempts.inFlight r.id) abandonedMessage now = s :=
      Store.updateRecordings_eq_self fun r _ => AttemptTable.inFlight_eq_false ht r.id
    unfold closeTranscriptions
    rw [herr]
    exact congrArg (fun t => { s with transcriptionAttempts := t })
      (AttemptTable.finish_open_eq_self ht)
  have hrevert : revertClaims now s = s := Store.updateRecordings_eq_self hu
  have hclose' : closeDeliveries now s = s := by
    have herr : s.setError (fun r => s.deliveries.rows.any fun d => d.recordingId == r.id &&
        s.deliveryAttempts.inFlight d.id) abandonedMessage now = s := by
      apply Store.updateRecordings_eq_self
      intro r _
      simp [AttemptTable.inFlight_eq_false hd]
    unfold closeDeliveries
    rw [herr]
    exact congrArg (fun t => { s with deliveryAttempts := t }) (AttemptTable.finish_open_eq_self hd)
  have hsame : recovered now s = s := by
    unfold recovered
    rw [hclose, hrevert, hclose']
  have hidle : s.recordings.count (Unstarted s) = 0 := by
    unfold Table.count
    rw [List.filter_eq_nil_iff.mpr fun r hr => by simp [hu r hr]]
    rfl
  have hrun := recover_run now s
  rw [hsame, hclose, AttemptTable.count_open_eq_zero ht, AttemptTable.count_open_eq_zero hd, hidle]
    at hrun
  exact ⟨_, hrun, rfl⟩

end Again

namespace Service
variable {c : Process} {trace : List Event} {route : Recording → RoutingDecision}

/-- No work is ever stranded: a running service can reach every Recording it has
begun, and a restart leaves nothing half done and nothing for a second one to do. -/
theorem nothing_stranded (hr : Run route trace c) :
    (c.running = true → ∀ r ∈ c.store.recordings.rows,
      (r.status = .transcribing →
        c.store.ListsTranscription r.id ∨ (c.transcribers ()).claim = some r.id) ∧
      (r.status = .delivering → c.store.ListsDelivery r.id ∨
        ∃ e, c.store.deliveryFor r.id = some e ∧ (c.deliverers ()).claim = some e.id)) ∧
    ∀ now c' events, c.step route now .recover = some (c', events) →
      (∀ a ∈ c'.store.transcriptionAttempts.rows, a.finishedAt ≠ none) ∧
      (∀ a ∈ c'.store.deliveryAttempts.rows, a.finishedAt ≠ none) ∧
      (∀ r ∈ c'.store.recordings.rows, ∃! p, c'.store.Rests r p) ∧
      ∀ later, ∃ report, (recoverAbandonedAttempts later).run c'.store = (c'.store, .ok report) ∧
        report.hasChanges = false := by
  obtain ⟨_, b, d, h, _, _⟩ := hr.undisturbed
  refine ⟨fun hrun r hm => ⟨fun hst => ?_, fun hst => ?_⟩, fun now c' events hs => ?_⟩
  · exact (h.transcribing_kept hrun hm hst).imp_right fun ⟨_, hi⟩ => hi
  · exact (h.delivering_kept hrun hm hst).imp_right fun ⟨e, _, hi⟩ => ⟨e, hi⟩
  have hu : c.Undisturbed .recover := trivial
  obtain ⟨b', d', h', _, _⟩ := h.step hu hs
  obtain ⟨⟨_, _, hstop⟩, he⟩ := step_some hs
  cases he
  have ht : ∀ i, (c.transcribers i).claim = none := by
    intro i
    have hstand := h.refines.transcribers i
    rw [h.transcription.stopped (h.refines.transcription_running.trans hstop) i] at hstand
    exact hstand.claim_free
  have hd : ∀ i, (c.deliverers i).claim = none := by
    intro i
    have hstand := h.refines.deliverers i
    rw [h.delivery.stopped (h.refines.delivery_running.trans hstop) i] at hstand
    exact hstand.claim_free
  obtain ⟨hta, hda⟩ := h'.all_finished rfl ht hd
  have hlist : ∀ r ∈ (recovered now c.store).recordings.rows, r.status = .transcribing →
      (recovered now c.store).ListsTranscription r.id := by
    intro r hm hst
    rcases h'.transcribing_kept rfl hm hst with hl | ⟨i, hi⟩
    · exact hl
    · cases (ht i).symm.trans hi
  have hlist' : ∀ r ∈ (recovered now c.store).recordings.rows, r.status = .delivering →
      (recovered now c.store).ListsDelivery r.id := by
    intro r hm hst
    rcases h'.delivering_kept rfl hm hst with hl | ⟨e, i, _, hi⟩
    · exact hl
    · cases (hd i).symm.trans hi
  refine ⟨hta, hda, fun r hm => Store.rests_unique (hlist r hm) (hlist' r hm),
    recover_again hta hda fun r hm => ?_⟩
  -- A claim recovery left would be active work that nobody has.
  by_contra hu
  simp only [Unstarted, Bool.not_eq_false, Bool.and_eq_true, beq_iff_eq, List.isEmpty_iff] at hu
  obtain ⟨i, hi⟩ := h'.unstarted_claimed rfl hm hu.1 hu.2
  cases (ht i).symm.trans hi

/-- The process dies while a Delivery attempt is in flight. -/
def lostAttempt : List (Int × Input Unit) :=
  (0, .recover) :: (0, .upload firstUpload) ::
    everySecond 8 1 (.transcribe () "t1" (.ok ⟨"scribe", "hello", "\x7b\x7d", none, none⟩)) ++
    everySecond 6 10 (.route () "d1") ++ everySecond 7 20 (.deliver () "a1" (.ok ())) ++
    [(Duration.seconds 30, .crash)]

theorem nothing_stranded_lost_attempt : ∃ c trace,
    Service.initial.play toNotes lostAttempt = some (c, trace) ∧
      c.store.deliveryAttempts.inFlight "d1" = true ∧
      ∀ now c' events, c.step toNotes now .recover = some (c', events) →
        ∀ r ∈ c'.store.recordings.rows, ∃! p, c'.store.Rests r p := by
  have hp : (Service.initial.play toNotes lostAttempt).map
      (fun r => r.1.store.deliveryAttempts.inFlight "d1") = some true := by
    decide +kernel
  obtain ⟨⟨c, trace⟩, hplay, hopen⟩ := Option.map_eq_some_iff.mp hp
  exact ⟨c, trace, hplay, hopen, fun now c' events hs =>
    ((nothing_stranded (run_of_play hplay)).2 now c' events hs).2.2.1⟩

end Service
end Telegraph
