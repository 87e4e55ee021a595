import Telegraph.Proofs.DeliveryRefines
import Telegraph.Proofs.TranscriptionRefines

namespace Telegraph
open Lib Program Lib.Retry SqliteStore Function

namespace Service
variable {ι : Type} [DecidableEq ι] {c c' : Service ι} {b : Board ι String} {d : Board ι Int}
variable {i : ι} {ht hd : String → List Move}

omit [DecidableEq ι] in
/-- A transaction of no attempt worker: the slots stay as they are. -/
theorem Refines.elsewhere (h : c.Refines b d) (hk : ∀ j, d.Keeps (d.slots j)) {s' : Store}
    {t : String → Ledger String} {e : String → Ledger Int} {routers : ι → Routing.Pc}
    (hr : ∀ j, (routers j).ReadBy c.clock) (hl : c.store.view.Leads s'.view t e)
    (hg : ∀ x, (d.items x).rows.length ≤ (e x).rows.length) :
    ({ c with store := s', routers := routers } : Service ι).Refines { b with items := t }
      { d with items := e } where
  lifecycle := hl.lifecycle h.lifecycle
  deadlines := hl.deadlines h.deadlines
  transcriptions := hl.transcriptions
  deliveries := hl.deliveries
  transcription_clock := h.transcription_clock
  delivery_clock := h.delivery_clock
  transcription_running := h.transcription_running
  delivery_running := h.delivery_running
  transcribers := h.transcribers
  routers := hr
  deliverers j := stands_mono (h.deliverers j) (hk j) hg

/-- A step that neither board notices. -/
theorem Refines.unnoticed (h : c.Refines b d) (hk : ∀ j, d.Keeps (d.slots j)) {s' : Store}
    {routers : ι → Routing.Pc} (hr : ∀ j, (routers j).ReadBy c.clock)
    (hl : c.store.view.Leads s'.view c.store.view.transcriptionLedger c.store.view.deliveryLedger) :
    Matches b d ({ c with store := s', routers := routers }, []) := by
  rw [h.transcriptions, h.deliveries] at hl
  exact ⟨b, d, .still, .still, h.elsewhere hk hr hl fun _ => Nat.le_refl _⟩

/-- Selecting a Sink opens a Delivery. -/
theorem Refines.selects (h : c.Refines b d) (hk : ∀ j, d.Keeps (d.slots j)) {s' : Store}
    {routers : ι → Routing.Pc} (hr : ∀ j, (routers j).ReadBy c.clock) {new : NewDelivery}
    {r : RecordingRow}
    (hdl : new.retryDeadlineAt = some (new.selectedAt + Retry.deliveryWindow))
    (hle : new.selectedAt ≤ c.clock) (hst : r.status = .routing ∨ r.status = .backlogged)
    (hs : Selects c.store new r s') :
    Matches b d ({ c with store := s', routers := routers }, []) := by
  have hl := Store.leads_select hdl hst hs
  have hwait : (c.store.view.deliveryLedger new.id).phase = .waiting := by
    change (c.store.view.deliveryStage new.id).1 = _
    rw [View.deliveryStage_of_none (v := c.store.view) hs.2.1]
  rw [h.transcriptions, h.deliveries] at hl
  rw [h.deliveries] at hwait
  refine ⟨b, d.put new.id ((d.items new.id).enter (some new.selectedAt)), .still,
    .select new.id new.selectedAt hwait (by rw [h.delivery_clock]; exact hle),
    h.elsewhere hk hr hl fun x => ?_⟩
  by_cases hx : x = new.id
  · subst x
    rw [update_self]
    exact Nat.le_refl _
  · rw [update_of_ne hx]

omit [DecidableEq ι] in
theorem leads_backlog {x : String} {r : RecordingRow} {t : Int} {s s' : Store}
    (hr : s.recording x = some r) (hst : r.status = .routing)
    (hv : s'.view = s.view.withRecording (r.moved .backlogged t)) :
    s.view.Leads s'.view s.view.transcriptionLedger s.view.deliveryLedger := by
  rw [hv]
  refine Store.leads_recording (q := r.moved .backlogged t) (r := r) ?_ ?_ rfl fun h =>
    Store.backlog_lifecycle h hr hst
  · change s.recording r.id = some r
    rw [Store.recording_id hr]
    exact hr
  · rw [hst]
    rfl

/-- Every step of a routing tick is a step on the boards. -/
theorem Refines.routes (h : c.Refines b d) (hk : ∀ j, d.Keeps (d.slots j))
    (route : Recording → RoutingDecision) (id : String) :
    Matches b d (c.settle (onRouter · i)
      ((Routing.action route ⟨c.clock, id, ()⟩ (c.routers i)).run c.store)) := by
  have placed : ∀ pc : Routing.Pc, pc.ReadBy c.clock → ∀ j, (update c.routers i pc j).ReadBy c.clock := by
    intro pc hp j
    by_cases hj : j = i
    · subst j
      rw [update_self]
      exact hp
    · rw [update_of_ne hj]
      exact h.routers j
  have quiet : ∀ pc : Routing.Pc, pc.ReadBy c.clock → Matches b d (c.onRouter i pc, []) :=
    fun pc hp => h.unnoticed hk (placed pc hp) (.refl _)
  have hread := h.routers i
  generalize c.routers i = pc at hread ⊢
  cases pc with
  | ready last => exact quiet _ (le_refl _)
  | began now =>
    rcases @Routing.began_run c.store route ⟨c.clock, id, ()⟩ now with ⟨x, _, hrun⟩ | hrun <;> rw [hrun]
    · exact quiet _ hread
    · exact quiet _ trivial
  | confirming now x =>
    refine h.settles (requireRecording_transacts.returning _) fun next events s' hok => ?_
    obtain ⟨_, hnext, rfl, _⟩ := hok
    cases hnext
    exact quiet _ hread
  | deciding now recording =>
    unfold Routing.action
    dsimp only
    cases route recording with
    | backlog => exact quiet _ hread
    | sink name => exact quiet _ hread
  | backlogging now x =>
    rcases @Routing.backlogging_run c.store route ⟨c.clock, id, ()⟩ now x with
      ⟨r, s', hr, hst, hv, hrun⟩ | ⟨r, _, _, hrun⟩ | ⟨_, hrun⟩ <;> rw [hrun]
    · exact h.unnoticed hk (placed _ trivial) (leads_backlog hr hst hv)
    · exact quiet _ trivial
    · exact h.matches_stopped
  | selecting now x name =>
    rcases @Routing.selecting_run c.store route ⟨c.clock, id, ()⟩ now x name with
      ⟨r, s', hst, hs, hrun⟩ | ⟨_, hrun⟩ | ⟨v, r, _, _, _, hrun⟩ <;> rw [hrun]
    · have hle : (Routing.newDelivery id x name now).selectedAt ≤ c.clock := hread
      exact h.selects hk (placed _ trivial) rfl hle (Or.inl hst) hs
    · exact quiet _ trivial
    · exact h.matches_stopped
  | confirmingBacklog x =>
    refine h.settles (requireRecording_transacts.returning _) fun next events s' hok => ?_
    obtain ⟨_, hnext, rfl, _⟩ := hok
    cases hnext
    exact quiet _ trivial
  | confirmingDelivery x =>
    refine h.settles (requireDelivery_transacts.returning _) fun next events s' hok => ?_
    obtain ⟨_, hnext, rfl, _⟩ := hok
    cases hnext
    exact quiet _ trivial

omit [DecidableEq ι] in
/-- A request either commits, and shows what it did, or leaves everything alone. -/
theorem answer_cases {α : Type} {events : α → List Event} {tx : Query α} {ok : α → Store → Prop}
    {bad : StorageError → Prop} (h : tx.Transacts c.store ok bad) :
    (∃ a s', ok a s' ∧ c.answer events (tx.run c.store) = ({ c with store := s' }, events a)) ∨
    c.answer events (tx.run c.store) = (c, []) := by
  rcases h.run_cases with ⟨a, s', hr, hok⟩ | ⟨e, hr, _⟩
  · exact Or.inl ⟨a, s', hok, by rw [hr]; rfl⟩
  · exact Or.inr (by rw [hr]; rfl)

theorem Refines.matches_still (h : c.Refines b d) : Matches b d (c, []) :=
  ⟨b, d, .still, .still, h⟩

theorem Refines.uploads (h : c.Refines b d) (hk : ∀ j, d.Keeps (d.slots j)) (new : NewRecording) :
    Matches b d (c.answer (fun _ => []) ((insertRecording new).run c.store)) := by
  rcases @answer_cases _ c _ (fun _ => []) _ _ _ insertRecording_transacts with
    ⟨n, s', ⟨_, rfl, _⟩ | ⟨_, hv, hn, _⟩, he⟩ | he <;> rw [he]
  · exact h.matches_still
  · refine h.unnoticed hk h.routers ?_
    rw [hv]
    exact Store.leads_create hn
  · exact h.matches_still

theorem Refines.routesManually (h : c.Refines b d) (hk : ∀ j, d.Keeps (d.slots j))
    {input : ManualRoute} (hle : input.selectedAt ≤ c.clock)
    (hdl : input.retryDeadlineAt = input.selectedAt + Retry.deliveryWindow) :
    Matches b d (c.answer (fun _ => []) ((SqliteStore.manualRoute input).run c.store)) := by
  rcases @answer_cases _ c _ (fun _ => []) _ _ _ manualRoute_transacts with
    ⟨q, s', ⟨r, hst, hs⟩, he⟩ | he <;> rw [he]
  · exact h.selects hk h.routers (congrArg some hdl) hle (Or.inr hst) hs
  · exact h.matches_still

theorem Refines.reopensTranscription (h : c.Refines b d) (hk : ∀ j, d.Keeps (d.slots j))
    {input : ManualRetryTranscription} (hle : input.at_ ≤ c.clock) :
    Matches b d (c.answer (fun recording => [.reopened (.transcription recording.id) input.at_])
      ((SqliteStore.manualRetryTranscription input).run c.store)) := by
  rcases @answer_cases _ c _ (fun recording : Recording =>
      [Event.reopened (.transcription recording.id) input.at_]) _ _ _
      manualRetryTranscription_transacts with ⟨q, s', ⟨hid, r, hr, hst, hv⟩, he⟩ | he <;> rw [he]
  · have hl := Store.leads_reopenTranscription hr hst
    rw [← hv, h.transcriptions, h.deliveries] at hl
    have hphase : (b.items input.recordingId).phase = .failed := by
      rw [← h.transcriptions]
      change (c.store.view.transcriptionStage input.recordingId).1 = _
      rw [View.transcriptionStage_of_recording (v := c.store.view) hr, hst]
      rfl
    have hmoves := history_only (m := .reopened input.at_) (x := input.recordingId)
      .transcription transcription_injective (e := .reopened (.transcription input.recordingId) input.at_)
      fun _ => rfl
    have hquiet := history_other (m := .reopened input.at_) (x := input.recordingId)
      .transcription .delivery (e := .reopened (.transcription input.recordingId) input.at_)
      (fun _ => by simp) fun _ => rfl
    rw [hid]
    refine ⟨b.put input.recordingId ((b.items input.recordingId).reopen input.at_), d, ?_, ?_,
      h.elsewhere hk h.routers hl fun _ => Nat.le_refl _⟩
    · rw [hmoves]
      exact .reopen _ _ hphase (h.transcription_clock ▸ hle)
    · rw [hquiet]
      exact .still
  · exact h.matches_still

/-- A failed Recording's Delivery has failed. -/
theorem reopening_failed {s : Store} {x : String} {r : RecordingRow} {dl : DeliveryRow}
    (h : s.view.Lifecycle) (hr : s.recording x = some r) (hst : r.status = .deliveryFailed)
    (hfor : s.deliveryFor x = some dl) : (s.view.deliveryLedger dl.id).phase = .failed := by
  have hstage := h x
  change Stage (s.recording x) _ (s.deliveryFor x) at hstage
  rw [hr, hfor] at hstage
  obtain ⟨_, e, he, hs, _⟩ := hstage.selected (Or.inr (Or.inr hst))
  obtain rfl := Option.some.inj he
  have hd : s.delivery dl.id = some dl :=
    s.view_coherent.delivery_iff.mpr (by rw [s.view_coherent.deliveryFor_id hfor]; exact hfor)
  change (s.view.deliveryStage dl.id).1 = _
  rw [View.deliveryStage_of_delivery (v := s.view) hd]
  rw [hst] at hs
  cases hd : dl.status <;> rw [hd] at hs <;> first | rfl | cases hs

theorem Refines.reopensDelivery (h : c.Refines b d) (hk : ∀ j, d.Keeps (d.slots j))
    {input : ManualRetryDelivery} (hle : input.at_ ≤ c.clock)
    (hdl : input.retryDeadlineAt = input.at_ + Retry.deliveryWindow) :
    Matches b d (c.answer (fun delivery => [.reopened (.delivery delivery.id) input.at_])
      ((SqliteStore.manualRetryDelivery input).run c.store)) := by
  rcases @answer_cases _ c _ (fun delivery : Delivery =>
      [Event.reopened (.delivery delivery.id) input.at_]) _ _ _
      manualRetryDelivery_transacts with ⟨q, s', ⟨r, dl, hid, hr, hst, hfor, hv⟩, he⟩ | he <;> rw [he]
  · have hl := Store.leads_reopenDelivery hdl hr hst hfor
    rw [← hv, h.transcriptions, h.deliveries] at hl
    have hphase : (d.items dl.id).phase = .failed := by
      rw [← h.deliveries]
      exact reopening_failed h.lifecycle hr hst hfor
    have hmoves := history_only (m := .reopened input.at_) (x := dl.id)
      .delivery delivery_injective (e := .reopened (.delivery dl.id) input.at_) fun _ => rfl
    have hquiet := history_other (m := .reopened input.at_) (x := dl.id)
      .delivery .transcription (e := .reopened (.delivery dl.id) input.at_) (fun _ => by simp)
      fun _ => rfl
    rw [hid]
    refine ⟨b, d.put dl.id ((d.items dl.id).reopen input.at_), ?_, ?_,
      h.elsewhere hk h.routers hl fun x => ?_⟩
    · rw [hquiet]
      exact .still
    · rw [hmoves]
      exact .reopen _ _ hphase (h.delivery_clock ▸ hle)
    · by_cases hx : x = dl.id
      · subst x
        rw [update_self]
        exact Nat.le_refl _
      · rw [update_of_ne hx]
  · exact h.matches_still

section Recovery
variable {δ : Type} (item : String → Item) (t : AttemptTable δ) (now : Int)

omit [DecidableEq ι] in
/-- What recovery shows of one piece of work. -/
theorem history_abandonments (hk : Injective item) (x : String) :
    history (item x) (abandonments item t now) =
      ((t.attemptsOf x).filter (·.finishedAt.isNone)).map fun _ => .finished now .abandoned := by
  unfold history abandonments AttemptTable.attemptsOf
  rw [List.filterMap_map]
  induction t.rows with
  | nil => rfl
  | cons a rows ih =>
    by_cases hp : a.parentId = x
    · subst hp
      by_cases ho : a.finishedAt.isNone
      · simpa [ho, Event.move] using ih
      · simpa [ho] using ih
    · have hi : item a.parentId ≠ item x := fun he => hp (hk he)
      by_cases ho : a.finishedAt.isNone
      · simpa [ho, hp, hi, Event.move] using ih
      · simpa [ho, hp] using ih

omit [DecidableEq ι] in
theorem history_abandonments_other (other : String → Item) (hk : ∀ x y, item x ≠ other y)
    (x : String) : history (other x) (abandonments item t now) = [] := by
  unfold history abandonments
  rw [List.filterMap_map]
  apply List.filterMap_eq_nil_iff.mpr
  intro a _
  simp [Event.move, hk]

end Recovery

omit [DecidableEq ι] in
theorem abandoned_ended {δ : Type} (now : Int) (detail : Attempt δ → Option δ) :
    abandoned now detail = fun a => if a.finishedAt.isNone then
      a.ended now .abandoned (detail a) (some abandonedMessage) else a :=
  rfl

theorem Refines.recovers (h : c.Refines b d) (hk : ∀ j, d.Keeps (d.slots j))
    (hstop : c.running = false) :
    Matches b d
      ({ c with store := ((recoverAbandonedAttempts c.clock).run c.store).1, running := true },
        abandonments .transcription c.store.transcriptionAttempts c.clock ++
          abandonments .delivery c.store.deliveryAttempts c.clock) := by
  have hl := Store.leads_recover c.clock c.store
  rw [abandoned_ended, abandoned_ended, h.transcriptions, h.deliveries] at hl
  refine ⟨{ b with
      items := fun x => (b.items x).recover fun a => if a.finishedAt.isNone then
        a.ended c.clock .abandoned (some "abandoned") (some abandonedMessage) else a
      running := true }, { d with
      items := fun x => (d.items x).recover fun a => if a.finishedAt.isNone then
        a.ended c.clock .abandoned a.detail (some abandonedMessage) else a
      running := true }, ?_, ?_, ?_⟩
  · have hmoves : (fun x => history (.transcription x)
        (abandonments .transcription c.store.transcriptionAttempts c.clock ++
          abandonments .delivery c.store.deliveryAttempts c.clock)) = b.abandons := by
      funext x
      rw [history_append, history_abandonments _ _ _ transcription_injective,
        history_abandonments_other _ _ _ _ (fun _ _ => by simp), List.append_nil]
      unfold Board.abandons
      rw [← h.transcriptions, h.transcription_clock]
      rfl
    rw [hmoves, ← h.transcription_clock]
    exact .recover (fun _ => some "abandoned") (some abandonedMessage)
      (h.transcription_running.trans hstop)
  · have hmoves : (fun x => history (.delivery x)
        (abandonments .transcription c.store.transcriptionAttempts c.clock ++
          abandonments .delivery c.store.deliveryAttempts c.clock)) = d.abandons := by
      funext x
      rw [history_append, history_abandonments _ _ _ delivery_injective,
        history_abandonments_other _ _ _ _ (fun _ _ => by simp), List.nil_append]
      unfold Board.abandons
      rw [← h.deliveries, h.delivery_clock]
      rfl
    rw [hmoves, ← h.delivery_clock]
    exact .recover (·.detail) (some abandonedMessage) (h.delivery_running.trans hstop)
  · exact {
      lifecycle := hl.lifecycle h.lifecycle
      deadlines := hl.deadlines h.deadlines
      transcriptions := hl.transcriptions
      deliveries := hl.deliveries
      transcription_clock := h.transcription_clock
      delivery_clock := h.delivery_clock
      transcription_running := rfl
      delivery_running := rfl
      transcribers := h.transcribers
      routers := h.routers
      deliverers := fun j => stands_mono (h.deliverers j) (hk j) fun x => by
        change _ ≤ (List.map _ (d.items x).rows).length
        rw [List.length_map] }

omit [DecidableEq ι] in
/-- Only the clock moves on. -/
theorem Refines.pass (h : c.Refines b d) (hk : ∀ j, d.Keeps (d.slots j)) {now : Int}
    (hle : c.clock ≤ now) :
    ({ c with clock := now } : Service ι).Refines { b with clock := now } { d with clock := now } where
  lifecycle := h.lifecycle
  deadlines := h.deadlines
  transcriptions := h.transcriptions
  deliveries := h.deliveries
  transcription_clock := rfl
  delivery_clock := rfl
  transcription_running := h.transcription_running
  delivery_running := h.delivery_running
  transcribers := h.transcribers
  routers i := by
    have hread := h.routers i
    change (c.routers i).ReadBy now
    generalize c.routers i = pc at hread ⊢
    cases pc with
    | began | confirming | deciding | backlogging | selecting =>
      exact hread.trans hle
    | _ => trivial
  deliverers i := stands_mono (h.deliverers i) (hk i) fun _ => Nat.le_refl _

/-- One step of the service is one step on each board. -/
theorem Refines.steps {hb hd : String → List Move} (h : c.Refines b d)
    (route : Recording → RoutingDecision) (hbi : b.Inv Retry.policy hb) (hdi : d.Inv Retry.policy hd)
    {now : Int} {input : Input ι} (hu : c.Undisturbed input) (hle : c.clock ≤ now)
    (hy : Timestamp.InYears now) (ha : c.Admits now input) :
    Matches { b with clock := now } { d with clock := now }
      (apply route { c with clock := now } now input) := by
  have hp := h.pass hdi.keeps hle
  have hbp := hbi.pass (h.transcription_clock ▸ hle)
  have hdp := hdi.pass (h.delivery_clock ▸ hle)
  cases input with
  | transcribe i id reply => exact hp.transcribes hbp ha hy id reply hu
  | route i id => exact hp.routes hdp.keeps route id
  | deliver i id reply => exact hp.delivers hdp ha hy id reply hu
  | upload new => exact hp.uploads hdp.keeps new
  | manualRoute input =>
    obtain ⟨_, hsel, _, hdl⟩ := ha
    exact hp.routesManually hdp.keeps hsel hdl
  | manualRetryTranscription input => exact hp.reopensTranscription hdp.keeps ha.2.1
  | manualRetryDelivery input =>
    obtain ⟨_, hat, _, hdl⟩ := ha
    exact hp.reopensDelivery hdp.keeps hat hdl
  | refuse | crash => exact hp.matches_stopped
  | recover => exact hp.recovers hdp.keeps ha

end Service
end Telegraph
