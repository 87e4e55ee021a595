import Telegraph.Dispatch
import Telegraph.Proofs.Refines
import Telegraph.Proofs.Lifecycle

namespace Telegraph
open Lib Program SqliteStore Function

def Store.statusOf (s : Store) (x : String) : Option RecordingStatus := (s.recording x).map (·.status)

namespace Store
variable {s s' : Store} {x : String} {r : RecordingRow}

theorem statusOf_eq (h : s.recording x = some r) : s.statusOf x = some r.status := by
  rw [statusOf, h]
  rfl

theorem statusOf_ne {status : RecordingStatus}
    (h : ∀ r, s.recording x = some r → r.status ≠ status) : s.statusOf x ≠ some status := by
  intro hs
  obtain ⟨r, hr, hst⟩ := Option.map_eq_some_iff.mp hs
  exact h r hr hst

end Store

namespace Caller
variable {s s' : Store} {c c' : Caller}

/-- What one step of a caller can do, with everything it checked. -/
inductive Moves (s : Store) : Caller → Store → Caller → Prop where
  | begins {last : Option WorkOutcome} {now : Int} :
      Moves s (tick (.ready last)) s (tick (.began now))
  | finds {now : Int} {x : String} (found : s.statusOf x = some .routing) :
      Moves s (tick (.began now)) s (tick (.confirming now x))
  | idles {now : Int} : Moves s (tick (.began now)) s (tick (.ready (some .idle)))
  | loads {now : Int} {x : String} {r : RecordingRow} (found : s.recording x = some r) :
      Moves s (tick (.confirming now x)) s (tick (.deciding now r.toRecording))
  | unread {now : Int} {x : String} {e : StorageError} (missing : s.recording x = none) :
      Moves s (tick (.confirming now x)) s (failed e)
  | forBacklog {now : Int} {recording : Recording} :
      Moves s (tick (.deciding now recording)) s (tick (.backlogging now recording.id))
  | forSink {now : Int} {recording : Recording} {sink : String} :
      Moves s (tick (.deciding now recording)) s (tick (.selecting now recording.id sink))
  | backlogs {now : Int} {x : String} {r : RecordingRow} {s' : Store}
      (found : s.recording x = some r) (routing : r.status = .routing)
      (after : s'.view = s.view.withRecording (r.moved .backlogged now)) :
      Moves s (tick (.backlogging now x)) s' (tick (.confirmingBacklog x))
  | backlogLost {now : Int} {x : String} {r : RecordingRow}
      (found : s.recording x = some r) (gone : r.status ≠ .routing) :
      Moves s (tick (.backlogging now x)) s (tick (.ready (some .worked)))
  | backlogMissing {now : Int} {x : String} {e : StorageError} (missing : s.recording x = none) :
      Moves s (tick (.backlogging now x)) s (failed e)
  | selects {now : Int} {x sink id : String} {r : RecordingRow} {s' : Store}
      (routing : r.status = .routing) (after : Selects s (Routing.newDelivery id x sink now) r s') :
      Moves s (tick (.selecting now x sink)) s' (tick (.confirmingDelivery id))
  | selectLost {now : Int} {x sink : String} (gone : s.statusOf x ≠ some .routing) :
      Moves s (tick (.selecting now x sink)) s (tick (.ready (some .worked)))
  | selectRefused {now : Int} {x sink id : String} {v : DatabaseError}
      (routing : s.statusOf x = some .routing) (taken : Taken s (Routing.newDelivery id x sink now)) :
      Moves s (tick (.selecting now x sink)) s (failed (.database v))
  | readsBacklog {x : String} {r : RecordingRow} (found : s.recording x = some r) :
      Moves s (tick (.confirmingBacklog x)) s (tick (.ready (some .worked)))
  | backlogUnread {x : String} {e : StorageError} (missing : s.recording x = none) :
      Moves s (tick (.confirmingBacklog x)) s (failed e)
  | readsDelivery {id : String} {d : DeliveryRow} (found : s.delivery id = some d) :
      Moves s (tick (.confirmingDelivery id)) s (tick (.ready (some .worked)))
  | deliveryUnread {id : String} {e : StorageError} (missing : s.delivery id = none) :
      Moves s (tick (.confirmingDelivery id)) s (failed e)
  | routes {input : ManualRoute} {r : RecordingRow} {s' : Store} (backlogged : r.status = .backlogged)
      (after : Selects s (manualDelivery input) r s') :
      Moves s (operator input) s' (reading input)
  | routeMissing {input : ManualRoute} (missing : s.recording input.recordingId = none) :
      Moves s (operator input) s (refused (.recordingNotFound input.recordingId))
  | routeLost {input : ManualRoute} {r : RecordingRow} (found : s.recording input.recordingId = some r)
      (gone : r.status ≠ .backlogged) :
      Moves s (operator input) s (refused (.recordingNotBacklogged input.recordingId r.status))
  | routeRefused {input : ManualRoute} {v : DatabaseError}
      (backlogged : s.statusOf input.recordingId = some .backlogged) :
      Moves s (operator input) s (refused (.database v))
  | reads {input : ManualRoute} {d : DeliveryRow} (found : s.delivery input.deliveryId = some d) :
      Moves s (reading input) s (routed d.toDelivery)
  | readMissing {input : ManualRoute} {e : StorageError} (missing : s.delivery input.deliveryId = none) :
      Moves s (reading input) s (refused e)

/-- A tick's transaction, seen through what it ensures. -/
theorem transact_moves {pc : Routing.Pc} {tx : Query (Routing.Pc × List Event)}
    {ok : Routing.Pc × List Event → Store → Prop} {bad : StorageError → Prop}
    (ht : tx.Transacts s ok bad) (hok : ∀ r s', ok r s' → Moves s (tick pc) s' (tick r.1))
    (hbad : ∀ e, bad e → Moves s (tick pc) s (failed e)) {s' : Store} {c' : Caller}
    (h : (match (transact tx).run s with
      | (s', .ok (next, _)) => some (s', tick next)
      | (s', .error e) => some (s', failed e)) = some (s', c')) : Moves s (tick pc) s' c' := by
  unfold transact Action.run at h
  rcases ht.run_cases with ⟨r, s₁, hr, hp⟩ | ⟨e, hr, hp⟩
  · simp only [hr] at h
    cases h
    exact hok r _ hp
  · simp only [hr] at h
    cases h
    exact hbad e hp

theorem advance_moves {route : Recording → RoutingDecision} {supply : Supply Unit}
    (h : c.advance route supply s = some (s', c')) : Moves s c s' c' := by
  cases c with
  | tick pc =>
    cases pc with
    | ready last =>
      cases h
      exact .begins
    | began now =>
      unfold advance at h
      rcases @Routing.began_run s route supply now with ⟨x, ho, hrun⟩ | hrun
      · simp only [hrun] at h
        cases h
        obtain ⟨r, hr, hst⟩ := Store.oldestWithStatus_some ho
        exact .finds (hst ▸ Store.statusOf_eq hr)
      · simp only [hrun] at h
        cases h
        exact .idles
    | confirming now id =>
      refine transact_moves (requireRecording_transacts.returning _) ?_ (fun _ => .unread) h
      rintro _ s' ⟨r, rfl, rfl, row, hrow, rfl⟩
      exact .loads hrow
    | deciding now recording =>
      simp only [advance, Routing.action] at h
      cases hroute : route recording with
      | backlog =>
        simp only [hroute] at h
        cases h
        exact .forBacklog
      | sink name =>
        simp only [hroute] at h
        cases h
        exact .forSink
    | backlogging now x =>
      unfold advance at h
      rcases @Routing.backlogging_run s route supply now x with
        ⟨r, s₁, hr, hst, hv, hrun⟩ | ⟨r, hr, hst, hrun⟩ | ⟨hn, hrun⟩
      · simp only [hrun] at h
        cases h
        exact .backlogs hr hst hv
      · simp only [hrun] at h
        cases h
        exact .backlogLost hr hst
      · simp only [hrun] at h
        cases h
        exact .backlogMissing hn
    | selecting now x sink =>
      unfold advance at h
      rcases @Routing.selecting_run s route supply now x sink with
        ⟨r, s₁, hst, hsel, hrun⟩ | ⟨hst, hrun⟩ | ⟨v, r, hr, hst, htaken, hrun⟩
      · simp only [hrun] at h
        cases h
        exact .selects hst hsel
      · simp only [hrun] at h
        cases h
        exact .selectLost (Store.statusOf_ne hst)
      · simp only [hrun] at h
        cases h
        exact .selectRefused (hst ▸ Store.statusOf_eq hr) htaken
    | confirmingBacklog id =>
      refine transact_moves (requireRecording_transacts.returning _) ?_ (fun _ => .backlogUnread) h
      rintro _ s' ⟨r, rfl, rfl, row, hrow, rfl⟩
      exact .readsBacklog hrow
    | confirmingDelivery id =>
      refine transact_moves (requireDelivery_transacts.returning _) ?_ (fun _ => .deliveryUnread) h
      rintro _ s' ⟨r, rfl, rfl, row, hrow, rfl⟩
      exact .readsDelivery hrow
  | operator input =>
    unfold advance at h
    rcases (manualRouteTx_transacts : (manualRouteTx input).Transacts s _ _).run_cases with
      ⟨_, s₁, hr, r, hst, hsel⟩ | ⟨e, hr, hbad⟩
    · simp only [hr] at h
      cases h
      exact .routes hst hsel
    · simp only [hr] at h
      cases h
      rcases hbad with ⟨hn, rfl⟩ | ⟨r, hrow, ⟨hst, rfl⟩ | ⟨hst, v, rfl⟩⟩
      · exact .routeMissing hn
      · exact .routeLost hrow hst
      · exact .routeRefused (hst ▸ Store.statusOf_eq hrow)
  | reading input =>
    unfold advance at h
    rcases (requireDelivery_transacts : (requireDelivery input.deliveryId).Transacts s _ _).run_cases with
      ⟨d, s₁, hr, rfl, row, hrow, rfl⟩ | ⟨e, hr, hbad⟩
    · simp only [hr] at h
      cases h
      exact .reads hrow
    · simp only [hr] at h
      cases h
      exact .readMissing hbad
  | failed e => cases h
  | routed d => cases h
  | refused e => cases h

/-- About to commit a decision for the Recording. -/
def Decides (x : String) : Caller → Prop
  | tick (.backlogging _ y) => y = x
  | tick (.selecting _ y _) => y = x
  | _ => False

/-- About to route the Recording by hand. -/
def Routes (x : String) : Caller → Prop
  | operator input => input.recordingId = x
  | _ => False

section Changes
variable {x y : String} {q r : RecordingRow}

theorem status_of_update (h : s'.recording = update s.recording q.id (some q)) (y : String) :
    s'.statusOf y = if y = q.id then some q.status else s.statusOf y := by
  unfold Store.statusOf
  rw [h]
  split
  · next hy => rw [hy, update_self, Option.map_some]
  · next hy => rw [update_of_ne hy]

theorem recording_of_selects {new : NewDelivery} (h : Selects s new r s') :
    s'.recording = update s.recording ((r.withSink new.sinkName).moved .delivering new.selectedAt).id
      (some ((r.withSink new.sinkName).moved .delivering new.selectedAt)) :=
  congrArg View.recording h.2.2.2

theorem deliveryFor_of_selects {new : NewDelivery} (h : Selects s new r s') :
    s'.deliveryFor = update s.deliveryFor new.recordingId (some (deliveryRow new)) :=
  congrArg View.deliveryFor h.2.2.2

theorem delivery_of_selects {new : NewDelivery} (h : Selects s new r s') :
    s'.delivery = update s.delivery new.id (some (deliveryRow new)) :=
  congrArg View.delivery h.2.2.2

/-- What a selection of a Sink changes of any Recording's status and Deliveries. -/
theorem selects_changes {new : NewDelivery} (h : Selects s new r s') (y : String) :
    (y ≠ new.recordingId ∧ s'.statusOf y = s.statusOf y ∧ s'.deliveriesOf y = s.deliveriesOf y) ∨
      (y = new.recordingId ∧ s.statusOf y = some r.status ∧ s'.statusOf y = some .delivering ∧
        s.deliveriesOf y = [] ∧ s'.deliveriesOf y ≠ []) := by
  have hid : r.id = new.recordingId := Store.recording_id h.1
  have hst := status_of_update (recording_of_selects h) y
  change _ = if y = r.id then some RecordingStatus.delivering else _ at hst
  rw [hid] at hst
  rw [Store.deliveriesOf_eq, Store.deliveriesOf_eq, deliveryFor_of_selects h]
  by_cases hy : y = new.recordingId
  · subst hy
    rw [if_pos rfl] at hst
    refine Or.inr ⟨rfl, Store.statusOf_eq h.1, hst, ?_, ?_⟩
    · rw [h.2.2.1, Option.toList_none]
    · rw [update_self, Option.toList_some]
      exact List.cons_ne_nil _ _
  · rw [if_neg hy] at hst
    rw [update_of_ne hy]
    exact Or.inl ⟨hy, hst, rfl⟩

theorem backlogs_changes {now : Int} (hr : s.recording x = some r)
    (h : s'.view = s.view.withRecording (r.moved .backlogged now)) (y : String) :
    s'.deliveriesOf y = s.deliveriesOf y ∧ s'.delivery = s.delivery ∧
      s'.statusOf y = if y = x then some .backlogged else s.statusOf y := by
  have hst := status_of_update (q := r.moved .backlogged now) (congrArg View.recording h) y
  change _ = if y = r.id then some RecordingStatus.backlogged else _ at hst
  rw [Store.recording_id hr] at hst
  refine ⟨?_, congrArg View.delivery h, hst⟩
  rw [Store.deliveriesOf_eq, Store.deliveriesOf_eq,
    show s'.deliveryFor = s.deliveryFor from congrArg View.deliveryFor h]

end Changes

/-- A step leaves the Recording's status and Deliveries alone, takes it out of
`routing` by a tick's decision, or routes it from the Backlog by hand. -/
inductive Touches (x : String) (s : Store) (c : Caller) (s' : Store) : Prop where
  | leaves (status : s'.statusOf x = s.statusOf x) (rows : s'.deliveriesOf x = s.deliveriesOf x)
  | backlogs (tick : c.Decides x) (before : s.statusOf x = some .routing)
      (after : s'.statusOf x = some .backlogged) (rows : s'.deliveriesOf x = s.deliveriesOf x)
  | selects (tick : c.Decides x) (before : s.statusOf x = some .routing)
      (after : s'.statusOf x = some .delivering) (empty : s.deliveriesOf x = [])
      (filled : s'.deliveriesOf x ≠ [])
  | routes (operator : c.Routes x) (before : s.statusOf x = some .backlogged)
      (after : s'.statusOf x = some .delivering) (empty : s.deliveriesOf x = [])
      (filled : s'.deliveriesOf x ≠ [])

theorem Moves.touches (h : Moves s c s' c') (x : String) : Touches x s c s' := by
  cases h with
  | @backlogs now y r _ found routing after =>
    obtain ⟨hd, -, hst⟩ := backlogs_changes found after x
    by_cases hx : x = y
    · subst hx
      rw [if_pos rfl] at hst
      exact .backlogs rfl (routing ▸ Store.statusOf_eq found) hst hd
    · rw [if_neg hx] at hst
      exact .leaves hst hd
  | @selects now y sink id r _ routing after =>
    rcases selects_changes after x with ⟨-, hst, hd⟩ | ⟨hx, hst, hst', hd, hd'⟩
    · exact .leaves hst hd
    · exact .selects hx.symm (routing ▸ hst) hst' hd hd'
  | @routes input r _ backlogged after =>
    rcases selects_changes after x with ⟨-, hst, hd⟩ | ⟨hx, hst, hst', hd, hd'⟩
    · exact .leaves hst hd
    · exact .routes hx.symm (backlogged ▸ hst) hst' hd hd'
  | _ => exact .leaves rfl rfl

/-- Nothing is ever lost. -/
theorem Moves.known (h : Moves s c s' c') {x : String} (hx : s.statusOf x ≠ none) :
    s'.statusOf x ≠ none := by
  cases h.touches x with
  | leaves status rows => rwa [status]
  | backlogs _ _ after _ => simp [after]
  | selects _ _ after _ _ => simp [after]
  | routes _ _ after _ _ => simp [after]

theorem Moves.delivery (h : Moves s c s' c') {id : String} (hd : s.delivery id ≠ none) :
    s'.delivery id ≠ none := by
  have updated : ∀ {new r}, Selects s new r s' → s'.delivery id ≠ none := by
    intro new r hsel
    rw [delivery_of_selects hsel]
    by_cases hid : id = new.id
    · simp [hid]
    · rwa [update_of_ne hid]
  cases h with
  | backlogs found routing after => rwa [(backlogs_changes found after "").2.1]
  | selects routing after => exact updated after
  | routes backlogged after => exact updated after
  | _ => exact hd

/-- What a caller still relies on: `gone` are the Recordings taken out of `routing`. -/
def Holds (s : Store) (gone : String → Prop) : Caller → Prop
  | tick (.confirming _ x) => s.statusOf x = some .routing ∨ (s.statusOf x ≠ none ∧ gone x)
  | tick (.deciding _ recording) =>
    s.statusOf recording.id = some .routing ∨ (s.statusOf recording.id ≠ none ∧ gone recording.id)
  | tick (.backlogging _ x) => s.statusOf x = some .routing ∨ (s.statusOf x ≠ none ∧ gone x)
  | tick (.selecting _ x _) => s.statusOf x = some .routing ∨ (s.statusOf x ≠ none ∧ gone x)
  | tick (.confirmingBacklog x) => s.statusOf x ≠ none
  | tick (.confirmingDelivery id) => s.delivery id ≠ none
  | reading input => s.delivery input.deliveryId ≠ none
  | _ => True

section Holding
variable {gone gone' : String → Prop}

theorem known_later {x : String} (h : Moves s c s' c') (hg : ∀ x, gone x → gone' x)
    (hout : ∀ x, s.statusOf x = some .routing → s'.statusOf x ≠ some .routing → gone' x)
    (hk : s.statusOf x = some .routing ∨ (s.statusOf x ≠ none ∧ gone x)) :
    s'.statusOf x = some .routing ∨ (s'.statusOf x ≠ none ∧ gone' x) := by
  by_cases hnow : s'.statusOf x = some .routing
  · exact Or.inl hnow
  · rcases hk with hr | ⟨hn, hgone⟩
    · exact Or.inr ⟨h.known (by simp [hr]), hout x hr hnow⟩
    · exact Or.inr ⟨h.known hn, hg x hgone⟩

/-- Another caller's step takes nothing away. -/
theorem Holds.after {other : Caller} (ho : other.Holds s gone) (h : Moves s c s' c')
    (hg : ∀ x, gone x → gone' x)
    (hout : ∀ x, s.statusOf x = some .routing → s'.statusOf x ≠ some .routing → gone' x) :
    other.Holds s' gone' := by
  cases other with
  | tick pc =>
    cases pc with
    | confirming now x => exact known_later h hg hout ho
    | deciding now recording => exact known_later h hg hout ho
    | backlogging now x => exact known_later h hg hout ho
    | selecting now x sink => exact known_later h hg hout ho
    | confirmingBacklog x => exact h.known ho
    | confirmingDelivery id => exact h.delivery ho
    | _ => trivial
  | reading input => exact h.delivery ho
  | _ => trivial

/-- A caller's own step leaves it with what it goes on with. -/
theorem Moves.holds (h : Moves s c s' c') (hc : c.Holds s gone) (hg : ∀ x, gone x → gone' x)
    (hout : ∀ x, s.statusOf x = some .routing → s'.statusOf x ≠ some .routing → gone' x) :
    c'.Holds s' gone' := by
  have hk := fun x => known_later (x := x) h hg hout
  cases h with
  | finds found => exact Or.inl found
  | @loads now x r found =>
    have hx : r.id = x := Store.recording_id found
    subst hx
    exact hk r.id hc
  | forBacklog => exact hk _ hc
  | forSink => exact hk _ hc
  | @backlogs now x r _ found routing after =>
    change s'.statusOf x ≠ none
    rw [(backlogs_changes found after x).2.2, if_pos rfl]
    simp
  | @selects now x sink id r _ routing after =>
    change s'.delivery id ≠ none
    rw [delivery_of_selects after]
    simp [Routing.newDelivery]
  | @routes input r _ backlogged after =>
    change s'.delivery input.deliveryId ≠ none
    rw [delivery_of_selects after]
    simp [manualDelivery]
  | _ => trivial

end Holding
end Caller

namespace Dispatch
variable {ι : Type}

abbrev Entry (ι : Type) := Turn (Dispatch ι) (Choice ι)

/-- The caller that moved, as it was and as it is. -/
def mover (t : Entry ι) : Caller := t.before.callers t.what.caller
def moved (t : Entry ι) : Caller := t.after.callers t.what.caller

def TakesOut (x : String) (t : Entry ι) : Prop :=
  t.before.store.statusOf x = some .routing ∧ t.after.store.statusOf x ≠ some .routing

def Delivers (x : String) (t : Entry ι) : Prop :=
  t.before.store.deliveriesOf x ≠ t.after.store.deliveriesOf x

/-- The tick's decision came late: it returned Ok and changed no row. -/
def TickLost (t : Entry ι) : Prop :=
  t.after.store = t.before.store ∧ moved t = .tick (.ready (some .worked))

/-- The new Delivery's id or its Recording already has a Delivery, and the database says so. -/
def TickRefused (t : Entry ι) : Prop :=
  t.after.store = t.before.store ∧ ∃ now x sink id v, mover t = .tick (.selecting now x sink) ∧
    t.before.store.statusOf x = some .routing ∧
    Taken t.before.store (Routing.newDelivery id x sink now) ∧ moved t = .failed (.database v)

section Turns
variable {x : String}

/-- A tick about to commit a decision takes the Recording out of `routing`, or came
too late, or asks for a Delivery that the database refuses. -/
theorem decision_ends {gone : String → Prop} {t : Entry ι}
    (hm : Caller.Moves t.before.store (mover t) t.after.store (moved t))
    (hh : (mover t).Holds t.before.store gone) (hd : (mover t).Decides x) :
    TakesOut x t ∨ (TickLost t ∧ gone x) ∨ TickRefused t := by
  generalize hs : t.before.store = s at hm hh
  generalize hs' : t.after.store = s' at hm
  generalize hc : mover t = c at hm hh hd
  generalize hc' : moved t = c' at hm
  cases hm with
  | @backlogs now y r _ found routing after =>
    obtain rfl : y = x := hd
    have hst := (Caller.backlogs_changes found after y).2.2
    rw [if_pos rfl] at hst
    refine Or.inl ⟨?_, ?_⟩
    · rw [hs, Store.statusOf_eq found, routing]
    · simp [hs', hst]
  | @backlogLost now y r found gone' =>
    obtain rfl : y = x := hd
    have hne : s.statusOf y ≠ some .routing := by simp [Store.statusOf_eq found, gone']
    exact Or.inr (Or.inl ⟨⟨hs'.trans hs.symm, hc'⟩, (hh.resolve_left hne).2⟩)
  | @backlogMissing now y e missing =>
    obtain rfl : y = x := hd
    have hnone : s.statusOf y = none := by simp [Store.statusOf, missing]
    rcases hh with hr | ⟨hn, -⟩
    · exact absurd (hnone.symm.trans hr) (by simp)
    · exact absurd hnone hn
  | @selects now y sink id r _ routing after =>
    obtain rfl : y = x := hd
    rcases Caller.selects_changes after y with ⟨hne, -⟩ | ⟨-, hst, hst', -⟩
    · exact absurd rfl hne
    · refine Or.inl ⟨?_, ?_⟩
      · rw [hs, hst, routing]
      · simp [hs', hst']
  | @selectLost now y sink gone' =>
    obtain rfl : y = x := hd
    exact Or.inr (Or.inl ⟨⟨hs'.trans hs.symm, hc'⟩, (hh.resolve_left gone').2⟩)
  | @selectRefused now y sink id v routing taken =>
    exact Or.inr (Or.inr ⟨hs'.trans hs.symm, now, y, sink, id, v, hc, hs ▸ routing, hs ▸ taken, hc'⟩)
  | _ => exact hd.elim

/-- A tick fails on a refused Delivery only. -/
theorem tick_failure {gone : String → Prop} {t : Entry ι} {e : StorageError}
    (hm : Caller.Moves t.before.store (mover t) t.after.store (moved t))
    (hh : (mover t).Holds t.before.store gone) (hf : moved t = .failed e) : TickRefused t := by
  generalize hs : t.before.store = s at hm hh
  generalize hs' : t.after.store = s' at hm
  generalize hc : mover t = c at hm hh
  rw [hf] at hm
  have unknown : ∀ x, s.recording x = none → ¬ (s.statusOf x = some .routing ∨
      (s.statusOf x ≠ none ∧ gone x)) := by
    intro x hn
    simp [Store.statusOf, hn]
  cases hm with
  | unread missing => exact absurd hh (unknown _ missing)
  | backlogMissing missing => exact absurd hh (unknown _ missing)
  | @selectRefused now y sink id v routing taken =>
    exact ⟨hs'.trans hs.symm, now, y, sink, id, v, hc, hs ▸ routing, hs ▸ taken, hf⟩
  | backlogUnread missing => exact absurd (show s.statusOf _ = none by simp [Store.statusOf, missing]) hh
  | deliveryUnread missing => exact absurd missing hh

/-- What `manual_route` comes to: it routes a backlogged Recording, or changes no row
and says why. -/
def Answered (x : String) (t : Entry ι) : Prop :=
  (t.before.store.statusOf x = some .backlogged ∧ t.after.store.statusOf x = some .delivering ∧
      Delivers x t) ∨
    (t.after.store = t.before.store ∧
      ((∃ status, status ≠ .backlogged ∧ t.before.store.statusOf x = some status ∧
          moved t = .refused (.recordingNotBacklogged x status)) ∨
        (t.before.store.statusOf x = none ∧ moved t = .refused (.recordingNotFound x)) ∨
        (t.before.store.statusOf x = some .backlogged ∧ ∃ v, moved t = .refused (.database v))))

theorem manual_answer {t : Entry ι}
    (hm : Caller.Moves t.before.store (mover t) t.after.store (moved t))
    (hr : (mover t).Routes x) : Answered x t := by
  unfold Answered Delivers
  generalize t.before.store = s at hm
  generalize t.after.store = s' at hm
  generalize mover t = c at hm hr
  generalize hc' : moved t = c' at hm
  cases hm with
  | @routes input r _ backlogged after =>
    obtain rfl : input.recordingId = x := hr
    rcases Caller.selects_changes after input.recordingId with ⟨hne, -⟩ | ⟨-, hst, hst', he, hf⟩
    · exact absurd rfl hne
    · exact Or.inl ⟨backlogged ▸ hst, hst', fun h => hf (h ▸ he)⟩
  | @routeMissing input missing =>
    obtain rfl : input.recordingId = x := hr
    exact Or.inr ⟨rfl, Or.inr (Or.inl ⟨by simp [Store.statusOf, missing], rfl⟩)⟩
  | @routeLost input r found gone =>
    obtain rfl : input.recordingId = x := hr
    exact Or.inr ⟨rfl, Or.inl ⟨r.status, gone, Store.statusOf_eq found, rfl⟩⟩
  | @routeRefused input v backlogged =>
    obtain rfl : input.recordingId = x := hr
    exact Or.inr ⟨rfl, Or.inr (Or.inr ⟨backlogged, v, rfl⟩)⟩
  | _ => exact hr.elim

end Turns

section Run
variable [DecidableEq ι] {d₀ d d' : Dispatch ι} {turns : List (Entry ι)} {m : Choice ι} {x : String}

theorem step_moves (h : d.step m = some d') :
    Caller.Moves d.store (d.callers m.caller) d'.store (d'.callers m.caller) ∧
      ∀ j, j ≠ m.caller → d'.callers j = d.callers j := by
  obtain ⟨⟨s, c⟩, ha, rfl⟩ := Option.map_eq_some_iff.mp h
  refine ⟨?_, fun j hj => update_of_ne hj _ _⟩
  have hm := Caller.advance_moves ha
  simpa only [update_self] using hm

theorem turn_moves (h : Runs d₀ turns d) {t : Entry ι} (ht : t ∈ turns) :
    Caller.Moves t.before.store (mover t) t.after.store (moved t) :=
  (step_moves (h.step_of_mem ht)).1

theorem not_routing_stays (h : d.step m = some d') (hn : d.store.statusOf x ≠ some .routing) :
    d'.store.statusOf x ≠ some .routing := by
  cases (step_moves h).1.touches x with
  | leaves status rows => rwa [status]
  | backlogs _ before _ _ => exact absurd before hn
  | selects _ before _ _ _ => exact absurd before hn
  | routes _ _ after _ _ => simp [after]

theorem delivered_stays (h : d.step m = some d') (hd : d.store.deliveriesOf x ≠ []) :
    d'.store.deliveriesOf x ≠ [] := by
  cases (step_moves h).1.touches x with
  | leaves status rows => rwa [rows]
  | backlogs _ _ _ rows => rwa [rows]
  | selects _ _ _ _ filled => exact filled
  | routes _ _ _ _ filled => exact filled

/-- A Recording leaves `routing` at most once. -/
theorem takes_out_once (h : Runs d₀ turns d) (x : String) :
    turns.Pairwise fun t u => ¬ (TakesOut x t ∧ TakesOut x u) := by
  refine (h.once (P := fun d => d.store.statusOf x ≠ some .routing)
    fun _ _ _ hs hn => not_routing_stays hs hn).imp ?_
  exact fun hn hb => hn ⟨⟨not_not.mpr hb.1.1, hb.1.2⟩, not_not.mpr hb.2.1, hb.2.2⟩

theorem delivers_first (h : Runs d₀ turns d) {t : Entry ι} (ht : t ∈ turns) (hd : Delivers x t) :
    t.before.store.deliveriesOf x = [] ∧ t.after.store.deliveriesOf x ≠ [] := by
  cases (turn_moves h ht).touches x with
  | leaves status rows => exact absurd rows.symm hd
  | backlogs _ _ _ rows => exact absurd rows.symm hd
  | selects _ _ _ empty filled => exact ⟨empty, filled⟩
  | routes _ _ _ empty filled => exact ⟨empty, filled⟩

theorem delivers_once (h : Runs d₀ turns d) (x : String) :
    turns.Pairwise fun t u => ¬ (Delivers x t ∧ Delivers x u) := by
  refine (h.once (P := fun d => d.store.deliveriesOf x ≠ [])
    fun _ _ _ hs hd => delivered_stays hs hd).imp_of_mem ?_
  intro t u ht hu hn hb
  obtain ⟨he, hf⟩ := delivers_first h ht hb.1
  obtain ⟨he', hf'⟩ := delivers_first h hu hb.2
  exact hn ⟨⟨not_not.mpr he, hf⟩, not_not.mpr he', hf'⟩

/-- Every caller relies only on what the run has left there. -/
theorem callers_hold (h : Runs d₀ turns d) (h₀ : d₀.AtStart) (i : ι) :
    (d.callers i).Holds d.store fun x => ∃ t ∈ turns, TakesOut x t := by
  induction h with
  | start =>
    rcases h₀ i with ⟨last, hi⟩ | ⟨input, hi⟩ <;> rw [hi] <;> trivial
  | @turn turns d d' m hr hs ih =>
    obtain ⟨hm, hother⟩ := step_moves hs
    have hgone : ∀ x, (∃ t ∈ turns, TakesOut x t) → ∃ t ∈ turns ++ [⟨d, m, d'⟩], TakesOut x t :=
      fun x ⟨t, ht, hx⟩ => ⟨t, List.mem_append_left _ ht, hx⟩
    have hout : ∀ x, d.store.statusOf x = some .routing → d'.store.statusOf x ≠ some .routing →
        ∃ t ∈ turns ++ [⟨d, m, d'⟩], TakesOut x t :=
      fun x hb ha => ⟨⟨d, m, d'⟩, by simp, hb, ha⟩
    by_cases hi : i = m.caller
    · subst hi
      exact hm.holds ih hgone hout
    · rw [hother i hi]
      exact ih.after hm hgone hout

/-- Routing of one Recording over a run: the claims about who takes it where. -/
structure RoutedOnce (x : String) (turns : List (Entry ι)) : Prop where
  /-- At most one write takes it out of `routing`, and a tick's decision makes it. -/
  leaves_once : turns.Pairwise fun t u => ¬ (TakesOut x t ∧ TakesOut x u)
  taken_by_tick : ∀ t ∈ turns, TakesOut x t → (mover t).Decides x
  /-- Each decision takes it out, or is late and changes nothing, or is refused a Delivery. -/
  decides : ∀ earlier t later, turns = earlier ++ t :: later → (mover t).Decides x →
    TakesOut x t ∨ (TickLost t ∧ ∃ u ∈ earlier, TakesOut x u) ∨ TickRefused t
  /-- The first decision that is not refused a Delivery takes it out. -/
  first_takes : ∀ earlier t later, turns = earlier ++ t :: later → (mover t).Decides x →
    ¬ TickRefused t → (∀ u ∈ earlier, (mover u).Decides x → TickRefused u) → TakesOut x t
  /-- At most one Delivery is ever created for it. -/
  delivers_once : turns.Pairwise fun t u => ¬ (Delivers x t ∧ Delivers x u)
  /-- Backlogged by a tick, it gets no Delivery from one. -/
  backlogged_or_delivered : ∀ t ∈ turns, ∀ u ∈ turns, TakesOut x t →
    t.after.store.statusOf x = some .backlogged → Delivers x u → (mover u).Routes x
  /-- Only an Operator moves it on from the Backlog. -/
  leaves_backlog : ∀ t ∈ turns, t.before.store.statusOf x = some .backlogged →
    t.after.store.statusOf x ≠ some .backlogged → (mover t).Routes x
  /-- Each manual route of it routes it, or changes nothing and is refused. -/
  manual : ∀ t ∈ turns, (mover t).Routes x → Answered x t

theorem taken_by_tick (h : Runs d₀ turns d) {t : Entry ι} (ht : t ∈ turns) (hx : TakesOut x t) :
    (mover t).Decides x := by
  cases (turn_moves h ht).touches x with
  | leaves status rows => exact absurd (status.trans hx.1) hx.2
  | backlogs tick _ _ _ => exact tick
  | selects tick _ _ _ _ => exact tick
  | routes _ before _ _ _ => exact absurd (before.symm.trans hx.1) (by simp)

theorem leaves_backlog (h : Runs d₀ turns d) {t : Entry ι} (ht : t ∈ turns)
    (hb : t.before.store.statusOf x = some .backlogged)
    (ha : t.after.store.statusOf x ≠ some .backlogged) : (mover t).Routes x := by
  cases (turn_moves h ht).touches x with
  | leaves status rows => exact absurd (status.trans hb) ha
  | backlogs _ before _ _ => exact absurd (before.symm.trans hb) (by simp)
  | selects _ before _ _ _ => exact absurd (before.symm.trans hb) (by simp)
  | routes operator _ _ _ _ => exact operator

theorem backlogged_or_delivered (h : Runs d₀ turns d) {t u : Entry ι} (ht : t ∈ turns)
    (hu : u ∈ turns) (hx : TakesOut x t) (hb : t.after.store.statusOf x = some .backlogged)
    (hd : Delivers x u) : (mover u).Routes x := by
  cases (turn_moves h hu).touches x with
  | leaves status rows => exact absurd rows.symm hd
  | backlogs _ _ _ rows => exact absurd rows.symm hd
  | routes operator _ _ _ _ => exact operator
  | selects tick before after _ _ =>
    -- A second exit from `routing`, since this one ends in `delivering`.
    have hne : t ≠ u := by
      rintro rfl
      exact absurd (hb.symm.trans after) (by simp)
    have hux : TakesOut x u := ⟨before, by simp [after]⟩
    have : Std.Symm fun t u : Entry ι => ¬ (TakesOut x t ∧ TakesOut x u) :=
      ⟨fun t u hn hb => hn hb.symm⟩
    exact absurd ⟨hx, hux⟩ ((takes_out_once h x).forall ht hu hne)

theorem first_takes (h : Runs d₀ turns d) {earlier later : List (Entry ι)} {t : Entry ι}
    (he : turns = earlier ++ t :: later)
    (hends : TakesOut x t ∨ (TickLost t ∧ ∃ u ∈ earlier, TakesOut x u) ∨ TickRefused t)
    (hn : ¬ TickRefused t) (hall : ∀ u ∈ earlier, (mover u).Decides x → TickRefused u) :
    TakesOut x t := by
  rcases hends with hx | ⟨-, u, hu, hx⟩ | hr
  · exact hx
  · have hmem : u ∈ turns := he ▸ List.mem_append_left _ hu
    have hrefused := hall u hu (taken_by_tick h hmem hx)
    exact absurd (hrefused.1 ▸ hx.1) hx.2
  · exact absurd hr hn

end Run
end Dispatch

/-- In any interleaving of routing ticks and manual routes over any store, each Recording
is routed once, and a tick fails only when its new Delivery is refused. -/
theorem routed_once {ι : Type} [DecidableEq ι] {d₀ d : Dispatch ι}
    {turns : List (Dispatch.Entry ι)} (h₀ : d₀.AtStart) (h : Dispatch.Runs d₀ turns d) :
    (∀ x, Dispatch.RoutedOnce x turns) ∧
      ∀ t ∈ turns, ∀ e, Dispatch.moved t = .failed e → Dispatch.TickRefused t := by
  have ends : ∀ x earlier t later, turns = earlier ++ t :: later → (Dispatch.mover t).Decides x →
      Dispatch.TakesOut x t ∨ (Dispatch.TickLost t ∧ ∃ u ∈ earlier, Dispatch.TakesOut x u) ∨
        Dispatch.TickRefused t := by
    intro x earlier t later he hd
    have ht : t ∈ turns := he ▸ List.mem_append_right _ (List.mem_cons_self ..)
    exact Dispatch.decision_ends (Dispatch.turn_moves h ht)
      (Dispatch.callers_hold (h.upTo he) h₀ t.what.caller) hd
  constructor
  · intro x
    exact
      { leaves_once := Dispatch.takes_out_once h x
        taken_by_tick := fun t ht => Dispatch.taken_by_tick h ht
        decides := ends x
        first_takes := fun earlier t later he hd hn hall =>
          Dispatch.first_takes h he (ends x earlier t later he hd) hn hall
        delivers_once := Dispatch.delivers_once h x
        backlogged_or_delivered := fun t ht u hu => Dispatch.backlogged_or_delivered h ht hu
        leaves_backlog := fun t ht => Dispatch.leaves_backlog h ht
        manual := fun t ht => Dispatch.manual_answer (Dispatch.turn_moves h ht) }
  · intro t ht e hf
    obtain ⟨earlier, later, he⟩ := List.append_of_mem ht
    exact Dispatch.tick_failure (Dispatch.turn_moves h ht)
      (Dispatch.callers_hold (h.upTo he) h₀ t.what.caller) hf

/-- One Recording in `routing`, two ticks and one manual route. -/
def threeCallers : Dispatch (Fin 3) where
  store := Operation.applyAll [.createRecording firstUpload, .claimReceivedForTranscription 0,
    .storeTranscript ⟨"r1", "soniox", "hello", "", none, none, 0⟩]
  callers := fun i => if i = 2 then .operator ⟨"r1", "notes", "m1", "e1", 5, 9, none⟩
    else .tick (.ready none)

/-- Both ticks read the Recording; one backlogs it, the Operator routes it, and the
other tick's Sink comes late. -/
def staleDecision : List (Dispatch.Choice (Fin 3)) :=
  let backlog i := ⟨i, fun _ => .backlog, ⟨1, "x1", ()⟩⟩
  let sink i := ⟨i, fun _ => .sink "notes", ⟨2, "x2", ()⟩⟩
  [backlog 0, sink 1, backlog 0, sink 1, backlog 0, sink 1, backlog 0, sink 1, backlog 0,
    backlog 2, sink 1]

theorem stale_decision_routed_once : ∃ turns d, Dispatch.Runs threeCallers turns d ∧
    d.store.statusOf "r1" = some .delivering ∧
    (d.store.deliveriesOf "r1").map (·.id) = ["m1"] ∧ Dispatch.RoutedOnce "r1" turns := by
  have hp : (History.play Dispatch.step threeCallers staleDecision).map (fun r =>
      (r.2.store.statusOf "r1", (r.2.store.deliveriesOf "r1").map (·.id))) =
      some (some .delivering, ["m1"]) := by
    decide +kernel
  obtain ⟨⟨turns, d⟩, hrun, he⟩ := Option.map_eq_some_iff.mp hp
  obtain ⟨hst, hd⟩ := Prod.mk.inj he
  have h := History.of_play hrun
  have h₀ : threeCallers.AtStart := by
    intro i
    by_cases hi : i = 2
    · exact Or.inr ⟨_, if_pos hi⟩
    · exact Or.inl ⟨none, if_neg hi⟩
  exact ⟨turns, d, h, hst, hd, (routed_once h₀ h).1 "r1"⟩

end Telegraph
