import Mathlib.Logic.Function.Defs
import Telegraph.Proofs.Candidates

namespace Telegraph
open Lib Program Lib.Retry SqliteStore Function

section Histories
variable {e : Event} {x : String} {m : Move}

/-- An event of one piece of work is a move of that work alone. -/
theorem history_only (item : String → Item) (hk : Injective item)
    (he : ∀ i, e.move i = if item x = i then some m else none) :
    (fun y => history (item y) [e]) = Board.only x [m] := by
  funext y
  unfold history
  by_cases hy : y = x
  · subst y
    rw [Board.only_self, List.filterMap_cons, he, if_pos rfl]
    rfl
  · rw [Board.only_ne hy, List.filterMap_cons, he, if_neg fun hi => hy (hk hi).symm]
    rfl

theorem history_other (item other : String → Item) (hk : ∀ y, item x ≠ other y)
    (he : ∀ i, e.move i = if item x = i then some m else none) :
    (fun y => history (other y) [e]) = fun _ => [] := by
  funext y
  unfold history
  rw [List.filterMap_cons, he, if_neg (hk y)]
  rfl

theorem history_none {item : String → Item} (he : ∀ i, e.move i = none) :
    (fun y => history (item y) [e]) = fun _ => [] := by
  funext y
  unfold history
  rw [List.filterMap_cons, he]
  rfl

theorem history_append (i : Item) (a b : List Event) :
    history i (a ++ b) = history i a ++ history i b :=
  List.filterMap_append ..

theorem transcription_injective : Injective Item.transcription :=
  fun _ _ h => Item.transcription.inj h

theorem delivery_injective : Injective Item.delivery := fun _ _ h => Item.delivery.inj h

end Histories

section Reads
variable {s : Store} {x : String}

theorem requireRecording_transacts : (requireRecording x).Transacts s
    (fun r s' => s' = s ∧ ∃ row, s.recording x = some row ∧ r = row.toRecording)
    (fun _ => s.recording x = none) := by
  apply ensures_read
  apply ensures_require_last
  · exact fun h => ⟨rfl, by simpa using h⟩
  · intro r h
    obtain ⟨row, hrow, rfl⟩ := Option.map_eq_some_iff.mp h
    exact ⟨rfl, rfl, row, hrow, rfl⟩

theorem requireDelivery_transacts : (requireDelivery x).Transacts s
    (fun d s' => s' = s ∧ ∃ row, s.delivery x = some row ∧ d = row.toDelivery)
    (fun _ => s.delivery x = none) := by
  apply ensures_read
  apply ensures_require_last
  · exact fun h => ⟨rfl, by simpa using h⟩
  · intro d h
    obtain ⟨row, hrow, rfl⟩ := Option.map_eq_some_iff.mp h
    exact ⟨rfl, rfl, row, hrow, rfl⟩

theorem requireTranscript_transacts : (requireTranscript x).Transacts s
    (fun t s' => s' = s ∧ s.transcript x = some t) (fun _ => s.transcript x = none) := by
  apply ensures_read
  apply ensures_require_last
  · exact fun h => ⟨rfl, h⟩
  · exact fun t h => ⟨rfl, rfl, h⟩

end Reads

namespace Routing
variable {s : Store} {route : Recording → RoutingDecision} {supply : Supply Unit} {now : Int} {x : String}

/-- A tick starts with the oldest Recording to route, if there is one. -/
theorem began_run :
    (∃ x, s.oldestWithStatus .routing = some x ∧
      (action route supply (.began now)).run s = (s, .ok (.confirming now x, []))) ∨
    (action route supply (.began now)).run s = (s, .ok (.ready (some .idle), [])) := by
  cases ho : s.oldestWithStatus .routing with
  | none =>
    refine Or.inr ?_
    simp [action, transact, Action.run, Program.run, exec_bind, ho]
  | some x =>
    refine Or.inl ⟨x, rfl, ?_⟩
    simp [action, transact, Action.run, Program.run, exec_bind, ho]

/-- The Backlog takes a Recording that is still `routing`; one that is not is left alone. -/
theorem backlogging_run :
    (∃ r s', s.recording x = some r ∧ r.status = .routing ∧
      s'.view = s.view.withRecording (r.moved .backlogged now) ∧
      (action route supply (.backlogging now x)).run s = (s', .ok (.confirmingBacklog x, []))) ∨
    (∃ r, s.recording x = some r ∧ r.status ≠ .routing ∧
      (action route supply (.backlogging now x)).run s = (s, .ok (.ready (some .worked), []))) ∨
    (s.recording x = none ∧
      (action route supply (.backlogging now x)).run s = (s, .error (.recordingNotFound x))) := by
  have ht := (@updateRecordingStatusTx_transacts s x .backlogged now).returning
    fun _ => (Pc.confirmingBacklog x, ([] : List Event))
  have marked : Program.run (do
      markBackloggedTx x now
      pure (Pc.confirmingBacklog x, []) : Query (Pc × List Event)) s =
      Program.run (Program.bind (updateRecordingStatusTx x .backlogged now) fun _ =>
        done (Pc.confirmingBacklog x, [])) s := rfl
  simp only [action, Action.run, marked]
  rcases ht.run_cases with ⟨_, s₁, hr, _, rfl, r, hrow, hcan, hv⟩ | ⟨e, hr, hbad⟩
  · refine Or.inl ⟨r, s₁, hrow, RecordingStatus.to_backlogged.mp hcan, hv, ?_⟩
    rw [hr]
  · rcases hbad with ⟨rfl, hn⟩ | ⟨r, hrow, hcan, rfl⟩
    · refine Or.inr (Or.inr ⟨hn, ?_⟩)
      rw [hr]
    · refine Or.inr (Or.inl ⟨r, hrow, fun hst => ?_, ?_⟩)
      · exact absurd (hcan.symm.trans (RecordingStatus.to_backlogged.mpr hst)) Bool.false_ne_true
      · rw [hr]

/-- The claim of `route_to_sink`: won, lost to another caller, or refused by the tables. -/
theorem selecting_run {sink : String} :
    (∃ r s', r.status = .routing ∧ Selects s (newDelivery supply.id x sink now) r s' ∧
      (action route supply (.selecting now x sink)).run s =
        (s', .ok (.confirmingDelivery supply.id, []))) ∨
    ((∀ r, s.recording x = some r → r.status ≠ .routing) ∧
      (action route supply (.selecting now x sink)).run s = (s, .ok (.ready (some .worked), []))) ∨
    ∃ v r, s.recording x = some r ∧ r.status = .routing ∧
      Taken s (newDelivery supply.id x sink now) ∧
      (action route supply (.selecting now x sink)).run s = (s, .error (.database v)) := by
  have ht : ((routeToSinkTx (newDelivery supply.id x sink now)).bind fun claimed =>
      if claimed then (done (.confirmingDelivery supply.id, []) : Query (Pc × List Event))
      else done (.ready (some .worked), [])).Transacts s
      (fun r s' => (r = (.confirmingDelivery supply.id, []) ∧
          ∃ q, q.status = .routing ∧ Selects s (newDelivery supply.id x sink now) q s') ∨
        (r = (.ready (some .worked), []) ∧ s' = s ∧
          ∀ q, s.recording x = some q → q.status ≠ .routing))
      fun e => (∃ q, s.recording x = some q ∧ q.status = .routing) ∧
        Taken s (newDelivery supply.id x sink now) ∧ ∃ v, e = .database v := by
    apply (routeToSinkTx_transacts.weaken (fun _ _ h => h) fun _ h => h).andThen
    rintro o s' (⟨rfl, rfl, hst⟩ | ⟨rfl, q, hst, hsel⟩)
    · exact ⟨rfl, Or.inr ⟨rfl, rfl, hst⟩⟩
    · exact ⟨rfl, Or.inl ⟨rfl, q, hst, hsel⟩⟩
  simp only [action, transact, Action.run, bind_eq, pure_eq]
  rcases ht.run_cases with
    ⟨_, s₁, hr, ⟨rfl, q, hst, hsel⟩ | ⟨rfl, rfl, hst⟩⟩ | ⟨_, hr, ⟨q, hrow, hst⟩, htaken, v, rfl⟩
  · exact Or.inl ⟨q, s₁, hst, hsel, by rw [hr]⟩
  · exact Or.inr (Or.inl ⟨hst, by rw [hr]⟩)
  · exact Or.inr (Or.inr ⟨v, q, hrow, hst, htaken, by rw [hr]⟩)

end Routing

theorem View.Leads.refl (v : View) : v.Leads v v.transcriptionLedger v.deliveryLedger :=
  ⟨id, id, rfl, rfl⟩

namespace Service
variable {ι : Type} [DecidableEq ι] {c : Service ι} {b b' : Board ι String} {d d' : Board ι Int}
variable {κ : Type} {place : Service ι → κ → Service ι}

omit [DecidableEq ι] in
/-- The step of a tick either moves the worker on or ends the process. -/
theorem settle_cases {tx : Query (κ × List Event)} {ok : κ × List Event → Store → Prop}
    {bad : StorageError → Prop} (h : tx.Transacts c.store ok bad) :
    (∃ next events s', ok (next, events) s' ∧
      c.settle place ((transact tx).run c.store) = (place { c with store := s' } next, events)) ∨
    ∃ e, bad e ∧ c.settle place ((transact tx).run c.store) = (c.stopped, []) := by
  rcases h.run_cases with ⟨⟨next, events⟩, s', hr, hok⟩ | ⟨e, hr, he⟩
  · exact Or.inl ⟨next, events, s', hok, by simp only [settle, transact, Action.run, hr]⟩
  · exact Or.inr ⟨e, he, by simp only [settle, transact, Action.run, hr]⟩

omit [DecidableEq ι] in
theorem Refines.stopped (h : c.Refines b d) : c.stopped.Refines b.stop d.stop where
  lifecycle := h.lifecycle
  deadlines := h.deadlines
  transcriptions := h.transcriptions
  deliveries := h.deliveries
  transcription_clock := h.transcription_clock
  delivery_clock := h.delivery_clock
  transcription_running := rfl
  delivery_running := rfl
  transcribers _ := .ready none
  deliverers _ := .ready none
  routers _ := trivial

/-- Calls and answers are no moves. -/
theorem Matches.silent {c' : Service ι} {e : Event} (h : Matches b d (c', []))
    (he : ∀ item, e.move item = none) : Matches b d (c', [e]) := by
  obtain ⟨b', d', hb, hd, hr⟩ := h
  refine ⟨b', d', ?_, ?_, hr⟩
  · rw [history_none he]
    exact hb
  · rw [history_none he]
    exact hd

theorem Refines.matches_stopped (h : c.Refines b d) : Matches b d (c.stopped, []) :=
  ⟨b.stop, d.stop, .stop, .stop, h.stopped⟩

/-- A transaction of a tick is matched where its success is. -/
theorem Refines.settles (h : c.Refines b d) {tx : Query (κ × List Event)}
    {ok : κ × List Event → Store → Prop} {bad : StorageError → Prop}
    (ht : tx.Transacts c.store ok bad)
    (hok : ∀ next events s', ok (next, events) s' →
      Matches b d (place { c with store := s' } next, events)) :
    Matches b d (c.settle place ((transact tx).run c.store)) := by
  rcases @settle_cases _ c κ place _ _ _ ht with ⟨next, events, s', hs, he⟩ | ⟨e, _, he⟩
  · rw [he]
    exact hok next events s' hs
  · rw [he]
    exact h.matches_stopped

omit [DecidableEq ι] in
/-- Rows are only added while a tick stands, so what it was read with still fits. -/
theorem stands_mono {pc : Delivering.Pc} {slot : Slot Int} (hs : pc.Stands d slot)
    (hk : d.Keeps slot) (hg : ∀ x, (d.items x).rows.length ≤ (d'.items x).rows.length) :
    pc.Stands d' slot := by
  have fits : ∀ {t : Int} {seen : List (String × Ledger Int)} {l : Ledger Int} {delivery : Delivery},
      d.Keeps (.looking t seen) → (delivery.id, l) ∈ seen → d.Fits l delivery →
        d'.Fits l delivery := by
    intro t seen l delivery hk hm hf hn
    have hle := (hk.2 delivery.id l hm).2.2.1
    exact hf (Nat.le_antisymm (hn ▸ hg delivery.id) hle)
  have presents : ∀ {t : Int} {seen : List (String × Ledger Int)} {cand : DeliveryCandidate},
      d.Keeps (.looking t seen) → d.Presents seen cand → d'.Presents seen cand := by
    intro t seen cand hk hp
    obtain ⟨l, hm, hrow, hf⟩ := hp
    exact ⟨l, hm, hrow, fits hk hm hf⟩
  cases hs with
  | ready last => exact .ready last
  | began t => exact .began t
  | confirming x => exact .confirming x
  | started cand a o hdl => exact .started cand a o hdl
  | calling cand a o hdl => exact .calling cand a o hdl
  | answered cand a o t result hdl => exact .answered cand a o t result hdl
  | loading t rows cands seen hr hc =>
    exact .loading t rows cands seen hr fun cand hm => presents hk (hc cand hm)
  | loadingRecording t row rows cands delivery seen hr hc hd =>
    obtain ⟨l, hm, hrow, hf⟩ := hd
    exact .loadingRecording t row rows cands delivery seen hr
      (fun cand hm => presents hk (hc cand hm)) ⟨l, hm, hrow, fits hk hm hf⟩
  | loadingTranscript t row rows cands delivery recording seen hr hc hd =>
    obtain ⟨l, hm, hrow, hf⟩ := hd
    exact .loadingTranscript t row rows cands delivery recording seen hr
      (fun cand hm => presents hk (hc cand hm)) ⟨l, hm, hrow, fits hk hm hf⟩
  | claimed t cand seen hdue hp => exact .claimed t cand seen hdue (presents hk hp)

/-- A Transcription worker's step: its slot changes hands and one store change is
seen on the boards. -/
theorem Refines.transcriber (h : c.Refines b d) (slot : Slot String) {s' : Store}
    {pc : Transcription.Pc} {i : ι} {items : String → Ledger String}
    (hl : c.store.view.Leads s'.view items c.store.view.deliveryLedger) (hs : pc.Stands slot) :
    (({ c with store := s' } : Service ι).onTranscriber i pc).Refines
      (({ b with items := items } : Board ι String).hand i slot) d where
  lifecycle := hl.lifecycle h.lifecycle
  deadlines := hl.deadlines h.deadlines
  transcriptions := hl.transcriptions
  deliveries := hl.deliveries.trans h.deliveries
  transcription_clock := h.transcription_clock
  delivery_clock := h.delivery_clock
  transcription_running := h.transcription_running
  delivery_running := h.delivery_running
  transcribers j := by
    change (update c.transcribers i pc j).Stands (update b.slots i slot j)
    by_cases hj : j = i
    · subst j
      rw [update_self, update_self]
      exact hs
    · rw [update_of_ne hj, update_of_ne hj]
      exact h.transcribers j
  deliverers := h.deliverers
  routers := h.routers

end Service
end Telegraph
