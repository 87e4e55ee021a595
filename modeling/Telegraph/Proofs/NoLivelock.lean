import Telegraph.Lib.Rounds
import Telegraph.Proofs.CleanShutdown
import Telegraph.Proofs.CountedSteps

namespace Telegraph
open Lib Program Lib.Retry SqliteStore

/-- The steps of the worker loops. -/
def Input.byWorker {ι : Type} : Input ι → Bool
  | .transcribe _ _ _ | .route _ _ | .deliver _ _ _ => true
  | _ => false

def Event.item : Event → Item
  | .started i _ _ | .called i _ | .answered i _ _ | .finished i _ _ _ | .reopened i _ => i

theorem Event.move_ofWorker {e : Event} {item : Item} {m : Move} (hm : e.move item = some m)
    (he : e.ofWorker = true) : m.ofWorker = true := by
  cases e with
  | started i a t =>
    simp only [Event.move] at hm
    split at hm <;> cases hm
    rfl
  | finished i a t how =>
    simp only [Event.move] at hm
    split at hm <;> cases hm
    cases how <;> first | rfl | cases he
  | reopened i t => cases he
  | _ => cases hm

theorem Event.move_of_isMove {e : Event} (h : e.isMove = true) :
    ∃ m, e.move e.item = some m ∧ (m.isStart = true ∨ m.isFinish = true) := by
  cases e with
  | started i a t => exact ⟨_, if_pos rfl, .inl rfl⟩
  | finished i a t how => exact ⟨_, if_pos rfl, .inr rfl⟩
  | _ => cases h

namespace Service
variable {c c' c₀ : Process} {trace events : List Event} {route : Recording → RoutingDecision}
  {turns : List (Turn Process (Int × Input Unit))} {now : Int} {input : Input Unit}

theorem settle_counted {κ : Type} {place : Process → κ → Process}
    {r : Store × Except StorageError (κ × List Event)} (h : c.settle place r = (c', events))
    (hplace : ∀ c k, (place c k).store = c.store) (hc : Action.Counted c.store r) :
    (∀ e ∈ events, e.ofWorker = true) ∧ (c'.store = c.store ∨
      (∃ x, c'.store.distance x < c.store.distance x) ∨ ∃ e ∈ events, e.isMove = true) := by
  obtain ⟨s, e | ⟨next, shown⟩⟩ := r <;> cases h
  · refine ⟨by simp, hc.moves.imp_right (Or.imp_right ?_)⟩
    rintro ⟨v, hv, -⟩
    cases hv
  · refine ⟨hc.ofWorker _ rfl, ?_⟩
    rw [hplace]
    refine hc.moves.imp_right (Or.imp_right ?_)
    rintro ⟨v, hv, he⟩
    cases hv
    exact he

/-- A worker's step leaves the database as it was, unless a Recording comes nearer to its rest
or an attempt starts or ends. -/
theorem step_counted (hs : c.step route now input = some (c', events)) (hw : input.byWorker = true) :
    (∀ e ∈ events, e.ofWorker = true) ∧ (c'.store = c.store ∨
      (∃ x, c'.store.distance x < c.store.distance x) ∨ ∃ e ∈ events, e.isMove = true) := by
  obtain ⟨-, he⟩ := step_some hs
  cases input with
  | transcribe i id answer =>
    exact @settle_counted { c with clock := now } c' events _ (onTranscriber · i) _ he (fun _ _ => rfl)
      (Transcription.action_counted _ answer)
  | route i id =>
    exact @settle_counted { c with clock := now } c' events _ (onRouter · i) _ he (fun _ _ => rfl)
      (Routing.action_counted route _)
  | deliver i id answer =>
    exact @settle_counted { c with clock := now } c' events _ (onDeliverer · i) _ he (fun _ _ => rfl)
      (Delivering.action_counted _ answer)
  | _ => cases hw

theorem step_permits {R : Store → Store → Prop} (h : Permits R) (refl : ∀ s, R s s)
    (trans : ∀ {s t u}, R s t → R t u → R s u)
    (hi : ∀ {s t new}, Store.insertTranscript s new = .ok t → R s t)
    (hs : c.step route now input = some (c', events)) (hw : input.byWorker = true) :
    R c.store c'.store := by
  have ho : input.operation now = none := by cases input <;> first | rfl | cases hw
  obtain ⟨ops, hops, he⟩ := step_by_worker hs ho
  rw [he]
  exact h.foldl hi refl trans hops c.store

theorem step_nears (hs : c.step route now input = some (c', events)) (hw : input.byWorker = true) :
    c.store.Nears c'.store :=
  step_permits permits_nears (fun _ _ => le_refl _) Store.Nears.trans
    (fun ht => Store.nears_of_eq (Store.insertTranscript_frame ht).1) hs hw

theorem step_sameIds (hs : c.step route now input = some (c', events)) (hw : input.byWorker = true) :
    c.store.SameIds c'.store :=
  step_permits permits_sameIds (fun _ => rfl) (fun h k => k.trans h)
    (fun ht => by rw [Store.SameIds, (Store.insertTranscript_frame ht).1]) hs hw

/-- What the step of a turn shows. -/
def shown (route : Recording → RoutingDecision) (t : Turn Process (Int × Input Unit)) : List Event :=
  ((t.before.step route t.what.1 t.what.2).map (·.2)).getD []

theorem step_shown {t : Turn Process (Int × Input Unit)}
    (h : next route t.before t.what = some t.after) :
    t.before.step route t.what.1 t.what.2 = some (t.after, shown route t) := by
  obtain ⟨⟨c', events⟩, hs, hc⟩ := Option.map_eq_some_iff.mp h
  unfold shown
  rw [hs, ← hc]
  rfl

/-- A stretch of a run in which only the workers move. -/
structure Stretch (route : Recording → RoutingDecision) (c₀ : Process)
    (turns : List (Turn Process (Int × Input Unit))) (c : Process) : Prop where
  run : History (fun c l c' => next route c l = some c') c₀ turns c
  byWorker : ∀ t ∈ turns, t.what.2.byWorker = true

namespace Stretch

/-- What each of its steps keeps. -/
theorem keeps {P : Process → Prop} (h : Stretch route c₀ turns c) (h₀ : P c₀)
    (hs : ∀ {c c' : Process} {now : Int} {input : Input Unit} {events : List Event}, P c →
      c.step route now input = some (c', events) → input.byWorker = true → P c') : P c := by
  obtain ⟨hrun, hw⟩ := h
  induction hrun with
  | start => exact h₀
  | @turn turns s s' l hr hstep ih =>
    obtain ⟨⟨c', events⟩, hs', rfl⟩ := Option.map_eq_some_iff.mp hstep
    exact hs (ih fun t ht => hw t (List.mem_append_left _ ht)) hs' (hw ⟨s, l, c'⟩ (by simp))

theorem upTo (h : Stretch route c₀ turns c) {earlier later : List (Turn Process (Int × Input Unit))}
    {t : Turn Process (Int × Input Unit)} (he : turns = earlier ++ t :: later) :
    Stretch route c₀ earlier t.before :=
  ⟨h.run.upTo he, fun u hu => h.byWorker u (he ▸ List.mem_append_left _ hu)⟩

theorem since (h : Stretch route c₀ turns c) {earlier later : List (Turn Process (Int × Input Unit))}
    {t : Turn Process (Int × Input Unit)} (he : turns = earlier ++ t :: later) :
    Stretch route t.after later c :=
  ⟨h.run.since he, fun u hu =>
    h.byWorker u (he ▸ List.mem_append_right _ (List.mem_cons_of_mem _ hu))⟩

theorem nears (h : Stretch route c₀ turns c) : c₀.store.Nears c.store :=
  h.keeps (P := fun c => c₀.store.Nears c.store) (fun _ => le_refl _) fun hp hs hw =>
    hp.trans (step_nears hs hw)

theorem sameIds (h : Stretch route c₀ turns c) : c₀.store.SameIds c.store :=
  h.keeps (P := fun c => c₀.store.SameIds c.store) rfl fun hp hs hw =>
    (step_sameIds hs hw).trans hp

theorem shows (h : Stretch route c₀ turns c) (hr : Run route trace c₀) :
    Run route (trace ++ turns.flatMap (shown route)) c := by
  obtain ⟨hrun, -⟩ := h
  induction hrun with
  | start => simpa using hr
  | @turn turns s s' l _ hstep ih =>
    rw [List.flatMap_append, ← List.append_assoc, List.flatMap_singleton]
    exact .step l.1 l.2 ih trivial (step_shown (t := ⟨s, l, s'⟩) hstep)

theorem shown_ofWorker (h : Stretch route c₀ turns c) :
    ∀ e ∈ turns.flatMap (shown route), e.ofWorker = true := by
  intro e he
  obtain ⟨t, ht, he⟩ := List.mem_flatMap.mp he
  exact (step_counted (step_shown (h.run.step_of_mem ht)) (h.byWorker t ht)).1 e he

end Stretch

/-- In this turn some Recording comes nearer to where it rests. -/
def nearer (t : Turn Process (Int × Input Unit)) : Bool :=
  (t.before.store.recordings.rows.map (·.id)).any fun x =>
    decide (t.after.store.distance x < t.before.store.distance x)

/-- Whether a turn gets anything done. -/
def busy (route : Recording → RoutingDecision) (t : Turn Process (Int × Input Unit)) : Bool :=
  (shown route t).any Event.isMove || nearer t

theorem mem_ids_of_distance {s : Store} {x : String} {n : Nat} (h : n < s.distance x) :
    x ∈ s.recordings.rows.map (·.id) := by
  unfold Store.distance Store.statusOf at h
  cases hr : s.recording x with
  | none => simp [hr] at h
  | some r => exact List.mem_map.mpr ⟨r, (Table.find_mem hr).1, Store.recording_id hr⟩

/-- A turn that gets nothing done leaves the database as it was. -/
theorem store_of_idle {t : Turn Process (Int × Input Unit)}
    (h : next route t.before t.what = some t.after) (hw : t.what.2.byWorker = true)
    (hb : busy route t = false) : t.after.store = t.before.store := by
  simp only [busy, nearer, Bool.or_eq_false_iff, List.any_eq_false, decide_eq_true_eq] at hb
  obtain ⟨hm, hd⟩ := hb
  rcases (step_counted (step_shown h) hw).2 with he | ⟨x, hx⟩ | ⟨e, he, hmove⟩
  · exact he
  · exact absurd hx (hd x (mem_ids_of_distance hx))
  · exact absurd hmove (hm e he)

/-- The ways ahead of the Recordings, together. -/
def ways (ids : List String) (c : Process) : Nat := (ids.map c.store.distance).sum

theorem ways_le (ids : List String) (c : Process) : ways ids c ≤ 4 * ids.length := by
  have hle := List.sum_le_card_nsmul (ids.map c.store.distance) 4 fun n hn => by
    obtain ⟨x, -, rfl⟩ := List.mem_map.mp hn
    unfold Store.distance
    cases c.store.statusOf x with
    | none => simp
    | some status => cases status <;> simp [RecordingStatus.distance]
  rw [List.length_map, nsmul_eq_mul, Nat.mul_comm] at hle
  exact hle

/-- Recordings come nearer to their rest only so often. -/
theorem Stretch.nearer_bounded (h : Stretch route c₀ turns c) :
    turns.countP nearer ≤ 4 * c₀.store.recordings.rows.length := by
  have hpot := @History.potential _ _ _ _ _ _ (ways (c₀.store.recordings.rows.map (·.id)))
    nearer (fun _ => false) h.run fun t ht => ?_
  · have hle := ways_le (c₀.store.recordings.rows.map (·.id)) c₀
    rw [List.length_map] at hle
    have hzero : turns.countP (fun _ => false) = 0 := List.countP_eq_zero.mpr (by simp)
    omega
  · obtain ⟨earlier, later, he⟩ := List.append_of_mem ht
    have hids : t.before.store.recordings.rows.map (·.id) = c₀.store.recordings.rows.map (·.id) :=
      (h.upTo he).sameIds
    have hn := step_nears (step_shown (h.run.step_of_mem ht)) (h.byWorker t ht)
    unfold ways
    cases ha : nearer t with
    | false => simpa only [Bool.toNat_false, add_zero] using List.sum_le_sum fun x _ => hn x
    | true =>
      unfold nearer at ha
      rw [hids] at ha
      obtain ⟨x, hx, hlt⟩ := List.any_eq_true.mp ha
      exact List.sum_lt_sum _ _ (fun x _ => hn x) ⟨x, hx, by simpa using hlt⟩

/-- The pieces of work there are. -/
def items (s : Store) : List Item :=
  s.recordings.rows.map (.transcription ·.id) ++ s.deliveries.rows.map (.delivery ·.id)

/-- Every attempt is of a piece of work that is there. -/
theorem Accounted.mem_items {b : Board Unit String} {d : Board Unit Int} (h : c.Accounted trace b d)
    {item : Item} (ht : (c.track item).tries ≠ []) : item ∈ items c.store := by
  have hphase : (c.track item).phase ≠ .waiting := fun hw =>
    ht ((h.tracks item).wellFormed.unopened hw).1
  cases item with
  | transcription x =>
    refine List.mem_append_left _ ?_
    cases hr : c.store.recording x with
    | some r =>
      exact List.mem_map.mpr ⟨r, (Table.find_mem hr).1,
        congrArg Item.transcription (Store.recording_id hr)⟩
    | none =>
      refine absurd ?_ hphase
      change (c.store.view.transcriptionStage x).1 = _
      rw [View.transcriptionStage_of_none (v := c.store.view) hr]
  | delivery x =>
    refine List.mem_append_right _ ?_
    cases hd : c.store.delivery x with
    | some e =>
      exact List.mem_map.mpr ⟨e, (Table.find_mem hd).1,
        congrArg Item.delivery (beq_iff_eq.mp (Table.find_mem hd).2)⟩
    | none =>
      refine absurd ?_ hphase
      change (c.store.view.deliveryStage x).1 = _
      rw [View.deliveryStage_of_none (v := c.store.view) hd]

/-- A Recording has at most one Delivery. -/
theorem deliveries_le {s : Store} (h : s.view.Lifecycle) :
    s.deliveries.rows.length ≤ s.recordings.rows.length := by
  have hnodup : (s.deliveries.rows.map (·.recordingId)).Nodup := by
    refine List.Pairwise.map (R := fun a b : DeliveryRow => a.recordingId ≠ b.recordingId) _
      (fun _ _ h => h) ?_
    refine s.deliveries.distinct.imp fun hc he => ?_
    simp [DeliveryRow.clash, he] at hc
  have hsub : s.deliveries.rows.map (·.recordingId) ⊆ s.recordings.rows.map (·.id) := by
    intro x hx
    obtain ⟨d, hd, rfl⟩ := List.mem_map.mp hx
    obtain ⟨r, -, hr, -⟩ := Store.parents_of_delivery h (Store.delivery_of_mem hd)
    exact List.mem_map.mpr ⟨r, (Table.find_mem hr).1, Store.recording_id hr⟩
  have hle := (hnodup.subperm hsub).length_le
  simpa using hle

/-- Attempts start and end only so often. -/
theorem Stretch.moves_bounded (h : Stretch route c₀ turns c) (hr : Run route trace c₀) :
    (turns.flatMap (shown route)).countP Event.isMove ≤ 38 * c₀.store.recordings.rows.length := by
  have hrun := h.shows hr
  obtain ⟨-, b, d, ha, -, -⟩ := hrun.undisturbed
  have hw := h.shown_ofWorker
  generalize turns.flatMap (shown route) = later at hrun ha hw
  -- Eight waits fit into a window, so each piece of work moves at most 2 * 8 + 3 times.
  have hlen : (later.filter Event.isMove).length ≤ 19 * (items c.store).length := by
    refine length_le_of_keys (f := Event.item) _ (fun e he => ?_) fun item _ => ?_
    · obtain ⟨hmem, hmove⟩ := List.mem_filter.mp he
      obtain ⟨m, hm, hkind⟩ := Event.move_of_isMove hmove
      refine ha.mem_items fun hn => ?_
      have hin : m ∈ history e.item (trace ++ later) :=
        List.mem_filterMap.mpr ⟨e, List.mem_append_right _ hmem, hm⟩
      have hstarts := (ha.tracks e.item).starts
      have hends := (ha.tracks e.item).starts_le.1
      rw [hn, List.length_nil] at hstarts
      rcases hkind with hk | hk
      · exact absurd (List.countP_pos_iff.mpr ⟨m, hin, hk⟩) (by unfold starts at hstarts; omega)
      · exact absurd (List.countP_pos_iff.mpr ⟨m, hin, hk⟩) (by unfold ends at hends; omega)
    · have hbound := (ha.tracks item).moves_bounded Retry.backoff_mono Retry.backoff_nonneg
        Retry.eight_waits (history_append item trace later) fun m hm => ?_
      · refine le_trans ?_ hbound
        unfold history
        rw [List.length_filterMap_eq_countP, List.countP_filter]
        refine List.countP_mono_left fun e _ he => ?_
        simp only [Bool.and_eq_true, decide_eq_true_eq] at he
        obtain ⟨m, hm, -⟩ := Event.move_of_isMove he.2
        rw [← he.1, hm]
        rfl
      · obtain ⟨e, he, hm⟩ := List.mem_filterMap.mp hm
        exact Event.move_ofWorker hm (hw e he)
  -- No worker makes a Recording, so the work at the end is no more than two pieces for each.
  have hitems : (items c.store).length ≤ 2 * c₀.store.recordings.rows.length := by
    have hd := deliveries_le ha.refines.lifecycle
    have hids := congrArg List.length h.sameIds
    simp only [List.length_map] at hids
    simp only [items, List.length_append, List.length_map]
    omega
  rw [List.countP_eq_length_filter]
  omega

/-- No livelock: in a stretch in which only the workers move they get something done a bounded
number of times, whatever the integrations answer. -/
theorem Stretch.busy_bounded (h : Stretch route c₀ turns c) (hr : Run route trace c₀) :
    turns.countP (busy route) ≤ 42 * c₀.store.recordings.rows.length := by
  have hmoves := countP_any_le (shown route) Event.isMove turns
  have hb := countP_or_le (fun t => (shown route t).any Event.isMove) nearer turns
  have h₁ := h.nearer_bounded
  have h₂ := h.moves_bounded hr
  unfold busy
  omega

end Service
end Telegraph
