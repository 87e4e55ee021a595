import Telegraph.Proofs.TickShows

namespace Telegraph
open Lib Program Lib.Retry SqliteStore Function

/-- What tells one attempt from another. -/
def Attempt.key {δ : Type} (a : Attempt δ) : String × Int := (a.id, a.startedAt)

namespace Ledger
variable {δ : Type} {p : Policy} {clock : Int} {l l' : Ledger δ} {moves : List Move}

/-- Without a start the attempts stay the same ones. -/
theorem Change.keys (h : l.Change p clock moves l') (hs : starts moves = 0) :
    l'.rows.map Attempt.key = l.rows.map Attempt.key := by
  cases h with
  | still => rfl
  | enter => rfl
  | reopen => rfl
  | start => cases hs
  | finish before a t how detail message hr =>
    rw [hr, List.map_append, List.map_append]
    rfl

/-- Work is done by a success only. -/
theorem Change.done (h : l.Change p clock moves l') (hp : l'.phase = .done) :
    l.phase = .done ∨ ∃ t, .finished t .succeeded ∈ moves := by
  cases h with
  | still => exact Or.inl hp
  | enter => cases hp
  | reopen => cases hp
  | start => exact Or.inl hp
  | finish before a t how =>
    cases how with
    | succeeded => exact Or.inr ⟨t, by simp⟩
    | retryable => cases hp
    | terminal => cases hp
    | abandoned => cases hp

end Ledger

theorem View.transcriptionAttempts_started (v : View) (a x : String) (n : Nat) (t : Int) :
    (v.withTranscriptionAttempt (AttemptTable.started a x n t)).transcriptionAttempts x =
      v.transcriptionAttempts x ++ [AttemptTable.started a x n t] :=
  update_self ..

theorem View.deliveryAttempts_started (v : View) (a x : String) (n : Nat) (t : Int) :
    (v.withDeliveryAttempt (AttemptTable.started a x n t)).deliveryAttempts x =
      v.deliveryAttempts x ++ [AttemptTable.started a x n t] :=
  update_self ..

theorem starts_history (item : Item) (events : List Event) :
    starts (history item events) = (startsOf item events).length := by
  unfold starts history startsOf
  rw [List.countP_filterMap, List.length_filterMap_eq_countP]
  congr 1
  funext e
  cases e with
  | started i a t => by_cases hi : i = item <;> simp [Event.move, hi, Move.isStart]
  | finished i a t how => by_cases hi : i = item <;> simp [Event.move, hi, Move.isStart]
  | reopened i t => by_cases hi : i = item <;> simp [Event.move, hi, Move.isStart]
  | called i a => simp [Event.move]
  | answered i a ok => simp [Event.move]

theorem finished_of_history {item : Item} {events : List Event} {t : Int} {how : Finish}
    (h : .finished t how ∈ history item events) : ∃ a, .finished item a t how ∈ events := by
  obtain ⟨e, he, hm⟩ := List.mem_filterMap.mp h
  cases e with
  | finished i a u k =>
    simp only [Event.move, Option.ite_none_right_eq_some, Option.some.injEq, Move.finished.injEq] at hm
    obtain ⟨rfl, rfl, rfl⟩ := hm
    exact ⟨a, he⟩
  | started i a u => simp [Event.move] at hm
  | reopened i u => simp [Event.move] at hm
  | called i a => cases hm
  | answered i a ok => cases hm

namespace Board
variable {ι δ : Type} [DecidableEq ι] {b b' : Board ι δ} {p : Policy} {moves history : String → List Move}

theorem Inv.keys (h : b.Inv p history) (hs : b.Step p moves b') {x : String}
    (hm : starts (moves x) = 0) :
    (b'.items x).rows.map Attempt.key = (b.items x).rows.map Attempt.key := by
  rcases h.change hs x with hc | ⟨_, _, _, _, he⟩
  · exact hc.keys hm
  · rw [he]

theorem Inv.done (h : b.Inv p history) (hs : b.Step p moves b') {x : String}
    (hp : (b'.items x).phase = .done) :
    (b.items x).phase = .done ∨ ∃ t, .finished t .succeeded ∈ moves x := by
  rcases h.change hs x with hc | ⟨_, _, _, _, he⟩
  · exact hc.done hp
  · rw [he] at hp
    cases hp

end Board

namespace Service
variable {ι : Type} {c c' : Service ι} {b b' : Board ι String} {d d' : Board ι Int}
variable {trace events : List Event} {route : Recording → RoutingDecision}

/-- The attempts on record for a piece of work: their ids and starts, by number. -/
def attempts (c : Service ι) : Item → List (String × Int)
  | .transcription x => (c.store.transcriptionAttempts.attemptsOf x).map Attempt.key
  | .delivery x => (c.store.deliveryAttempts.attemptsOf x).map Attempt.key

variable [DecidableEq ι]

theorem Accounted.step_attempts (h : c.Accounted trace b d) {now : Int} {input : Input ι}
    (hu : c.Undisturbed input) (hs : c.step route now input = some (c', events)) (item : Item)
    (hq : startsOf item events = []) : c'.attempts item = c.attempts item := by
  obtain ⟨b', d', h', hb, hd⟩ := h.step hu hs
  have hle := (step_some hs).1.1
  have hzero : starts (history item events) = 0 := by rw [starts_history, hq]; rfl
  cases item with
  | transcription x =>
    change (c'.store.view.transcriptionLedger x).rows.map _ = (c.store.view.transcriptionLedger x).rows.map _
    rw [h.refines.transcriptions, h'.refines.transcriptions]
    exact (h.transcription.pass (h.refines.transcription_clock ▸ hle)).keys hb hzero
  | delivery x =>
    change (c'.store.view.deliveryLedger x).rows.map _ = (c.store.view.deliveryLedger x).rows.map _
    rw [h.refines.deliveries, h'.refines.deliveries]
    exact (h.delivery.pass (h.refines.delivery_clock ▸ hle)).keys hd hzero

theorem Accounted.step_done (h : c.Accounted trace b d) {now : Int} {input : Input ι}
    (hu : c.Undisturbed input) (hs : c.step route now input = some (c', events)) {x : String}
    (hp : (c'.store.view.deliveryLedger x).phase = .done) :
    (c.store.view.deliveryLedger x).phase = .done ∨
      ∃ a t, .finished (.delivery x) a t .succeeded ∈ events := by
  obtain ⟨b', d', h', hb, hd⟩ := h.step hu hs
  have hle := (step_some hs).1.1
  rw [h'.refines.deliveries] at hp
  rw [h.refines.deliveries]
  refine ((h.delivery.pass (h.refines.delivery_clock ▸ hle)).done hd hp).imp_right ?_
  rintro ⟨t, ht⟩
  obtain ⟨a, ha⟩ := finished_of_history ht
  exact ⟨a, t, ha⟩

omit [DecidableEq ι] in
theorem settle_eq {κ : Type} {place : Service ι → κ → Service ι}
    {r : Store × Except StorageError (κ × List Event)} (h : c.settle place r = (c', events)) :
    (∃ s next, r = (s, .ok (next, events)) ∧ c' = place { c with store := s } next) ∨
      ∃ s, c' = stopped { c with store := s } ∧ events = [] := by
  cases r with
  | mk s o =>
    cases o with
    | ok q =>
      cases h
      exact Or.inl ⟨s, q.1, rfl, rfl⟩
    | error e =>
      cases h
      exact Or.inr ⟨s, rfl, rfl⟩

end Service

namespace Service
variable {c c' : Process} {b : Board Unit String} {d : Board Unit Int}
variable {trace events : List Event} {route : Recording → RoutingDecision}

/-- What a run tells of the attempts, as far as it got. -/
structure Told (c : Process) (trace : List Event) : Prop where
  starts : ∀ item, startsOf item trace = c.attempts item
  calls : CallsOwnAttempt trace
  transcribing : ∀ recording a start, c.transcribers () = .started recording a start →
    Fresh trace (.transcription recording.id) a
  delivering : ∀ candidate a, c.deliverers () = .started candidate a →
    Fresh trace (.delivery candidate.delivery.id) a
  answered : ∀ candidate a t, c.deliverers () = .answered candidate a t (.ok ()) →
    .answered (.delivery candidate.delivery.id) a true ∈ trace
  delivered : ∀ x, (c.store.view.deliveryLedger x).phase = .done →
    ∃ a, .answered (.delivery x) a true ∈ trace

namespace Told

/-- An attempt whose row is new is fresh once it is committed. -/
theorem fresh_started (h : Told c trace) {item : Item} {a : String} {t : Int}
    (hn : a ∉ (c.attempts item).map (·.1)) : Fresh (trace ++ [.started item a t]) item a := by
  rw [← h.starts item] at hn
  constructor
  · have hone : startsOf item [.started item a t] = [(a, t)] := by simp [startsOf]
    rw [startsOf_append, List.map_append, List.count_append, List.count_eq_zero_of_not_mem hn, hone]
    simp
  · intro hm
    have hold : Event.called item a ∈ trace := by simpa using hm
    obtain ⟨before, after, he⟩ := List.append_of_mem hold
    have hone := (h.calls before after item a he).1
    apply hn
    rw [he, startsOf_append, List.map_append]
    exact List.mem_append_left _ (List.count_pos_iff.mp (by rw [hone]; exact Nat.one_pos))

/-- A step that starts nothing and calls nothing. -/
theorem quiet (h : Told c trace) (ha : c.Accounted trace b d) {now : Int} {input : Input Unit}
    (hu : c.Undisturbed input) (hs : c.step route now input = some (c', events))
    (hq : ∀ item, startsOf item events = []) (hc : ∀ item a, .called item a ∉ events)
    (hfin : ∀ x a t, .finished (.delivery x) a t .succeeded ∈ events →
      ∃ a, .answered (.delivery x) a true ∈ trace)
    (htr : ∀ recording a start, c'.transcribers () = .started recording a start →
      c.transcribers () = .started recording a start)
    (hdl : ∀ candidate a, c'.deliverers () = .started candidate a →
      c.deliverers () = .started candidate a)
    (han : ∀ candidate a t, c'.deliverers () = .answered candidate a t (.ok ()) →
      c.deliverers () = .answered candidate a t (.ok ()) ∨
        .answered (.delivery candidate.delivery.id) a true ∈ events) :
    Told c' (trace ++ events) where
  starts item := by
    rw [startsOf_append, hq, List.append_nil, h.starts, ha.step_attempts hu hs item (hq item)]
  calls := h.calls.append_uncalled hc
  transcribing recording a start he :=
    (h.transcribing recording a start (htr recording a start he)).append (hq _) (hc _ _)
  delivering candidate a he := (h.delivering candidate a (hdl candidate a he)).append (hq _) (hc _ _)
  answered candidate a t he := by
    rcases han candidate a t he with hold | hnew
    · exact List.mem_append_left _ (h.answered candidate a t hold)
    · exact List.mem_append_right _ hnew
  delivered x hp := by
    rcases ha.step_done hu hs hp with hold | ⟨a, t, hm⟩
    · obtain ⟨a, ha⟩ := h.delivered x hold
      exact ⟨a, List.mem_append_left _ ha⟩
    · obtain ⟨a, ha⟩ := hfin x a t hm
      exact ⟨a, List.mem_append_left _ ha⟩

theorem started (h : Told c trace) (ha : c.Accounted trace b d) {now : Int} {input : Input Unit}
    {item : Item} {a : String} {t : Int} (hu : c.Undisturbed input)
    (hs : c.step route now input = some (c', [.started item a t]))
    (hn : a ∉ (c.attempts item).map (·.1)) (hatt : c'.attempts item = c.attempts item ++ [(a, t)])
    (htr : ∀ recording k start, c'.transcribers () = .started recording k start →
      (item = .transcription recording.id ∧ k = a) ∨
        (item ≠ .transcription recording.id ∧ c.transcribers () = .started recording k start))
    (hdl : ∀ candidate k, c'.deliverers () = .started candidate k →
      (item = .delivery candidate.delivery.id ∧ k = a) ∨
        (item ≠ .delivery candidate.delivery.id ∧ c.deliverers () = .started candidate k))
    (han : ∀ candidate k u, c'.deliverers () = .answered candidate k u (.ok ()) →
      c.deliverers () = .answered candidate k u (.ok ())) :
    Told c' (trace ++ [.started item a t]) where
  starts other := by
    by_cases ho : item = other
    · subst other
      have hone : startsOf item [.started item a t] = [(a, t)] := by simp [startsOf]
      rw [startsOf_append, h.starts, hone, hatt]
    · have hnone : startsOf other [.started item a t] = [] := by simp [startsOf, ho]
      rw [startsOf_append, hnone, List.append_nil, h.starts, ha.step_attempts hu hs other hnone]
  calls := h.calls.append_uncalled (by simp)
  transcribing recording k start he := by
    rcases htr recording k start he with ⟨rfl, rfl⟩ | ⟨hne, hold⟩
    · exact h.fresh_started hn
    · exact (h.transcribing recording k start hold).append (by simp [startsOf, hne]) (by simp)
  delivering candidate k he := by
    rcases hdl candidate k he with ⟨rfl, rfl⟩ | ⟨hne, hold⟩
    · exact h.fresh_started hn
    · exact (h.delivering candidate k hold).append (by simp [startsOf, hne]) (by simp)
  answered candidate k u he := List.mem_append_left _ (h.answered candidate k u (han candidate k u he))
  delivered x hp := by
    rcases ha.step_done hu hs hp with hold | ⟨k, u, hm⟩
    · obtain ⟨k, hk⟩ := h.delivered x hold
      exact ⟨k, List.mem_append_left _ hk⟩
    · simp at hm

theorem called (h : Told c trace) (ha : c.Accounted trace b d) {now : Int} {input : Input Unit}
    {item : Item} {a : String} (hu : c.Undisturbed input)
    (hs : c.step route now input = some (c', [.called item a])) (hf : Fresh trace item a)
    (htr : ∀ recording k start, c'.transcribers () = .started recording k start →
      item ≠ .transcription recording.id ∧ c.transcribers () = .started recording k start)
    (hdl : ∀ candidate k, c'.deliverers () = .started candidate k →
      item ≠ .delivery candidate.delivery.id ∧ c.deliverers () = .started candidate k)
    (han : ∀ candidate k u, c'.deliverers () = .answered candidate k u (.ok ()) →
      c.deliverers () = .answered candidate k u (.ok ())) :
    Told c' (trace ++ [.called item a]) where
  starts other := by
    have hnone : startsOf other [.called item a] = [] := rfl
    rw [startsOf_append, hnone, List.append_nil, h.starts, ha.step_attempts hu hs other hnone]
  calls := h.calls.append_called hf
  transcribing recording k start he := by
    obtain ⟨hne, hold⟩ := htr recording k start he
    exact (h.transcribing recording k start hold).append rfl (by simp [hne.symm])
  delivering candidate k he := by
    obtain ⟨hne, hold⟩ := hdl candidate k he
    exact (h.delivering candidate k hold).append rfl (by simp [hne.symm])
  answered candidate k u he := List.mem_append_left _ (h.answered candidate k u (han candidate k u he))
  delivered x hp := by
    rcases ha.step_done hu hs hp with hold | ⟨k, u, hm⟩
    · obtain ⟨k, hk⟩ := h.delivered x hold
      exact ⟨k, List.mem_append_left _ hk⟩
    · simp at hm

/-- The process is gone: no tick has anything to tell. -/
theorem lost (h : Told c trace) (ha : c.Accounted trace b d) {now : Int} {input : Input Unit}
    (hu : c.Undisturbed input) (hs : c.step route now input = some (c', []))
    (htr : c'.transcribers () = .ready none) (hdl : c'.deliverers () = .ready none) :
    Told c' (trace ++ []) := by
  refine h.quiet ha hu hs (fun _ => rfl) (by simp) (by simp) ?_ ?_ ?_
  · intro recording a start he
    rw [htr] at he
    cases he
  · intro candidate a he
    rw [hdl] at he
    cases he
  · intro candidate a t he
    rw [hdl] at he
    cases he

theorem transcribes (h : Told c trace) (ha : c.Accounted trace b d) {now : Int} {id : String}
    {reply : Except WorkerFailure TranscriptionOutput} (hu : c.Undisturbed (.transcribe () id reply))
    (hs : c.step route now (.transcribe () id reply) = some (c', events)) :
    Told c' (trace ++ events) := by
  have he := (step_some hs).2
  unfold apply at he
  rcases settle_eq he with ⟨s, next, hr, rfl⟩ | ⟨s, rfl, rfl⟩
  · have hsh := Transcription.action_shows hr
    change (c.transcribers ()).Shows c.store s next events at hsh
    generalize hpc : c.transcribers () = pc at hsh
    cases hsh with
    | quiet hev hnext =>
      refine h.quiet ha hu hs (fun item => ?_) (fun item a hm => ?_) (fun x a t hm => ?_) ?_
        (fun _ _ he => he) fun _ _ _ he => Or.inl he
      · apply List.filterMap_eq_nil_iff.mpr
        intro e he
        obtain ⟨x, a, t, how, rfl⟩ := hev e he
        rfl
      · obtain ⟨x, k, t, how, he⟩ := hev _ hm
        cases he
      · obtain ⟨y, k, u, how, he⟩ := hev _ hm
        cases he
      · exact fun recording a start he => absurd he (hnext recording a start)
    | starts recording a start n t hfresh hv =>
      refine h.started ha hu hs ?_ ?_ ?_ ?_ fun _ _ _ he => he
      · simp only [attempts, List.map_map, List.mem_map, not_exists, not_and]
        exact fun row hm he => hfresh recording.id row hm he
      · change (s.view.transcriptionAttempts recording.id).map Attempt.key = _
        rw [hv, View.transcriptionAttempts_started, List.map_append]
        rfl
      · intro recording' k start' he
        cases he
        exact Or.inl ⟨rfl, rfl⟩
      · exact fun candidate k he => Or.inr ⟨by simp, he⟩
    | calls recording a start =>
      refine h.called ha hu hs (h.transcribing recording a start hpc) ?_ ?_ fun _ _ _ he => he
      · intro recording' k start' he
        cases he
      · exact fun candidate k he => ⟨by simp, he⟩
    | answers item a ok hnext =>
      refine h.quiet ha hu hs (fun _ => rfl) (by simp) (by simp) ?_ (fun _ _ he => he)
        fun _ _ _ he => Or.inl he
      exact fun recording a start he => absurd he (hnext recording a start)
  · exact h.lost ha hu hs rfl rfl

theorem delivers (h : Told c trace) (ha : c.Accounted trace b d) {now : Int} {id : String}
    {reply : Except WorkerFailure Unit} (hu : c.Undisturbed (.deliver () id reply))
    (hs : c.step route now (.deliver () id reply) = some (c', events)) :
    Told c' (trace ++ events) := by
  have he := (step_some hs).2
  unfold apply at he
  rcases settle_eq he with ⟨s, next, hr, rfl⟩ | ⟨s, rfl, rfl⟩
  · have hsh := Delivering.action_shows hr
    change (c.deliverers ()).Shows c.store s next events at hsh
    generalize hpc : c.deliverers () = pc at hsh
    cases hsh with
    | quiet hev hnext hnext' =>
      refine h.quiet ha hu hs (fun item => ?_) (fun item a hm => ?_) (fun x a t hm => ?_)
        (fun _ _ _ he => he) ?_ ?_
      · apply List.filterMap_eq_nil_iff.mpr
        intro e he
        obtain ⟨x, a, t, how, rfl, _⟩ := hev e he
        rfl
      · obtain ⟨x, k, t, how, he, _⟩ := hev _ hm
        cases he
      · obtain ⟨y, k, u, how, he, hok⟩ := hev _ hm
        cases he
        obtain ⟨candidate, rfl, rfl⟩ := hok rfl
        exact ⟨a, h.answered candidate a t hpc⟩
      · exact fun candidate a he => absurd he (hnext candidate a)
      · exact fun candidate a t he => absurd he (hnext' candidate a t _)
    | starts candidate a n t hfresh hv =>
      refine h.started ha hu hs ?_ ?_ ?_ ?_ ?_
      · simp only [attempts, List.map_map, List.mem_map, not_exists, not_and]
        exact fun row hm he => hfresh candidate.delivery.id row hm he
      · change (s.view.deliveryAttempts candidate.delivery.id).map Attempt.key = _
        rw [hv, View.deliveryAttempts_started, List.map_append]
        rfl
      · exact fun recording k start he => Or.inr ⟨by simp, he⟩
      · intro candidate' k he
        cases he
        exact Or.inl ⟨rfl, rfl⟩
      · intro candidate' k u he
        cases he
    | calls candidate a =>
      refine h.called ha hu hs (h.delivering candidate a hpc) ?_ ?_ ?_
      · exact fun recording k start he => ⟨by simp, he⟩
      · intro candidate' k he
        cases he
      · intro candidate' k u he
        cases he
    | answers candidate a t result =>
      refine h.quiet ha hu hs (fun _ => rfl) (by simp) (by simp) (fun _ _ _ he => he) ?_ ?_
      · intro candidate' k he
        cases he
      · intro candidate' k u he
        cases he
        exact Or.inr (by simp [Except.isOk, Except.toBool])
  · exact h.lost ha hu hs rfl rfl

/-- A step of no attempt worker: all it can show are reopenings and abandoned attempts. -/
theorem unmoved (h : Told c trace) (ha : c.Accounted trace b d) {now : Int} {input : Input Unit}
    (hu : c.Undisturbed input) (hs : c.step route now input = some (c', events))
    (ht : c'.transcribers = c.transcribers) (hd : c'.deliverers = c.deliverers)
    (he : ∀ e ∈ events, (∃ i t, e = .reopened i t) ∨ ∃ i a t, e = .finished i a t .abandoned) :
    Told c' (trace ++ events) := by
  refine h.quiet ha hu hs (fun item => ?_) (fun item a hm => ?_) (fun x a t hm => ?_) ?_ ?_ ?_
  · apply List.filterMap_eq_nil_iff.mpr
    intro e hm
    rcases he e hm with ⟨i, t, rfl⟩ | ⟨i, a, t, rfl⟩ <;> rfl
  · rcases he _ hm with ⟨i, t, hk⟩ | ⟨i, k, t, hk⟩ <;> cases hk
  · rcases he _ hm with ⟨i, u, hk⟩ | ⟨i, k, u, hk⟩ <;> cases hk
  · exact fun recording a start hk => ht ▸ hk
  · exact fun candidate a hk => hd ▸ hk
  · exact fun candidate a t hk => Or.inl (hd ▸ hk)

theorem answers {α : Type} (h : Told c trace) (ha : c.Accounted trace b d) {now : Int}
    {input : Input Unit} (hu : c.Undisturbed input)
    (hs : c.step route now input = some (c', events)) {shown : α → List Event}
    {r : Store × Except StorageError α}
    (he : ({ c with clock := now } : Process).answer shown r = (c', events))
    (hshown : ∀ a, ∀ e ∈ shown a, ∃ i t, e = .reopened i t) : Told c' (trace ++ events) := by
  cases r with
  | mk s o =>
    cases o with
    | ok a =>
      cases he
      exact h.unmoved ha hu hs rfl rfl fun e hm => Or.inl (hshown a e hm)
    | error e =>
      cases he
      exact h.unmoved ha hu hs rfl rfl (by simp)

theorem step (h : Told c trace) (ha : c.Accounted trace b d) {now : Int} {input : Input Unit}
    (hu : c.Undisturbed input) (hs : c.step route now input = some (c', events)) :
    Told c' (trace ++ events) := by
  have he := (step_some hs).2
  unfold apply at he
  cases input with
  | transcribe i id reply => exact h.transcribes ha hu hs
  | deliver i id reply => exact h.delivers ha hu hs
  | route i id =>
    rcases settle_eq he with ⟨s, next, hr, rfl⟩ | ⟨s, rfl, rfl⟩
    · obtain rfl := Routing.action_silent hr
      exact h.unmoved ha hu hs rfl rfl (by simp)
    · exact h.lost ha hu hs rfl rfl
  | upload new => exact h.answers ha hu hs he (by simp)
  | manualRoute input => exact h.answers ha hu hs he (by simp)
  | manualRetryTranscription input => exact h.answers ha hu hs he (by simp)
  | manualRetryDelivery input => exact h.answers ha hu hs he (by simp)
  | refuse | crash =>
    cases he
    exact h.lost ha hu hs rfl rfl
  | recover =>
    cases he
    refine h.unmoved ha hu hs rfl rfl fun e hm => Or.inr ?_
    rcases List.mem_append.mp hm with hm | hm
    · obtain ⟨a, _, rfl⟩ := List.mem_map.mp hm
      exact ⟨_, _, _, rfl⟩
    · obtain ⟨a, _, rfl⟩ := List.mem_map.mp hm
      exact ⟨_, _, _, rfl⟩

end Told

theorem initial_told : Told initial [] where
  starts item := by cases item <;> rfl
  calls before after item a he := by simp at he
  transcribing recording a start he := by cases he
  delivering candidate a he := by cases he
  answered candidate a t he := by cases he
  delivered x hp := by cases hp

/-- Every run of the process is told. -/
theorem Runs.told (hr : Run route trace c) : Told c trace := by
  induction hr with
  | start => exact initial_told
  | @step trace events c c' now input hruns _ hs ih =>
    obtain ⟨_, b, d, ha, hb, hd⟩ := Runs.undisturbed hruns
    exact ih.step ha (ha.undisturbed hb hd input) hs

end Service

end Telegraph
