import Telegraph.Proofs.ServiceRefines

namespace Telegraph
open Lib Lib.Retry SqliteStore Function

/-- `l'` still holds every finished attempt of `l`, at its place. -/
def Ledger.Retains {δ : Type} (l l' : Ledger δ) : Prop :=
  ∀ (n : Nat) (a : Attempt δ), l.rows[n]? = some a → a.finishedAt ≠ none → l'.rows[n]? = some a

namespace Board
variable {ι δ : Type} {b b' : Board ι δ} {p : Policy} {moves history : String → List Move}

theorem Inv.retains [DecidableEq ι] (h : b.Inv p history) (hs : b.Step p moves b') (x : String) :
    (b.items x).Retains (b'.items x) := by
  intro n a ha hf
  rcases h.change hs x with hc | ⟨_, _, _, hr, he⟩
  · exact hc.keeps_finished ha hf
  · rw [he]
    exact ha

/-- What a tick has seen nobody has started since. -/
def Alone (b : Board ι δ) : Prop := ∀ i t x l, (b.slots i).Offers t x l →
  (b.items x).rows.length = l.rows.length

theorem Offers_free {t : Int} {x : String} {l : Ledger δ} : ¬ (Slot.free).Offers t x l :=
  fun h => by cases h

section Sole
variable [DecidableEq ι] [Subsingleton ι]

/-- A sole worker's own step: what its new slot offers is as it stands. -/
theorem Alone.hand {i : ι} {s : Slot δ}
    (hs : ∀ t x l, s.Offers t x l → (b.items x).rows.length = l.rows.length) : (b.hand i s).Alone := by
  intro j t x l ho
  obtain rfl := Subsingleton.elim j i
  rw [slots_hand_self] at ho
  exact hs t x l ho

omit [DecidableEq ι] [Subsingleton ι] in
theorem Alone.put (h : b.Alone) {x : String} {l : Ledger δ} (hl : l.rows = (b.items x).rows) :
    (b.put x l).Alone := by
  intro i t y k ho
  have := h i t y k ho
  by_cases hy : y = x
  · subst y
    rw [items_put_self, hl]
    exact this
  · rw [items_put_ne hy]
    exact this

/-- Only the sole worker starts attempts, and then it holds what it started. -/
theorem Alone.step (h : b.Alone) (hi : b.Inv p history) (hs : b.Step p moves b') : b'.Alone := by
  cases hs with
  | still => exact h
  | wake i =>
    refine Alone.hand fun t x l ho => ?_
    cases ho with
    | seen hm => cases hm
  | look i t seen _ _ hseen =>
    refine Alone.hand fun t x l ho => ?_
    cases ho with
    | seen hm => exact congrArg (·.rows.length) (hseen x l hm).1
  | release i => exact .hand fun t x l ho => absurd ho Offers_free
  | claim i t x _ _ hp =>
    refine Alone.hand fun u y l ho => ?_
    cases ho with
    | claimed hl =>
      have hw := (hi.wellFormed x).unopened hp
      rw [items_put_self, hl]
      exact congrArg List.length (List.map_eq_nil_iff.mp hw.1)
  | lost i => exact .hand fun t x l ho => absurd ho Offers_free
  | select x since => exact h.put rfl
  | start i t x a l o => exact .hand fun t x l ho => by cases ho
  | answer i x a o => exact .hand fun t x l ho => by cases ho
  | finish i => exact .hand fun t x l ho => absurd ho Offers_free
  | reopen x m => exact h.put rfl
  | stop => exact fun i t x l ho => absurd ho Offers_free
  | recover detail message hr =>
    intro i t x l ho
    rw [show b.slots i = .free from hi.stopped hr i] at ho
    exact absurd ho Offers_free

end Sole
end Board

namespace Service
variable {ι : Type} {c c₀ c' : Service ι} {b b₀ : Board ι String} {d d₀ : Board ι Int}
variable {trace events : List Event} {route : Recording → RoutingDecision}

/-- The boards of a service and what its run has shown of them. -/
structure Accounted (c : Service ι) (trace : List Event) (b : Board ι String) (d : Board ι Int) :
    Prop where
  refines : c.Refines b d
  transcription : b.Inv Retry.policy fun x => history (.transcription x) trace
  delivery : d.Inv Retry.policy fun x => history (.delivery x) trace

theorem initial_accounted : (initial : Service ι).Accounted [] (.empty Timestamp.yearZero)
    (.empty Timestamp.yearZero) where
  refines := {
    lifecycle := fun _ => ⟨rfl, rfl⟩
    deadlines := fun _ _ h => by cases h
    transcriptions := rfl
    deliveries := rfl
    transcription_clock := rfl
    delivery_clock := rfl
    transcription_running := rfl
    delivery_running := rfl
    transcribers := fun _ => .ready none
    deliverers := fun _ => .ready none
    routers := fun _ => trivial }
  transcription := Board.inv_empty _
  delivery := Board.inv_empty _

variable [DecidableEq ι]

theorem step_some {now : Int} {input : Input ι} (hs : c.step route now input = some (c', events)) :
    (c.clock ≤ now ∧ Timestamp.InYears now ∧ c.Admits now input) ∧
      apply route { c with clock := now } now input = (c', events) := by
  unfold step at hs
  split at hs
  · rename_i h
    exact ⟨h, Option.some.inj hs⟩
  · cases hs

/-- What a step adds to the boards. -/
theorem Accounted.step (h : c.Accounted trace b d) {now : Int} {input : Input ι}
    (hu : c.Undisturbed input) (hs : c.step route now input = some (c', events)) :
    ∃ b' d', c'.Accounted (trace ++ events) b' d' ∧
      Board.Step Retry.policy { b with clock := now }
        (fun x => history (.transcription x) events) b' ∧
      Board.Step Retry.policy { d with clock := now } (fun x => history (.delivery x) events) d' := by
  obtain ⟨⟨hle, hy, ha⟩, he⟩ := step_some hs
  have hm := h.refines.steps route h.transcription h.delivery hu hle hy ha
  rw [he] at hm
  obtain ⟨b', d', hb, hd, hr⟩ := hm
  have hbi := (h.transcription.pass (h.refines.transcription_clock ▸ hle)).step hb
  have hdi := (h.delivery.pass (h.refines.delivery_clock ▸ hle)).step hd
  refine ⟨b', d', ⟨hr, ?_, ?_⟩, hb, hd⟩
  · simp only [history_append]
    exact hbi
  · simp only [history_append]
    exact hdi

/-- A run whose attempts are all started undisturbed plays on the boards, and no
finished attempt ever changes. -/
theorem Accounted.runs {trace₀ : List Event} (h : c₀.Accounted trace₀ b₀ d₀)
    (hr : Runs route (fun c input => c.Undisturbed input) c₀ trace c) :
    ∃ b d, c.Accounted (trace₀ ++ trace) b d ∧
      (∀ x, (b₀.items x).Retains (b.items x)) ∧ ∀ x, (d₀.items x).Retains (d.items x) := by
  induction hr with
  | start =>
    rw [List.append_nil]
    exact ⟨b₀, d₀, h, fun _ _ _ ha _ => ha, fun _ _ _ ha _ => ha⟩
  | step now input _ hu hs ih =>
    obtain ⟨b, d, ha, hb, hd⟩ := ih
    obtain ⟨b', d', ha', hb', hd'⟩ := ha.step hu hs
    have hle := (step_some hs).1.1
    refine ⟨b', d', List.append_assoc .. ▸ ha', fun x n a hn hf => ?_, fun x n a hn hf => ?_⟩
    · exact (ha.transcription.pass (ha.refines.transcription_clock ▸ hle)).retains hb' x n a
        (hb x n a hn hf) hf
    · exact (ha.delivery.pass (ha.refines.delivery_clock ▸ hle)).retains hd' x n a
        (hd x n a hn hf) hf

omit [DecidableEq ι] in
/-- Sole workers start their attempts undisturbed. -/
theorem Accounted.undisturbed (h : c.Accounted trace b d) (hb : b.Alone) (hd : d.Alone)
    (input : Input ι) : c.Undisturbed input := by
  cases input with
  | transcribe i id reply =>
    have hst := h.refines.transcribers i
    have halone := hb i
    simp only [Undisturbed]
    have hrows : ∀ x, (b.items x).rows = c.store.transcriptionAttempts.attemptsOf x := by
      intro x
      rw [← h.refines.transcriptions]
      rfl
    generalize c.transcribers i = pc at hst ⊢
    generalize b.slots i = slot at hst halone
    cases hst with
    | first t recording =>
      have hn := halone t recording.id ⟨[], .waiting, none, none⟩ (.claimed rfl)
      exact Or.inr (((h.transcription.sound _).lastNumber_getD (hrows _)).trans hn)
    | retry t recording l seen hm hdue =>
      have hn := halone t recording.id l (.seen hm)
      exact Or.inr (((h.transcription.sound _).lastNumber_getD (hrows _)).trans hn)
    | _ => trivial
  | deliver i id reply =>
    have hst := h.refines.deliverers i
    have halone := hd i
    simp only [Undisturbed]
    have hrows : ∀ x, (d.items x).rows = c.store.deliveryAttempts.attemptsOf x := by
      intro x
      rw [← h.refines.deliveries]
      rfl
    generalize c.deliverers i = pc at hst ⊢
    generalize d.slots i = slot at hst halone
    cases hst with
    | claimed t candidate seen hdue hp =>
      obtain ⟨l, hm, hshow, _⟩ := hp
      have hn := halone t candidate.delivery.id l (.seen hm)
      refine Or.inr ?_
      rw [(h.delivery.sound _).lastNumber (hrows _)]
      exact (Ledger.number_eq_iff.mpr hn).trans hshow.number.symm
    | _ => trivial
  | _ => trivial

/-- With one worker of each kind every run plays on the boards. -/
theorem Accounted.alone_runs [Subsingleton ι] {trace₀ : List Event} (h : c₀.Accounted trace₀ b₀ d₀)
    (hb₀ : b₀.Alone) (hd₀ : d₀.Alone) (hr : Runs route (fun _ _ => True) c₀ trace c) :
    Runs route (fun c input => c.Undisturbed input) c₀ trace c ∧
      ∃ b d, c.Accounted (trace₀ ++ trace) b d ∧ b.Alone ∧ d.Alone := by
  induction hr with
  | start => exact ⟨.start, b₀, d₀, (List.append_nil trace₀).symm ▸ h, hb₀, hd₀⟩
  | step now input _ _ hs ih =>
    obtain ⟨hruns, b, d, ha, hb, hd⟩ := ih
    have hu := ha.undisturbed hb hd input
    obtain ⟨b', d', ha', hb', hd'⟩ := ha.step hu hs
    have hle := (step_some hs).1.1
    refine ⟨.step now input hruns hu hs, b', d', List.append_assoc .. ▸ ha', ?_, ?_⟩
    · exact Board.Alone.step (b := { b with clock := now }) hb
        (ha.transcription.pass (ha.refines.transcription_clock ▸ hle)) hb'
    · exact Board.Alone.step (b := { d with clock := now }) hd
        (ha.delivery.pass (ha.refines.delivery_clock ▸ hle)) hd'

theorem Runs.undisturbed [Subsingleton ι] (hr : Run route trace c) :
    Runs route (fun c input => c.Undisturbed input) initial trace c ∧
      ∃ b d, c.Accounted trace b d ∧ b.Alone ∧ d.Alone :=
  initial_accounted.alone_runs (fun _ _ _ _ ho => absurd ho Board.Offers_free)
    (fun _ _ _ _ ho => absurd ho Board.Offers_free) hr

end Service
end Telegraph
