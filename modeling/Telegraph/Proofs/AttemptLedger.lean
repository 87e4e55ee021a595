import Telegraph.Proofs.Told

namespace Telegraph
open Lib Program Lib.Retry SqliteStore

/-- The attempts of one piece of work make a ledger; `done` says the work is completed. -/
structure Ledger.Kept {δ : Type} (rows : List (Attempt δ)) (done : Prop) : Prop where
  numbered : rows.map (·.attemptNumber) = List.range' 1 rows.length
  inFlight : ∀ a ∈ rows, a.finishedAt = none → a.attemptNumber = rows.length
  oneInFlight : (rows.filter (·.finishedAt.isNone)).length ≤ 1
  succeeded : ∀ a ∈ rows, a.status = .succeeded → a.attemptNumber = rows.length
  oneSucceeded : (rows.filter (·.status == .succeeded)).length ≤ 1
  completed : (∃ a ∈ rows, a.status = .succeeded) ↔ done

namespace Ledger
variable {δ : Type} {l : Ledger δ}

theorem ending_succeeded {a : Attempt δ} : a.ending = .succeeded ↔ a.status = .succeeded := by
  unfold Attempt.ending
  cases a.status with
  | succeeded => simp
  | inProgress => by_cases hr : a.retryable <;> simp [hr]
  | failed => by_cases hr : a.retryable <;> simp [hr]

theorem track_concat {before : List (Attempt δ)} {a : Attempt δ} (h : l.rows = before ++ [a]) :
    l.track.tries = before.map Attempt.toTry ++ [a.toTry] := by
  change l.rows.map _ = _
  rw [h, List.map_append, List.map_singleton]

/-- All but the last attempt have ended without success. -/
theorem earlier_failed (hw : l.track.WellFormed) {before : List (Attempt δ)} {a : Attempt δ}
    (h : l.rows = before ++ [a]) :
    ∀ b ∈ before, b.finishedAt ≠ none ∧ b.status ≠ .succeeded := by
  intro b hb
  obtain ⟨f, e, hf, he⟩ := hw.earlier (track_concat h) b.toTry (List.mem_map_of_mem hb)
  unfold Attempt.toTry at hf
  cases hfin : b.finishedAt with
  | none =>
    rw [hfin] at hf
    cases hf
  | some g =>
    rw [hfin] at hf
    cases hf
    exact ⟨by simp, fun hs => he (ending_succeeded.mpr hs)⟩

theorem Sound.numbered (hs : l.Sound) :
    l.rows.map (·.attemptNumber) = List.range' 1 l.rows.length := by
  apply List.ext_getElem
  · simp
  · intro n hn _
    rw [List.length_map] at hn
    rw [List.getElem_map, List.getElem_range', hs.1 n _ (List.getElem?_eq_getElem hn)]
    omega

theorem Sound.completed (hs : l.Sound) (hw : l.track.WellFormed) :
    (∃ a ∈ l.rows, a.status = .succeeded) ↔ l.phase = .done := by
  constructor
  · rintro ⟨a, ha, hst⟩
    have hfin : a.finishedAt ≠ none := by
      intro hn
      rw [(hs.2 a ha).mp hn] at hst
      cases hst
    obtain ⟨f, hf⟩ := Option.ne_none_iff_exists'.mp hfin
    apply hw.succeeded a.toTry (List.mem_map_of_mem ha) f
    unfold Attempt.toTry
    rw [hf, ending_succeeded.mpr hst]
    rfl
  · intro hp
    obtain ⟨before, s, f, ht⟩ := hw.done hp
    have hm : Try.mk s (some (f, .succeeded)) ∈ l.track.tries := by simp [ht]
    obtain ⟨a, ha, he⟩ := List.mem_map.mp hm
    refine ⟨a, ha, ending_succeeded.mp ?_⟩
    unfold Attempt.toTry at he
    cases hf : a.finishedAt with
    | none =>
      rw [hf] at he
      cases he
    | some g =>
      rw [hf] at he
      exact (Prod.mk.inj (Option.some.inj (Try.mk.inj he).2)).2

/-- What the board keeps of an item is a ledger. -/
theorem Sound.kept (hs : l.Sound) (hw : l.track.WellFormed) : Kept l.rows (l.phase = .done) := by
  rcases List.eq_nil_or_concat l.rows with hn | ⟨before, z, hz⟩
  · have hdone := hs.completed hw
    rw [hn] at hdone ⊢
    exact ⟨rfl, by simp, by simp, by simp, by simp, hdone⟩
  rw [List.concat_eq_append] at hz
  have hearly := earlier_failed hw hz
  have hlast : z.attemptNumber = l.rows.length := by
    rw [hs.1 before.length z (by simp [hz]), hz]
    simp
  refine ⟨hs.numbered, fun a ha hf => ?_, ?_, fun a ha hst => ?_, ?_, hs.completed hw⟩
  · rw [hz] at ha
    rcases List.mem_append.mp ha with ha | ha
    · exact absurd hf (hearly a ha).1
    · rw [List.mem_singleton.mp ha]
      exact hlast
  · rw [hz, List.filter_append, List.filter_eq_nil_iff.mpr fun b hb => by simpa using (hearly b hb).1,
      List.nil_append]
    exact List.length_filter_le _ [z]
  · rw [hz] at ha
    rcases List.mem_append.mp ha with ha | ha
    · exact absurd hst (hearly a ha).2
    · rw [List.mem_singleton.mp ha]
      exact hlast
  · rw [hz, List.filter_append, List.filter_eq_nil_iff.mpr fun b hb => by simpa using (hearly b hb).2,
      List.nil_append]
    exact List.length_filter_le _ [z]

end Ledger

namespace Store
variable {s : Store} {x : String}

theorem transcribed_iff (h : s.view.Lifecycle) :
    (s.view.transcriptionLedger x).phase = .done ↔ (s.transcript x).isSome = true := by
  have hstage := h x
  change Stage (s.recording x) (s.transcript x) (s.deliveryFor x) at hstage
  change (s.view.transcriptionStage x).1 = _ ↔ _
  cases hr : s.recording x with
  | none =>
    rw [hr] at hstage
    rw [View.transcriptionStage_of_none (v := s.view) hr, hstage.1]
    simp
  | some r =>
    rw [hr] at hstage
    rw [View.transcriptionStage_of_recording (v := s.view) hr]
    change StageOf r.status _ _ _ at hstage
    cases hs : r.status <;> rw [hs] at hstage
    case received | transcribing | transcriptionFailed =>
      simp [RecordingStatus.transcription, hstage.1]
    all_goals simp [RecordingStatus.transcription, hstage.1]

theorem delivered_iff : (s.view.deliveryLedger x).phase = .done ↔
    ∃ d, s.delivery x = some d ∧ d.status = .delivered := by
  change (s.view.deliveryStage x).1 = _ ↔ _
  cases hd : s.delivery x with
  | none =>
    rw [View.deliveryStage_of_none (v := s.view) hd]
    simp
  | some d =>
    rw [View.deliveryStage_of_delivery (v := s.view) hd]
    cases hs : d.status <;> simp [DeliveryStatus.phase, hs]

end Store

namespace Service
variable {c : Process} {trace : List Event} {route : Recording → RoutingDecision}

/-- The attempt tables are a ledger of what the workers did: numbered in start
order, final once finished, at most one attempt open and at most one successful,
and each integration call made for a row of its own committed before it. -/
theorem attempt_ledger (hr : Run route trace c) :
    (∀ x, Ledger.Kept (c.store.transcriptionAttempts.attemptsOf x)
      ((c.store.transcript x).isSome = true)) ∧
    (∀ x, Ledger.Kept (c.store.deliveryAttempts.attemptsOf x)
      (∃ d, c.store.delivery x = some d ∧ d.status = .delivered)) ∧
    (∀ item, startsOf item trace = c.attempts item) ∧ CallsOwnAttempt trace ∧
    (∀ x d, c.store.delivery x = some d → d.status = .delivered →
      ∃ a, .answered (.delivery x) a true ∈ trace) ∧
    ∀ later c', Runs route (fun _ _ => True) c later c' → ∀ (x : String) (n : Nat),
      (∀ a : TranscriptionAttempt, (c.store.transcriptionAttempts.attemptsOf x)[n]? = some a → a.finishedAt ≠ none →
        (c'.store.transcriptionAttempts.attemptsOf x)[n]? = some a) ∧
      ∀ a : DeliveryAttempt, (c.store.deliveryAttempts.attemptsOf x)[n]? = some a → a.finishedAt ≠ none →
        (c'.store.deliveryAttempts.attemptsOf x)[n]? = some a := by
  obtain ⟨_, b, d, h, hb, hd⟩ := hr.undisturbed
  have told := hr.told
  have rowsT : ∀ x, (b.items x).rows = c.store.transcriptionAttempts.attemptsOf x := by
    intro x
    rw [← h.refines.transcriptions]
    rfl
  have rowsD : ∀ x, (d.items x).rows = c.store.deliveryAttempts.attemptsOf x := by
    intro x
    rw [← h.refines.deliveries]
    rfl
  refine ⟨fun x => ?_, fun x => ?_, told.starts, told.calls, fun x e he hst => ?_,
    fun later c' hruns x n => ?_⟩
  · have hk := (h.transcription.sound x).kept (h.transcription.wellFormed x)
    rw [rowsT, ← h.refines.transcriptions, Store.transcribed_iff h.refines.lifecycle] at hk
    exact hk
  · have hk := (h.delivery.sound x).kept (h.delivery.wellFormed x)
    rw [rowsD, ← h.refines.deliveries, Store.delivered_iff] at hk
    exact hk
  · exact told.delivered x (Store.delivered_iff.mpr ⟨e, he, hst⟩)
  · obtain ⟨hruns', _⟩ := h.alone_runs hb hd hruns
    obtain ⟨b', d', h', hkb, hkd⟩ := h.runs hruns'
    refine ⟨fun a ha hf => ?_, fun a ha hf => ?_⟩
    · have hkeep := hkb x n a (by rw [rowsT]; exact ha) hf
      rw [← h'.refines.transcriptions] at hkeep
      exact hkeep
    · have hkeep := hkd x n a (by rw [rowsD]; exact ha) hf
      rw [← h'.refines.deliveries] at hkeep
      exact hkeep

theorem attempt_ledger_second_attempt : ∃ c trace,
    Service.initial.play toNotes secondAttempt = some (c, trace) ∧
      (c.store.deliveryAttempts.attemptsOf "d1").length = 2 ∧
      Ledger.Kept (c.store.deliveryAttempts.attemptsOf "d1")
        (∃ d, c.store.delivery "d1" = some d ∧ d.status = .delivered) ∧ CallsOwnAttempt trace := by
  have hp : (Service.initial.play toNotes secondAttempt).map
      (fun r => (r.1.store.deliveryAttempts.attemptsOf "d1").length) = some 2 := by
    decide +kernel
  obtain ⟨⟨c, trace⟩, hplay, hlen⟩ := Option.map_eq_some_iff.mp hp
  obtain ⟨_, hdelivery, _, hcalls, _⟩ := attempt_ledger (run_of_play hplay)
  exact ⟨c, trace, hplay, hlen, hdelivery "d1", hcalls⟩

end Service
end Telegraph
