import Telegraph.Proofs.CleanShutdown

namespace Telegraph
open Lib Program Lib.Retry SqliteStore

namespace Board
variable {ι δ : Type} [DecidableEq ι] {b b' : Board ι δ} {p : Policy}
  {moves hist : String → List Move}

/-- Every end of an attempt is on the clock. -/
def EndedBy (b : Board ι δ) : Prop :=
  ∀ x, ∀ a ∈ (b.items x).rows, ∀ f, a.finishedAt = some f → f ≤ b.clock

theorem EndedBy.step (h : b.EndedBy) (hi : b.Inv p hist) (hs : b.Step p moves b') : b'.EndedBy := by
  intro x a ha f hf
  rw [hs.clock_eq]
  rcases hi.change hs x with hc | ⟨-, -, -, hr, he⟩
  · generalize b'.items x = l' at hc ha
    generalize moves x = ms at hc
    cases hc with
    | still | enter | reopen => exact h x a ha f hf
    | start attemptId y t =>
      rcases List.mem_append.mp ha with ha | ha
      · exact h x a ha f hf
      · rw [List.mem_singleton.mp ha] at hf
        cases hf
    | finish before c t how detail message hrows hopen hst hle =>
      rcases List.mem_append.mp ha with ha | ha
      · exact h x a (by rw [hrows]; exact List.mem_append_left _ ha) f hf
      · rw [List.mem_singleton.mp ha] at hf
        cases hf
        exact hle
  · rw [he] at ha
    exact h x a ha f hf

end Board

namespace Service
variable {c c' c₀ : Process} {trace events : List Event} {route : Recording → RoutingDecision}
  {turns : List (Turn Process (Int × Input Unit))} {now : Int} {input : Input Unit}

/-- In every reachable state each end of an attempt was read from the clock before. -/
theorem Runs.endedBy (hr : Run route trace c) :
    ∃ b d, c.Accounted trace b d ∧ b.Alone ∧ d.Alone ∧ b.EndedBy ∧ d.EndedBy := by
  induction hr with
  | start =>
    have hstart : Run route [] (initial : Process) := .start
    obtain ⟨-, b, d, ha, hb, hd⟩ := hstart.undisturbed
    refine ⟨b, d, ha, hb, hd, fun x a hm => ?_, fun x a hm => ?_⟩
    · rw [← ha.refines.transcriptions] at hm
      cases hm
    · rw [← ha.refines.deliveries] at hm
      cases hm
  | @step trace events c c' now input hr _ hs ih =>
    obtain ⟨b, d, ha, hb, hd, heb, hed⟩ := ih
    obtain ⟨b', d', ha', hbs, hds⟩ := ha.step (ha.undisturbed hb hd input) hs
    have hle := (step_some hs).1.1
    have hbi := ha.transcription.pass (ha.refines.transcription_clock ▸ hle)
    have hdi := ha.delivery.pass (ha.refines.delivery_clock ▸ hle)
    refine ⟨b', d', ha', Board.Alone.step (b := { b with clock := now }) hb hbi hbs,
      Board.Alone.step (b := { d with clock := now }) hd hdi hds, ?_, ?_⟩
    · refine Board.EndedBy.step (b := { b with clock := now }) (fun x a hm f hf => ?_) hbi hbs
      exact (heb x a hm f hf).trans (ha.refines.transcription_clock ▸ hle)
    · refine Board.EndedBy.step (b := { d with clock := now }) (fun x a hm f hf => ?_) hdi hds
      exact (hed x a hm f hf).trans (ha.refines.delivery_clock ▸ hle)

/-- The longest wait between two attempts. -/
def longestBackoff : Int := Duration.hours 6

theorem backoff_le (n : Nat) : Retry.backoff n ≤ longestBackoff := by
  unfold Retry.backoff longestBackoff
  split <;> decide

theorem Accounted.transcription_ledgers {b : Board Unit String} {d : Board Unit Int}
    (h : c.Accounted trace b d) (x : String) : (c.store.view.transcriptionLedger x).Sound := by
  rw [h.refines.transcriptions]
  exact h.transcription.sound x

theorem Accounted.delivery_ledgers {b : Board Unit String} {d : Board Unit Int}
    (h : c.Accounted trace b d) (x : String) : (c.store.view.deliveryLedger x).Sound := by
  rw [h.refines.deliveries]
  exact h.delivery.sound x

/-- What waits for a retry is due once the longest backoff has passed. -/
theorem Accounted.transcription_ripe {b : Board Unit String} {d : Board Unit Int}
    (h : c.Accounted trace b d) (he : b.EndedBy) {row : TranscriptionRetryRow}
    (hm : row ∈ c.store.transcriptionRetryRows)
    {recording : Recording} {t : Int} (ht : c.clock + longestBackoff ≤ t) :
    Transcription.isDue t (transcriptionCandidate row recording) = true := by
  refine ((h.transcription_due hm).2 recording t).mpr (.inr ?_)
  obtain ⟨before, a, hr, hf, -⟩ := (Store.mem_transcriptionRetryRows h.transcription_ledgers hm).2.2
  rw [h.refines.transcriptions] at hr
  have hend := he row.recordingId a (by rw [hr]; simp) _ hf
  have hclock := h.refines.transcription_clock
  have hback := backoff_le row.lastAttemptNumber
  omega

theorem Accounted.delivery_ripe {b : Board Unit String} {d : Board Unit Int}
    (h : c.Accounted trace b d) (he : d.EndedBy) {row : DeliveryCandidateRow}
    (hm : row ∈ c.store.deliveryCandidateRows)
    {e : DeliveryRow} (hd : c.store.delivery row.deliveryId = some e) {recording : Recording}
    {transcript : Transcript} {t : Int} (ht : c.clock + longestBackoff ≤ t) :
    Delivering.isDue t (deliveryCandidate row e.toDelivery recording transcript) = true := by
  have hclock := h.refines.delivery_clock
  have hlong : 0 ≤ longestBackoff := by decide
  rcases (Store.mem_deliveryCandidateRows h.delivery_ledgers hm).2.2 with
    ⟨-, hn, hf, -⟩ | ⟨n, f, hn, hf, hshow⟩
  · have hstage := View.deliveryStage_of_delivery (v := c.store.view) hd
    have hsince : (d.items row.deliveryId).since = some e.selectedAt := by
      rw [← h.refines.deliveries]
      change (c.store.view.deliveryStage row.deliveryId).2.1 = _
      rw [hstage]
    have hle := h.delivery.since _ _ hsince
    unfold Delivering.isDue deliveryCandidate
    dsimp only
    rw [hn]
    simp only [Bool.or_eq_true, decide_eq_true_eq]
    exact .inr (by omega)
  · refine ((h.delivery_due hm hn hf).2 e.toDelivery recording transcript t).mpr (.inr ?_)
    obtain ⟨before, a, hr, hfa, -⟩ := hshow
    rw [h.refines.deliveries] at hr
    have hend := he row.deliveryId a (by rw [hr]; simp) _ hfa
    have hback := backoff_le n
    omega

end Service
end Telegraph
