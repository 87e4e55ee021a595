import Telegraph.Proofs.Runs

namespace Telegraph
open Lib Lib.Retry SqliteStore

namespace Service
variable {ι : Type} {c : Service ι} {b : Board ι String} {d : Board ι Int} {trace : List Event}
variable {route : Recording → RoutingDecision}

/-- The attempts of a piece of work as the tables have them, and where it stands. -/
def track (c : Service ι) : Item → Track
  | .transcription x => (c.store.view.transcriptionLedger x).track
  | .delivery x => (c.store.view.deliveryLedger x).track

/-- The history a run shows of a piece of work leads to what the tables have. -/
theorem Accounted.tracks (h : c.Accounted trace b d) (item : Item) :
    Lib.Retry.Runs Retry.policy (history item trace) (c.track item) := by
  cases item with
  | transcription x =>
    unfold track
    rw [h.refines.transcriptions]
    exact h.transcription.runs x
  | delivery x =>
    unfold track
    rw [h.refines.deliveries]
    exact h.delivery.runs x

/-- Between two attempts of the same work lies the backoff of the first, unless an
Operator reopened the work in between, later than the first ended. -/
def KeepsPace (c : Service ι) (trace : List Event) : Prop :=
  ∀ item k a b, (c.track item).tries[k]? = some a → (c.track item).tries[k + 1]? = some b →
    ∃ f e, a.finish = some (f, e) ∧ (f + Retry.backoff (k + 1) ≤ b.startedAt ∨
      ∃ m, Exempt (history item trace) (k + 1) f m b.startedAt)

/-- Work with `n` attempts, the last of which ended at `f`, may be tried at `now`. -/
def MayRetry (trace : List Event) (item : Item) (n : Nat) (f now : Int) : Prop :=
  (∃ m, .reopened m ∈ reopenings (history item trace) ∧ f < m) ∨ f + Retry.backoff n ≤ now

/-- The last attempt of the work is number `n`, and it ended at `f`. -/
def LastEnded (c : Service ι) (item : Item) (n : Nat) (f : Int) : Prop :=
  ∃ before s e, (c.track item).tries = before ++ [⟨s, some (f, e)⟩] ∧ n = before.length + 1

/-- A Transcription candidate is due exactly when its Recording may be tried again. -/
theorem Accounted.transcription_due (h : c.Accounted trace b d) {row : TranscriptionRetryRow}
    (hm : row ∈ c.store.transcriptionRetryRows) :
    c.LastEnded (.transcription row.recordingId) row.lastAttemptNumber row.lastFinished ∧
      ∀ recording now, Transcription.isDue now (transcriptionCandidate row recording) = true ↔
        MayRetry trace (.transcription row.recordingId) row.lastAttemptNumber row.lastFinished now := by
  have hsound : ∀ x, (c.store.view.transcriptionLedger x).Sound := by
    intro x
    rw [h.refines.transcriptions]
    exact h.transcription.sound x
  obtain ⟨_, _, hshow⟩ := Store.mem_transcriptionRetryRows hsound hm
  obtain ⟨before, s, e, hs, hn, _⟩ := hshow.last
  have hruns := h.tracks (.transcription row.recordingId)
  refine ⟨⟨before, s, e, hs, by rw [hn, hs]; simp⟩, fun recording now => ?_⟩
  refine hshow.due_iff.trans ((hruns.due_iff hs).trans ?_)
  unfold MayRetry
  rw [hn]
  rfl

/-- A Delivery candidate with an attempt on record is due exactly when its Delivery
may be tried again. -/
theorem Accounted.delivery_due (h : c.Accounted trace b d) {row : DeliveryCandidateRow} {n : Nat}
    {f : Int} (hm : row ∈ c.store.deliveryCandidateRows) (hn : row.lastAttemptNumber = some n)
    (hf : row.lastFinished = some f) :
    c.LastEnded (.delivery row.deliveryId) n f ∧ ∀ delivery recording transcript now,
      Delivering.isDue now (deliveryCandidate row delivery recording transcript) = true ↔
        MayRetry trace (.delivery row.deliveryId) n f now := by
  have hsound : ∀ x, (c.store.view.deliveryLedger x).Sound := by
    intro x
    rw [h.refines.deliveries]
    exact h.delivery.sound x
  obtain ⟨_, _, hrow⟩ := Store.mem_deliveryCandidateRows hsound hm
  have hruns := h.tracks (.delivery row.deliveryId)
  rcases hrow with ⟨_, hnone, _⟩ | ⟨n', f', hn', hf', hshow⟩
  · rw [hnone] at hn
    cases hn
  · obtain rfl := Option.some.inj (hn'.symm.trans hn)
    obtain rfl := Option.some.inj (hf'.symm.trans hf)
    obtain ⟨before, s, e, hs, hlen, _⟩ := hshow.last
    refine ⟨⟨before, s, e, hs, by rw [hlen, hs]; simp⟩, fun delivery recording transcript now => ?_⟩
    refine Iff.trans ?_ ((hshow.due_iff (t := now)).trans ((hruns.due_iff hs).trans ?_))
    · unfold Delivering.isDue deliveryCandidate
      rw [hn, hf]
      rfl
    · unfold MayRetry
      rw [hlen]
      rfl

/-- Retry pacing. In every run attempts keep their pace, and a candidate is due
once its backoff has passed or, since its last end, an Operator has reopened it. -/
theorem retries_paced {c : Process} (hr : Run route trace c) :
    c.KeepsPace trace ∧
      (∀ row ∈ c.store.transcriptionRetryRows,
        c.LastEnded (.transcription row.recordingId) row.lastAttemptNumber row.lastFinished ∧
          ∀ recording now, Transcription.isDue now (transcriptionCandidate row recording) = true ↔
            MayRetry trace (.transcription row.recordingId) row.lastAttemptNumber
              row.lastFinished now) ∧
      ∀ row ∈ c.store.deliveryCandidateRows, ∀ n f, row.lastAttemptNumber = some n →
        row.lastFinished = some f → c.LastEnded (.delivery row.deliveryId) n f ∧
          ∀ delivery recording transcript now,
            Delivering.isDue now (deliveryCandidate row delivery recording transcript) = true ↔
              MayRetry trace (.delivery row.deliveryId) n f now := by
  obtain ⟨_, b, d, h, _, _⟩ := hr.undisturbed
  refine ⟨fun item k a b ha hb => ?_, fun row hm => h.transcription_due hm,
    fun row hm n f hn hf => h.delivery_due hm hn hf⟩
  exact (h.tracks item).paced k a b ha hb

section Example

def toNotes (_ : Recording) : RoutingDecision := .sink "notes"

/-- Steps of one worker, a second apart. -/
def everySecond {ι : Type} (steps : Nat) (start : Int) (input : Input ι) : List (Int × Input ι) :=
  (List.range steps).map fun k => (Duration.seconds (start + k), input)

/-- The first upload, transcribed, routed and delivered at the second attempt. -/
def secondAttempt : List (Int × Input Unit) :=
  (0, .recover) :: (0, .upload firstUpload) ::
    everySecond 8 1 (.transcribe () "t1" (.ok ⟨"scribe", "hello", "\x7b\x7d", none, none⟩)) ++
    everySecond 6 10 (.route () "d1") ++
    everySecond 10 20 (.deliver () "a1" (.error (.retryable "503" "busy"))) ++
    everySecond 11 88 (.deliver () "a2" (.ok ()))

theorem retries_paced_second_attempt : ∃ c trace,
    Service.initial.play toNotes secondAttempt = some (c, trace) ∧
      (c.track (.delivery "d1")).tries = [⟨Duration.seconds 20, some (Duration.seconds 28, .retryable)⟩,
        ⟨Duration.seconds 88, some (Duration.seconds 96, .succeeded)⟩] ∧ c.KeepsPace trace := by
  have hp : (Service.initial.play toNotes secondAttempt).map
      (fun r => (r.1.track (.delivery "d1")).tries) =
        some [⟨Duration.seconds 20, some (Duration.seconds 28, .retryable)⟩,
          ⟨Duration.seconds 88, some (Duration.seconds 96, .succeeded)⟩] := by
    decide +kernel
  obtain ⟨⟨c, trace⟩, hplay, ht⟩ := Option.map_eq_some_iff.mp hp
  exact ⟨c, trace, hplay, ht, (retries_paced (run_of_play hplay)).1⟩

end Example

/-- Bounded retries. In every stretch of a run in which no Operator reopens the
work, its worker records at most eight retryable failures and finishes at most nine
attempts; the ninth succeeds or fails for good, and the work is over. -/
theorem retries_bounded {c : Process} (hr : Run route trace c) (item : Item) :
    (∀ before stretch after, history item trace = before ++ stretch ++ after →
      (∀ m ∈ stretch, m.isReopen = false) →
      (decided stretch).count .retryable ≤ 8 ∧ (decided stretch).length ≤ 9 ∧
        ∀ how, (decided stretch)[8]? = some how → how = .succeeded ∨ how = .terminal) ∧
      (8 < (decided (recent (history item trace))).length →
        (c.track item).phase = .failed ∨ (c.track item).phase = .done) := by
  obtain ⟨_, b, d, h, _, _⟩ := hr.undisturbed
  refine ⟨fun before stretch after he hn => ?_, fun hn => ?_⟩
  · exact (h.tracks item).bounded_ends Retry.backoff_mono Retry.backoff_nonneg Retry.eight_waits he hn
  · exact (h.tracks item).over Retry.backoff_mono Retry.backoff_nonneg Retry.eight_waits hn

theorem retries_bounded_second_attempt : ∃ c trace,
    Service.initial.play toNotes secondAttempt = some (c, trace) ∧
      decided (history (.delivery "d1") trace) = [.retryable, .succeeded] ∧
      (decided (history (.delivery "d1") trace)).length ≤ 9 := by
  have hp : (Service.initial.play toNotes secondAttempt).map
      (fun r => (decided (history (.delivery "d1") r.2), (history (.delivery "d1") r.2).all (!·.isReopen))) =
        some ([.retryable, .succeeded], true) := by
    decide +kernel
  obtain ⟨⟨c, trace⟩, hplay, ht⟩ := Option.map_eq_some_iff.mp hp
  obtain ⟨hd, hall⟩ := Prod.mk.inj ht
  refine ⟨c, trace, hplay, hd, ?_⟩
  refine ((retries_bounded (run_of_play hplay) (.delivery "d1")).1 [] _ [] (by simp) ?_).2.1
  simpa using hall

end Service
end Telegraph
