import Mathlib.Order.MinMax
import Telegraph.Lib.RetryBounds
import Telegraph.Timestamp

namespace Telegraph.Retry
open Lib.Retry

/-- The wait after attempt `attemptNumber` fails: 1m, 5m, 15m, 1h, then 6h. -/
def backoff (attemptNumber : Nat) : Int :=
  match attemptNumber with
  | 0 | 1 => Duration.minutes 1
  | 2 => Duration.minutes 5
  | 3 => Duration.minutes 15
  | 4 => Duration.hours 1
  | _ => Duration.hours 6

def nextRetryAt (lastAttemptFinishedAt : Int) (attemptNumber : Nat) : Int :=
  lastAttemptFinishedAt + backoff attemptNumber

/-- `max(2h, 2 * audio_duration)`, capped at 24h; the doubling saturates at `i64::MAX`. -/
def transcriptionWindow (audioDurationMs : Option Int) : Int :=
  let floor := Duration.hours 2
  let cap := Duration.hours 24
  let window := match audioDurationMs with
    | some ms => if 0 < ms then max floor (min (ms * 2) 9223372036854775807 * 1000000) else floor
    | none => floor
  min window cap

def transcriptionDeadline (firstAttemptStartedAt : Int) (audioDurationMs : Option Int) : Int :=
  firstAttemptStartedAt + transcriptionWindow audioDurationMs

/-- The Delivery retry window: 24 hours from Sink selection. -/
def deliveryWindow : Int := Duration.hours 24

/-- What both workers retry by. No window is longer than the Delivery one. -/
def policy : Policy := ⟨backoff, deliveryWindow⟩

theorem minute_le_backoff (n : Nat) : Duration.minutes 1 ≤ backoff n := by
  unfold backoff
  split <;> decide

theorem backoff_mono (i j : Nat) (h : i ≤ j) : backoff i ≤ backoff j := by
  have hj : j ≤ 4 ∨ backoff j = Duration.hours 6 := by
    rcases Nat.lt_or_ge 4 j with hj | hj
    · obtain ⟨k, rfl⟩ := Nat.exists_eq_add_of_le hj
      right
      unfold backoff
      split <;> first | rfl | omega
    · exact Or.inl hj
  rcases hj with hj | hj
  · have hi : i ≤ 4 := h.trans hj
    interval_cases j <;> interval_cases i <;> decide
  · rw [hj]
    unfold backoff
    split <;> decide

theorem backoff_nonneg (n : Nat) : 0 ≤ policy.backoff n :=
  le_trans (by decide) (minute_le_backoff n)

/-- Eight waits, 1m + 5m + 15m + 1h + 4 · 6h, outlast every window. -/
theorem eight_waits : policy.limit ≤ policy.total 8 := by decide

theorem transcriptionWindow_le (ms : Option Int) : transcriptionWindow ms ≤ policy.limit :=
  min_le_right _ _

end Telegraph.Retry
