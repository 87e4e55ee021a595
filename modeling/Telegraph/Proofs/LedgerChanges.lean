import Telegraph.Board

namespace Telegraph
open Lib.Retry

namespace Attempt
variable {δ : Type}

theorem ending_ended (a : Attempt δ) (t : Int) (how : Finish) (detail : Option δ)
    (message : Option String) : (a.ended t how detail message).ending = how.ending := by
  cases how <;> rfl

theorem toTry_ended (a : Attempt δ) (t : Int) (how : Finish) (detail : Option δ)
    (message : Option String) :
    (a.ended t how detail message).toTry = ⟨a.startedAt, some (t, how.ending)⟩ := by
  rw [← a.ending_ended t how detail message]
  rfl

theorem toTry_open {a : Attempt δ} (h : a.finishedAt = none) : a.toTry = ⟨a.startedAt, none⟩ := by
  unfold toTry
  rw [h]
  rfl

theorem toTry_finish {a : Attempt δ} : a.toTry.finish = none ↔ a.finishedAt = none := by
  unfold toTry
  cases a.finishedAt <;> simp

end Attempt

/-- What a step may do to one piece of work at time `clock`, restarts apart. -/
inductive Ledger.Change {δ : Type} (p : Policy) (clock : Int) (l : Ledger δ) :
    List Move → Ledger δ → Prop where
  | still : Change p clock l [] l
  | enter (since : Option Int) : l.phase = .waiting → (∀ s, since = some s → s ≤ clock) →
      Change p clock l [] (l.enter since)
  | start (attemptId x : String) (t : Int) : l.phase = .active → l.Closed → l.track.Due p t →
      t ≤ clock → Timestamp.InYears t → Change p clock l [.started t] (l.start attemptId x t)
  | finish (before : List (Attempt δ)) (a : Attempt δ) (t : Int) (how : Finish) (detail : Option δ)
      (message : Option String) : l.rows = before ++ [a] → a.finishedAt = none → a.startedAt ≤ t →
      t ≤ clock → (∀ w, l.window = some w → w ≤ t) → (∀ o, l.track.anchor = some o → o ≤ t) →
      (how = .retryable → ∀ o, l.track.anchor = some o → t < o + p.limit) →
      Change p clock l [.finished t how]
        ⟨before ++ [a.ended t how detail message], Phase.after how, l.since, l.window⟩
  | reopen (m : Int) : l.phase = .failed → m ≤ clock → Change p clock l [.reopened m] (l.reopen m)

/-- A claim given back. -/
def Ledger.Reverts {δ : Type} (l l' : Ledger δ) : Prop :=
  l.phase = .active ∧ l.rows = [] ∧ l' = { l with phase := .waiting }

namespace Ledger
variable {δ : Type} {p : Policy} {clock : Int} {l l' : Ledger δ} {moves : List Move}

theorem closed_track : l.track.Closed ↔ l.Closed := by
  unfold Closed Track.Closed track
  simp only [List.forall_mem_map, ne_eq, Attempt.toTry_finish]

theorem Change.track (h : l.Change p clock moves l') : l.track.Step p moves l'.track := by
  cases h with
  | still => exact .still
  | enter since hp _ => exact .enter since hp
  | start attemptId x t hp hc hd _ _ =>
    have he : (l.start attemptId x t).track =
        ⟨l.track.tries ++ [⟨t, none⟩], .active, l.track.since, l.track.window⟩ := by
      unfold Ledger.start Ledger.track
      simp only [List.map_append, List.map_singleton, hp]
      rfl
    rw [he]
    exact .start t hp (closed_track.mpr hc) hd
  | finish before a t how detail message hr ha hst _ hw ho hl =>
    have hs : l.track.tries = before.map Attempt.toTry ++ [⟨a.startedAt, none⟩] := by
      change l.rows.map _ = _
      rw [hr, List.map_append, List.map_singleton, Attempt.toTry_open ha]
    have he : Ledger.track ⟨before ++ [a.ended t how detail message], Phase.after how, l.since,
        l.window⟩ = ⟨before.map Attempt.toTry ++ [⟨a.startedAt, some (t, how.ending)⟩],
          Phase.after how, l.track.since, l.track.window⟩ := by
      unfold Ledger.track
      simp only [List.map_append, List.map_singleton, Attempt.toTry_ended]
    rw [he]
    exact .finish _ a.startedAt t how hs hst hw ho hl
  | reopen m hp _ => exact .reopen m hp

theorem Reverts.track (h : l.Reverts l') : l.track.Step p [] l'.track := by
  obtain ⟨hp, hr, rfl⟩ := h
  exact .revert hp (by simp [Ledger.track, hr])

/-- Only the last attempt can be in flight. -/
theorem open_last (h : l.track.WellFormed) {a : Attempt δ} (ha : a ∈ l.rows)
    (hf : a.finishedAt = none) : ∃ before, l.rows = before ++ [a] ∧
      ∀ b ∈ before, b.finishedAt ≠ none := by
  obtain ⟨before, z, hz⟩ := (List.eq_nil_or_concat l.rows).resolve_left (List.ne_nil_of_mem ha)
  rw [List.concat_eq_append] at hz
  have older : ∀ b ∈ before, b.finishedAt ≠ none := by
    intro b hb hn
    have hs : l.track.tries = before.map Attempt.toTry ++ [z.toTry] := by
      change l.rows.map _ = _
      rw [hz, List.map_append, List.map_singleton]
    obtain ⟨f, e, he, _⟩ := h.earlier hs b.toTry (List.mem_map_of_mem hb)
    rw [Attempt.toTry_finish.mpr hn] at he
    cases he
  rw [hz] at ha
  rcases List.mem_append.mp ha with ha | ha
  · exact absurd hf (older a ha)
  · rw [List.mem_singleton.mp ha]
    exact ⟨before, hz, older⟩

theorem open_active (h : l.track.WellFormed) (ho : ¬ l.Closed) : l.phase = .active := by
  unfold Closed at ho
  push Not at ho
  obtain ⟨a, ha, hf⟩ := ho
  exact h.inFlight a.toTry (List.mem_map_of_mem ha) (Attempt.toTry_finish.mpr hf)

theorem Change.sound (h : l.Change p clock moves l') (hs : l.Sound) : l'.Sound := by
  cases h with
  | still => exact hs
  | enter => exact hs
  | reopen => exact hs
  | start attemptId x t =>
    constructor
    · intro n a hn
      rcases getElem?_last hn with ⟨_, hn⟩ | ⟨rfl, rfl⟩
      · exact hs.1 n a hn
      · rfl
    · intro a ha
      rcases List.mem_append.mp ha with ha | ha
      · exact hs.2 a ha
      · rw [List.mem_singleton.mp ha]
        exact ⟨fun _ => rfl, fun _ => rfl⟩
  | finish before a t how detail message hr =>
    rw [Sound, hr] at hs
    constructor
    · intro n b hn
      rcases getElem?_last hn with ⟨hlt, hn⟩ | ⟨rfl, rfl⟩
      · exact hs.1 n b (by rw [List.getElem?_append_left hlt]; exact hn)
      · exact hs.1 before.length a (by simp)
    · intro b hb
      rcases List.mem_append.mp hb with hb | hb
      · exact hs.2 b (List.mem_append_left _ hb)
      · rw [List.mem_singleton.mp hb]
        cases how <;> simp [Attempt.ended, Finish.ending]

/-- Rows are only ever added, and a finished one stays as it is. -/
theorem Change.keeps_finished (h : l.Change p clock moves l') {n : Nat} {a : Attempt δ}
    (ha : l.rows[n]? = some a) (hf : a.finishedAt ≠ none) : l'.rows[n]? = some a := by
  cases h with
  | still => exact ha
  | enter => exact ha
  | reopen => exact ha
  | start attemptId x t =>
    change (l.rows ++ _)[n]? = _
    have hlt : n < l.rows.length := (List.getElem?_eq_some_iff.mp ha).choose
    rw [List.getElem?_append_left hlt]
    exact ha
  | finish before b t how detail message hr hb =>
    rw [hr] at ha
    rcases getElem?_last ha with ⟨hlt, hn⟩ | ⟨_, rfl⟩
    · change (before ++ _)[n]? = _
      rw [List.getElem?_append_left hlt]
      exact hn
    · exact absurd hb hf

theorem Change.grows (h : l.Change p clock moves l') : l.rows.length ≤ l'.rows.length := by
  cases h with
  | still => exact Nat.le_refl _
  | enter => exact Nat.le_refl _
  | reopen => exact Nat.le_refl _
  | start => exact Nat.le_of_lt (by simp [Ledger.start])
  | finish before a t how detail message hr => exact Nat.le_of_eq (by simp [hr])

/-- Work that is active with nothing in flight stays as it is until it is started. -/
theorem Change.settled (h : l.Change p clock moves l') (hp : l.phase = .active) (hc : l.Closed)
    (hn : l'.rows.length = l.rows.length) : l' = l := by
  cases h with
  | still => rfl
  | enter since hw =>
    rw [hp] at hw
    cases hw
  | start => simp [Ledger.start] at hn
  | finish before a t how detail message hr ha =>
    exact absurd ha (hc a (by simp [hr]))
  | reopen m hf =>
    rw [hp] at hf
    cases hf

/-- What every step leaves of the anchor of an attempt in flight. -/
theorem anchor_start {attemptId x : String} {t o : Int} (h : l.track.anchor = some o) :
    (l.start attemptId x t).track.anchor = some o := by
  unfold Track.anchor Ledger.track Ledger.start at *
  cases hr : l.rows with
  | nil =>
    rw [hr] at h
    cases hw : l.window <;> cases hs : l.since <;> simp_all
  | cons a rest =>
    rw [hr] at h
    exact h

end Ledger
end Telegraph
