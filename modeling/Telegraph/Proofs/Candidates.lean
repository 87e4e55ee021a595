import Telegraph.Proofs.BoardSteps
import Telegraph.Proofs.Ledgers
import Telegraph.Proofs.TimestampOrder

namespace Telegraph
open Lib Program Lib.Retry SqliteStore

namespace Attempt
variable {δ : Type}

theorem latestOf_concat (rows : List (Attempt δ)) (a : Attempt δ) :
    latestOf (rows ++ [a]) = match latestOf rows with
      | none => some a
      | some b => if b.attemptNumber < a.attemptNumber then some a else some b := by
  unfold latestOf
  rw [List.foldl_append]
  rfl

theorem latestOf_mem {rows : List (Attempt δ)} : ∀ {b : Attempt δ}, latestOf rows = some b → b ∈ rows := by
  induction rows using List.reverseRecOn with
  | nil => exact fun h => by cases h
  | append_singleton rows a ih =>
    intro b h
    rw [latestOf_concat] at h
    cases hl : latestOf rows with
    | none =>
      rw [hl] at h
      cases h
      simp
    | some c =>
      rw [hl] at h
      change (if c.attemptNumber < a.attemptNumber then some a else some c) = some b at h
      split at h
      · cases h
        simp
      · cases h
        exact List.mem_append_left _ (ih hl)

/-- Where every later start is a minute or more later, the stored texts agree on
which start came first. -/
theorem earliestStart_cons {a : Attempt δ} {rows : List (Attempt δ)}
    (hy : ∀ b ∈ a :: rows, Timestamp.InYears b.startedAt)
    (hp : ∀ b ∈ rows, a.startedAt + Duration.minutes 1 ≤ b.startedAt) :
    earliestStart (a :: rows) = some a.startedAt := by
  have hkeep : ∀ b ∈ rows, ¬ Timestamp.TextLt (Timestamp.format b.startedAt)
      (Timestamp.format a.startedAt) := by
    intro b hb htext
    have hya := hy a (by simp)
    have hyb := hy b (List.mem_cons_of_mem _ hb)
    have hlt := hp b hb
    have hsec : Timestamp.second b.startedAt ≠ Timestamp.second a.startedAt := by
      simp only [Timestamp.InYears, Timestamp.yearZero, Timestamp.yearTenThousand, Duration.hours,
        Duration.minutes, Duration.seconds] at hya hyb hlt
      simp only [Timestamp.second, Timestamp.yearZero, Duration.hours, Duration.minutes,
        Duration.seconds]
      omega
    have := (Proofs.TimestampOrder.format_lt_of_second_ne hyb hya hsec).mp htext
    have hpos : 0 < Duration.minutes 1 := by decide
    exact absurd (lt_of_le_of_lt hlt this) (not_lt.mpr (le_of_lt (lt_add_of_pos_right _ hpos)))
  change rows.foldl _ (some a.startedAt) = _
  clear hy hp
  induction rows with
  | nil => rfl
  | cons b rows ih =>
    rw [List.foldl_cons]
    dsimp only
    rw [if_neg (hkeep b (by simp))]
    exact ih fun c hc => hkeep c (List.mem_cons_of_mem _ hc)

end Attempt

namespace Ledger
variable {δ : Type} {l : Ledger δ}

/-- In a sound ledger the greatest number is the last row's. -/
theorem Sound.latestOf (h : l.Sound) {before : List (Attempt δ)} {a : Attempt δ}
    (hr : l.rows = before ++ [a]) : Attempt.latestOf l.rows = some a := by
  have hnum : a.attemptNumber = before.length + 1 := h.1 before.length a (by simp [hr])
  rw [hr, Attempt.latestOf_concat]
  cases hl : Attempt.latestOf before with
  | none => rfl
  | some b =>
    obtain ⟨n, hn, hb⟩ := List.getElem_of_mem (Attempt.latestOf_mem hl)
    have hbn : b.attemptNumber = n + 1 := by
      apply h.1 n b
      rw [hr, List.getElem?_append_left hn, List.getElem?_eq_getElem hn, hb]
    exact if_pos (by rw [hbn, hnum]; exact Nat.succ_lt_succ hn)

theorem Sound.latestOf_number (h : l.Sound) :
    (Attempt.latestOf l.rows).map (·.attemptNumber) =
      if l.rows = [] then none else some l.rows.length := by
  rcases List.eq_nil_or_concat l.rows with hn | ⟨before, a, ha⟩
  · rw [hn]
    rfl
  · rw [List.concat_eq_append] at ha
    rw [h.latestOf ha, if_neg (by simp [ha])]
    have hnum := h.1 before.length a (by simp [ha])
    simp [ha, hnum]

theorem Sound.lastNumber {t : AttemptTable δ} {x : String} (h : l.Sound) (hr : l.rows = t.attemptsOf x) :
    t.lastNumber x = if l.rows = [] then none else some l.rows.length := by
  unfold AttemptTable.lastNumber AttemptTable.latest
  rw [← hr]
  exact h.latestOf_number

theorem Sound.lastNumber_getD {t : AttemptTable δ} {x : String} (h : l.Sound)
    (hr : l.rows = t.attemptsOf x) : (t.lastNumber x).getD 0 = l.rows.length := by
  rw [h.lastNumber hr]
  split
  · rename_i he
    rw [he]
    rfl
  · rfl

/-- Last numbers agree where the numbers of attempts do. -/
theorem number_eq_iff {l l' : Ledger δ} :
    ((if l.rows = [] then none else some l.rows.length) =
      if l'.rows = [] then none else some l'.rows.length) ↔ l.rows.length = l'.rows.length := by
  split <;> split
  · rename_i h h'
    simp [h, h']
  · rename_i h h'
    simpa [h] using fun he => h' (List.eq_nil_of_length_eq_zero he.symm)
  · rename_i h h'
    simpa [h'] using h
  · simp

theorem Sound.nextNumber {t : AttemptTable δ} {x : String} (h : l.Sound) (hr : l.rows = t.attemptsOf x) :
    nextNumber t x = (t.attemptsOf x).length + 1 := by
  unfold SqliteStore.nextNumber
  rw [h.lastNumber_getD hr, hr]

theorem closed_iff {t : AttemptTable δ} {x : String} (hr : l.rows = t.attemptsOf x) :
    l.Closed ↔ t.inFlight x = false := by
  unfold Closed AttemptTable.inFlight
  rw [hr, Attempt.anyInFlight_false]

/-- The last try of the ledger a candidate row shows. -/
theorem Shows.last {n : Nat} {f : Int} {w : Option Int} (h : l.Shows n f w) :
    ∃ before s e, l.track.tries = before ++ [⟨s, some (f, e)⟩] ∧ n = l.track.tries.length ∧
      w = l.track.window := by
  obtain ⟨before, a, hr, hf, rfl, rfl⟩ := h
  refine ⟨before.map Attempt.toTry, a.startedAt, a.ending, ?_, (List.length_map ..).symm, rfl⟩
  change l.rows.map _ = _
  rw [hr, List.map_append, List.map_singleton]
  unfold Attempt.toTry
  rw [hf]
  rfl

/-- The test a picker makes is the one the attempts ask for. -/
theorem Shows.due_iff {n : Nat} {f t : Int} {w : Option Int} (h : l.Shows n f w) :
    (w.any (fun window => decide (f < window)) || decide (Retry.nextRetryAt f n ≤ t)) = true ↔
      l.track.Due Retry.policy t := by
  obtain ⟨before, s, e, hs, rfl, rfl⟩ := h.last
  have hlast : l.track.tries.getLast? = some ⟨s, some (f, e)⟩ := by rw [hs, List.getLast?_concat]
  rw [Bool.or_eq_true, decide_eq_true_eq]
  constructor
  · intro hd a g k ha hg
    obtain rfl := Option.some.inj (hlast.symm.trans ha)
    cases hg
    rcases hd with hw | hle
    · obtain ⟨w, hw, hlt⟩ := (Option.any_eq_true _ _).mp hw
      exact Or.inl ⟨w, hw, by simpa using hlt⟩
    · exact Or.inr hle
  · intro hd
    rcases hd _ f e hlast rfl with ⟨w, hw, hlt⟩ | hle
    · exact Or.inl ((Option.any_eq_true _ _).mpr ⟨w, hw, by simpa using hlt⟩)
    · exact Or.inr hle

end Ledger

namespace Store
variable {s : Store}

/-- What the Transcription retry query lists. -/
theorem mem_transcriptionRetryRows {row : TranscriptionRetryRow}
    (hs : ∀ x, (s.view.transcriptionLedger x).Sound) (h : row ∈ s.transcriptionRetryRows) :
    (s.view.transcriptionLedger row.recordingId).phase = .active ∧
      (s.view.transcriptionLedger row.recordingId).Closed ∧
      (s.view.transcriptionLedger row.recordingId).Shows row.lastAttemptNumber row.lastFinished
        row.retryWindow := by
  obtain ⟨r, hr, hrow⟩ := List.mem_filterMap.mp h
  obtain ⟨hm, hq⟩ := List.mem_filter.mp ((List.mem_insertionSort _).mp hr)
  simp only [Bool.and_eq_true, beq_iff_eq, Bool.not_eq_true'] at hq
  obtain ⟨a, ha, hf⟩ := Option.bind_eq_some_iff.mp hrow
  obtain ⟨f, hfin, rfl⟩ := Option.map_eq_some_iff.mp hf
  have hstage := View.transcriptionStage_of_recording (v := s.view) (recording_of_mem hm)
  have hrows : (s.view.transcriptionLedger r.id).rows = s.transcriptionAttempts.attemptsOf r.id := rfl
  obtain ⟨before, b, hb⟩ := (List.eq_nil_or_concat (s.transcriptionAttempts.attemptsOf r.id)).resolve_left
    (List.ne_nil_of_mem (Attempt.latestOf_mem ha))
  rw [List.concat_eq_append] at hb
  have hlast := (hs r.id).latestOf (hrows.trans hb)
  obtain rfl : b = a := Option.some.inj (hlast.symm.trans ha)
  refine ⟨?_, (Ledger.closed_iff hrows).mpr hq.2, before, b, hrows.trans hb, hfin, ?_, ?_⟩
  · change (s.view.transcriptionStage r.id).1 = _
    rw [hstage, hq.1]
    rfl
  · have hnum := (hs r.id).1 before.length b (by rw [hrows, hb]; simp)
    rw [hnum, hrows, hb]
    simp
  · change _ = (s.view.transcriptionStage r.id).2
    rw [hstage]

/-- A Recording in `transcribing` with attempts, all of them over, is listed. -/
theorem transcriptionRetryRows_complete {r : RecordingRow} (hr : s.recording r.id = some r)
    (hst : r.status = .transcribing) (hne : s.transcriptionAttempts.attemptsOf r.id ≠ [])
    (hf : s.transcriptionAttempts.inFlight r.id = false)
    (hs : (s.view.transcriptionLedger r.id).Sound) :
    ∃ row ∈ s.transcriptionRetryRows, row.recordingId = r.id := by
  obtain ⟨before, a, ha⟩ := (List.eq_nil_or_concat _).resolve_left hne
  rw [List.concat_eq_append] at ha
  have hlast : s.transcriptionAttempts.latest r.id = some a := hs.latestOf ha
  have hdone := Attempt.anyInFlight_false.mp hf a (by simp [ha])
  obtain ⟨f, hfin⟩ := Option.ne_none_iff_exists'.mp hdone
  refine ⟨⟨r.id, a.attemptNumber, f, r.retryWindowStartedAt⟩, List.mem_filterMap.mpr ⟨r, ?_, ?_⟩, rfl⟩
  · rw [List.mem_insertionSort, List.mem_filter]
    exact ⟨(Table.find_mem hr).1, by simp [hst, hf]⟩
  · rw [hlast]
    change a.finishedAt.map _ = _
    rw [hfin]
    rfl

/-- What the Delivery query lists. -/
theorem mem_deliveryCandidateRows {row : DeliveryCandidateRow}
    (hs : ∀ x, (s.view.deliveryLedger x).Sound) (h : row ∈ s.deliveryCandidateRows) :
    (s.view.deliveryLedger row.deliveryId).phase = .active ∧
      (s.view.deliveryLedger row.deliveryId).Closed ∧
      row.Shows (s.view.deliveryLedger row.deliveryId) := by
  obtain ⟨d, hd, rfl⟩ := List.mem_map.mp h
  obtain ⟨hm, hq⟩ := List.mem_filter.mp ((List.mem_insertionSort _).mp hd)
  simp only [Bool.and_eq_true, beq_iff_eq, Bool.not_eq_true'] at hq
  have hstage := View.deliveryStage_of_delivery (v := s.view) (delivery_of_mem hm)
  have hrows : (s.view.deliveryLedger d.id).rows = s.deliveryAttempts.attemptsOf d.id := rfl
  have hclosed := (Ledger.closed_iff hrows).mpr hq.2
  have hwindow : d.retryWindowStartedAt = (s.view.deliveryLedger d.id).window := by
    change _ = (s.view.deliveryStage d.id).2.2
    rw [hstage]
  refine ⟨?_, hclosed, ?_⟩
  · change (s.view.deliveryStage d.id).1 = _
    rw [hstage, hq.1]
    rfl
  · rcases List.eq_nil_or_concat (s.deliveryAttempts.attemptsOf d.id) with hn | ⟨before, a, ha⟩
    · refine Or.inl ⟨hn, ?_, ?_, hwindow⟩
      · unfold AttemptTable.lastNumber AttemptTable.latest
        rw [hn]
        rfl
      · unfold AttemptTable.latest
        rw [hn]
        rfl
    · rw [List.concat_eq_append] at ha
      have hlast : s.deliveryAttempts.latest d.id = some a := (hs d.id).latestOf (hrows.trans ha)
      have hnum := (hs d.id).1 before.length a (by rw [hrows, ha]; simp)
      obtain ⟨f, hf⟩ := Option.ne_none_iff_exists'.mp (hclosed a (by rw [hrows, ha]; simp))
      refine Or.inr ⟨before.length + 1, f, ?_, ?_, before, a, hrows.trans ha, hf, ?_, hwindow⟩
      · unfold AttemptTable.lastNumber
        rw [hlast, Option.map_some, hnum]
      · rw [hlast]
        exact hf
      · rw [hrows, ha]
        simp

theorem deliveryCandidateRows_complete {d : DeliveryRow} (hd : s.delivery d.id = some d)
    (hst : d.status = .delivering) (hf : s.deliveryAttempts.inFlight d.id = false) :
    ∃ row ∈ s.deliveryCandidateRows, row.deliveryId = d.id := by
  refine ⟨_, List.mem_map.mpr ⟨d, ?_, rfl⟩, rfl⟩
  rw [List.mem_insertionSort, List.mem_filter]
  exact ⟨(Table.find_mem hd).1, by simp [hst, hf]⟩

end Store
end Telegraph
