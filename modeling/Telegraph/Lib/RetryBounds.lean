import Mathlib.Data.List.DropRight
import Telegraph.Lib.Retry

namespace Telegraph.Lib.Retry
variable {p : Policy} {tr tr' : Track} {history moves : List Move}

def Move.isStart : Move → Bool
  | .started _ => true
  | _ => false

/-- Whether the move is an operator's reopening. -/
def Move.isReopen : Move → Bool
  | .reopened _ => true
  | _ => false

/-- How many tries a history has started. -/
def starts (history : List Move) : Nat := history.countP Move.isStart

theorem starts_append (h k : List Move) : starts (h ++ k) = starts h + starts k :=
  List.countP_append

theorem Track.Step.starts (hs : tr.Step p moves tr') :
    tr'.tries.length = tr.tries.length + starts moves := by
  cases hs with
  | start => simp [Retry.starts, Move.isStart]
  | finish before s t how hb => simp [Retry.starts, Move.isStart, hb]
  | _ => simp [Retry.starts, Move.isStart]

/-- Every try is a start of the history. -/
theorem Runs.starts (h : Runs p history tr) : starts history = tr.tries.length := by
  induction h with
  | start => rfl
  | step _ hs ih => rw [starts_append, ih, hs.starts]

/-! Consecutive tries -/

/-- Try `n` ended at `f`, the work was reopened at `m` afterwards and before the
next try, which started at `t`. -/
def Exempt (history : List Move) (n : Nat) (f m t : Int) : Prop :=
  ∃ pre how between post,
    history = pre ++ .finished f how :: (between ++ .started t :: post) ∧ starts pre = n ∧
      (∀ x ∈ between, x.isReopen = true) ∧ .reopened m ∈ between ∧ f < m

theorem Exempt.append {n : Nat} {f m t : Int} (h : Exempt history n f m t) (later : List Move) :
    Exempt (history ++ later) n f m t := by
  obtain ⟨pre, how, between, post, he, hrest⟩ := h
  exact ⟨pre, how, between, post ++ later, by simp [he], hrest⟩

/-- The wait between two consecutive tries. -/
def Paced (p : Policy) (history : List Move) (tr : Track) : Prop :=
  ∀ k a b, tr.tries[k]? = some a → tr.tries[k + 1]? = some b →
    ∃ f e, a.finish = some (f, e) ∧
      (f + p.backoff (k + 1) ≤ b.startedAt ∨ ∃ m, Exempt history (k + 1) f m b.startedAt)

/-- Where the last try ended, and what came after it. A window opened later than
that end is one of the reopenings since. -/
def LastEnd (history : List Move) (tr : Track) : Prop :=
  ∀ before s f e, tr.tries = before ++ [⟨s, some (f, e)⟩] →
    ∃ pre how since, history = pre ++ .finished f how :: since ∧ starts pre = tr.tries.length ∧
      (∀ x ∈ since, x.isReopen = true) ∧ (tr.phase = .failed → since = []) ∧
      ∀ w, f < w → (tr.window = some w ↔ .reopened w ∈ since)

theorem getElem?_last {α : Type} {before : List α} {a b : α} {k : Nat}
    (h : (before ++ [a])[k]? = some b) : (k < before.length ∧ before[k]? = some b) ∨
      (k = before.length ∧ b = a) := by
  rcases Nat.lt_trichotomy k before.length with hk | rfl | hk
  · rw [List.getElem?_append_left hk] at h
    exact Or.inl ⟨hk, h⟩
  · rw [List.getElem?_concat_length] at h
    exact Or.inr ⟨rfl, (Option.some.inj h).symm⟩
  · rw [List.getElem?_eq_none (by simpa using hk)] at h
    cases h

theorem LastEnd.step (h : LastEnd history tr) (hr : Runs p history tr) (hs : tr.Step p moves tr') :
    LastEnd (history ++ moves) tr' := by
  intro before s f e hb
  cases hs with
  | still =>
    rw [List.append_nil]
    exact h before s f e hb
  | enter since hp =>
    change tr.tries = _ at hb
    rw [(hr.wellFormed.unopened hp).1] at hb
    simp at hb
  | revert _ ht =>
    change tr.tries = _ at hb
    rw [ht] at hb
    simp at hb
  | start t =>
    have := (List.append_inj' hb rfl).2
    simp at this
  | finish init s' t how ht hle hw =>
    obtain ⟨rfl, hl⟩ := List.append_inj' hb rfl
    have hf : t = f := by simp at hl; exact hl.2.1
    subst f
    refine ⟨history, how, [], rfl, ?_, by simp, fun _ => rfl, fun w hlt => ?_⟩
    · rw [hr.starts, ht]
      simp
    · constructor
      · intro hwin
        exact absurd (hw w hwin) (by omega)
      · simp
  | reopen m hp =>
    obtain ⟨pre, how, since, he, hn, -, hnone, -⟩ := h before s f e hb
    obtain rfl := hnone hp
    refine ⟨pre, how, [.reopened m], by simp [he], hn, by simp [Move.isReopen], fun hq => ?_,
      fun w _ => ?_⟩
    · cases hq
    · simp [eq_comm]

theorem Runs.lastEnd (h : Runs p history tr) : LastEnd history tr := by
  induction h with
  | start => exact fun before s f e hb => by simp [Track.initial] at hb
  | step hr hs ih => exact ih.step hr hs

/-- The reopenings a history ends with. -/
def reopenings (history : List Move) : List Move := history.rtakeWhile Move.isReopen

theorem reopenings_after {pre since : List Move} {f : Int} {how : Finish}
    (h : ∀ x ∈ since, x.isReopen = true) :
    reopenings (pre ++ .finished f how :: since) = since := by
  unfold reopenings List.rtakeWhile
  rw [List.reverse_append, List.reverse_cons, List.append_assoc,
    List.takeWhile_append_of_pos (by simpa using h)]
  simp [Move.isReopen]

/-- The next try is due at once if the work was reopened later than the last one
ended, and else when its backoff has passed. -/

theorem Runs.due_iff (h : Runs p history tr) {before : List Try} {s f t : Int} {e : Ending}
    (hs : tr.tries = before ++ [⟨s, some (f, e)⟩]) : tr.Due p t ↔
      (∃ m, .reopened m ∈ reopenings history ∧ f < m) ∨ f + p.backoff tr.tries.length ≤ t := by
  obtain ⟨pre, how, since, hh, _, hre, _, hw⟩ := h.lastEnd before s f e hs
  rw [hh, reopenings_after hre]
  have hlast : tr.tries.getLast? = some ⟨s, some (f, e)⟩ := by rw [hs, List.getLast?_concat]
  constructor
  · intro hd
    rcases hd _ f e hlast rfl with ⟨w, hwin, hlt⟩ | hle
    · exact Or.inl ⟨w, (hw w hlt).mp hwin, hlt⟩
    · exact Or.inr hle
  · intro hd a g k ha hg
    obtain rfl := Option.some.inj (hlast.symm.trans ha)
    cases hg
    exact hd.imp_left fun ⟨m, hm, hlt⟩ => ⟨m, (hw m hlt).mpr hm, hlt⟩

theorem Paced.step (h : Paced p history tr) (hr : Runs p history tr) (hs : tr.Step p moves tr') :
    Paced p (history ++ moves) tr' := by
  have older : ∀ k a b, tr.tries[k]? = some a → tr.tries[k + 1]? = some b →
      ∃ f e, a.finish = some (f, e) ∧ (f + p.backoff (k + 1) ≤ b.startedAt ∨
        ∃ m, Exempt (history ++ moves) (k + 1) f m b.startedAt) := by
    intro k a b ha hb
    obtain ⟨f, e, hf, hgap⟩ := h k a b ha hb
    exact ⟨f, e, hf, hgap.imp_right fun ⟨m, hm⟩ => ⟨m, hm.append moves⟩⟩
  intro k a b ha hb
  cases hs with
  | still => exact older k a b ha hb
  | enter => exact older k a b ha hb
  | revert => exact older k a b ha hb
  | reopen => exact older k a b ha hb
  | start t _ hclosed hdue =>
    rcases getElem?_last hb with ⟨hlt, hb⟩ | ⟨hlen, rfl⟩
    · rcases getElem?_last ha with ⟨_, ha⟩ | ⟨hk, rfl⟩
      · exact older k a b ha hb
      · omega
    · -- the new pair: the last try of before and the one just started
      rcases getElem?_last ha with ⟨_, ha⟩ | ⟨hk, rfl⟩
      · obtain ⟨before, hbefore⟩ : ∃ before, tr.tries = before ++ [a] := by
          have hl : tr.tries.getLast? = some a := by
            rw [List.getLast?_eq_getElem?, ← hlen]
            exact ha
          exact ⟨_, (List.dropLast_append_getLast? a hl).symm⟩
        have hl : tr.tries.getLast? = some a := by simp [hbefore]
        cases hf : a.finish with
        | none => exact absurd hf (hclosed a (List.mem_of_getElem? ha))
        | some q =>
          obtain ⟨f, e⟩ := q
          refine ⟨f, e, rfl, ?_⟩
          rcases hdue a f e hl hf with ⟨w, hw, hlt⟩ | hgap
          · right
            obtain ⟨pre, how, since, he, hn, hre, -, hwin⟩ :=
              hr.lastEnd before a.startedAt f e (by rw [hbefore, ← hf])
            exact ⟨w, pre, how, since, [], by simp [he], by rw [hn, ← hlen], hre,
              (hwin w hlt).mp hw, hlt⟩
          · left
            rw [hlen]
            exact hgap
      · omega
  | finish before s t how ht =>
    rcases getElem?_last ha with ⟨hlt, ha'⟩ | ⟨hk, rfl⟩
    · have hold : tr.tries[k]? = some a := by
        rw [ht, List.getElem?_append_left hlt]
        exact ha'
      rcases getElem?_last hb with ⟨hlt', hb'⟩ | ⟨hk, rfl⟩
      · refine older k a b hold ?_
        rw [ht, List.getElem?_append_left hlt']
        exact hb'
      · have hlast : tr.tries[k + 1]? = some ⟨s, none⟩ := by
          rw [ht, hk, List.getElem?_concat_length]
        exact older k a ⟨s, none⟩ hold hlast
    · rcases getElem?_last hb with ⟨hlt', _⟩ | ⟨hk', _⟩ <;> omega

/-- Between two consecutive tries lies the backoff, unless the work was reopened
in between, later than the end of the first. -/
theorem Runs.paced (h : Runs p history tr) : Paced p history tr := by
  induction h with
  | start => exact fun k a b ha => by simp [Track.initial] at ha
  | step hr hs ih => exact ih.step hr hs

/-- Without a reopening, tries are at least the shortest backoff apart. -/
def Spaced (gap : Int) (tr : Track) : Prop :=
  tr.window = none → tr.tries.Pairwise fun a b => a.startedAt + gap ≤ b.startedAt

theorem Spaced.step {gap : Int} (hgap : 0 ≤ gap) (hb : ∀ n, gap ≤ p.backoff n)
    (h : Spaced gap tr) (hw : tr.WellFormed) (hs : tr.Step p moves tr') : Spaced gap tr' := by
  intro hnone
  cases hs with
  | still => exact h hnone
  | enter => exact h hnone
  | revert => exact h hnone
  | reopen => cases hnone
  | start t _ hclosed hdue =>
    have hold := h hnone
    apply List.pairwise_append.mpr
    refine ⟨hold, List.pairwise_singleton _ _, fun a ha b hbm => ?_⟩
    rw [List.mem_singleton.mp hbm]
    obtain ⟨before, l, hl⟩ := (List.eq_nil_or_concat tr.tries).resolve_left (List.ne_nil_of_mem ha)
    rw [List.concat_eq_append] at hl
    have hlast : l ∈ tr.tries := by simp [hl]
    cases hf : l.finish with
    | none => exact absurd hf (hclosed l hlast)
    | some q =>
      have hle : l.startedAt ≤ q.1 := hw.ordered l hlast q.1 q.2 hf
      have hwait : q.1 + p.backoff tr.tries.length ≤ t := by
        rcases hdue l q.1 q.2 (by simp [hl]) hf with ⟨w, hwin, _⟩ | hgap'
        · exact absurd (hnone.symm.trans hwin) (by simp)
        · exact hgap'
      have hmin := hb tr.tries.length
      have hprev : a.startedAt ≤ l.startedAt := by
        rw [hl] at ha hold
        rcases List.mem_append.mp ha with ha | ha
        · have := (List.pairwise_append.mp hold).2.2 a ha l (by simp)
          omega
        · rw [List.mem_singleton.mp ha]
      change a.startedAt + gap ≤ t
      omega
  | finish before s t how ht =>
    have hold := h hnone
    rw [ht, List.pairwise_append] at hold
    apply List.pairwise_append.mpr
    refine ⟨hold.1, List.pairwise_singleton _ _, fun a ha b hbm => ?_⟩
    rw [List.mem_singleton.mp hbm]
    exact hold.2.2 a ha ⟨s, none⟩ (by simp)

theorem Runs.spaced {gap : Int} (hgap : 0 ≤ gap) (hb : ∀ n, gap ≤ p.backoff n)
    (h : Runs p history tr) : Spaced gap tr := by
  induction h with
  | start => exact fun _ => List.Pairwise.nil
  | step hr hs ih => exact ih.step hgap hb hr.wellFormed hs

/-! How many tries one window holds -/

/-- The ends a worker decided since the last reopening; a restart decides none. -/
def decided : List Move → List Finish
  | [] => []
  | .started _ :: h => decided h
  | .reopened _ :: h => decided h
  | .finished _ .abandoned :: h => decided h
  | .finished _ how :: h => how :: decided h

theorem decided_append (h k : List Move) : decided (h ++ k) = decided h ++ decided k := by
  induction h with
  | nil => rfl
  | cons m h ih =>
    match m with
    | .started _ => exact ih
    | .reopened _ => exact ih
    | .finished _ .abandoned => exact ih
    | .finished _ .succeeded => exact congrArg (_ :: ·) ih
    | .finished _ .retryable => exact congrArg (_ :: ·) ih
    | .finished _ .terminal => exact congrArg (_ :: ·) ih

theorem not_abandoned_of_decided {h : List Move} {how : Finish} (hm : how ∈ decided h) :
    how ≠ .abandoned := by
  induction h with
  | nil => cases hm
  | cons m h ih =>
    match m with
    | .started _ => exact ih hm
    | .reopened _ => exact ih hm
    | .finished _ .abandoned => exact ih hm
    | .finished _ .succeeded | .finished _ .retryable | .finished _ .terminal =>
      rcases List.mem_cons.mp hm with rfl | hm
      · simp
      · exact ih hm

/-- The total wait after the first `c` tries. -/
def Policy.total (p : Policy) (c : Nat) : Int := ∑ i ∈ Finset.range c, p.backoff (i + 1)

theorem Policy.total_succ (p : Policy) (c : Nat) : p.total (c + 1) = p.total c + p.backoff (c + 1) :=
  Finset.sum_range_succ ..

/-- After `c` retryable ends in the window, time has moved on from its anchor: by
the first `c - 1` waits when the last try ended, by all `c` when the next one runs. -/
def Elapsed (p : Policy) (c : Nat) (tr : Track) : Prop :=
  (tr.tries = [] → c = 0) ∧
  (∀ before s f e, tr.tries = before ++ [⟨s, some (f, e)⟩] → c ≤ tr.tries.length ∧
    (∀ k, c = k + 1 → ∃ o, tr.anchor = some o ∧ o + p.total k ≤ f)) ∧
  (∀ before s, tr.tries = before ++ [⟨s, none⟩] → c < tr.tries.length ∧
    (1 ≤ c → ∃ o, tr.anchor = some o ∧ o + p.total c ≤ s))

/-- The window so far: `since` is what was decided in it. -/
inductive Window (p : Policy) (n : Nat) (since : List Finish) (tr : Track) : Prop where
  | running (c : Nat) : c ≤ n → since = List.replicate c .retryable →
      (tr.phase = .waiting ∨ tr.phase = .active) → Elapsed p c tr → Window p n since tr
  | over (c : Nat) (last : Finish) : c ≤ n → since = List.replicate c .retryable ++ [last] →
      last ≠ .retryable → (tr.phase = .failed ∨ tr.phase = .done) → Window p n since tr

theorem Policy.total_mono (hpos : ∀ i, 0 ≤ p.backoff i) {c d : Nat} (h : c ≤ d) :
    p.total c ≤ p.total d :=
  Finset.sum_le_sum_of_subset_of_nonneg (Finset.range_mono h) fun i _ _ => hpos (i + 1)

theorem anchor_append {phase : Phase} {x : Try} (h : tr.tries ≠ []) :
    Track.anchor ⟨tr.tries ++ [x], phase, tr.since, tr.window⟩ = tr.anchor := by
  unfold Track.anchor
  rw [List.head?_append_of_ne_nil _ h]

theorem anchor_finish {phase : Phase} {before : List Try} {s : Int} {f : Option (Int × Ending)}
    (h : tr.tries = before ++ [⟨s, none⟩]) :
    Track.anchor ⟨before ++ [⟨s, f⟩], phase, tr.since, tr.window⟩ = tr.anchor := by
  unfold Track.anchor
  rw [h]
  cases before <;> rfl

theorem anchor_isSome (h : tr.tries ≠ []) : ∃ o, tr.anchor = some o := by
  obtain ⟨a, l, ha⟩ := List.exists_cons_of_ne_nil h
  unfold Track.anchor
  rw [ha]
  cases tr.window <;> cases tr.since <;> exact ⟨_, rfl⟩

theorem Elapsed.start {c : Nat} {t : Int} (hmono : ∀ i j, i ≤ j → p.backoff i ≤ p.backoff j)
    (hpos : ∀ i, 0 ≤ p.backoff i) (h : Elapsed p c tr) (hc : tr.Closed) (hd : tr.Due p t) :
    Elapsed p c ⟨tr.tries ++ [⟨t, none⟩], .active, tr.since, tr.window⟩ := by
  refine ⟨fun hn => by simp at hn, fun before s f e hb => ?_, fun before s hb => ?_⟩
  · have := (List.append_inj' hb rfl).2
    simp at this
  have hs : s = t := by
    have := (List.append_inj' hb rfl).2
    simpa using this.symm
  subst s
  rcases List.eq_nil_or_concat tr.tries with hn | ⟨init, a, ha⟩
  · have h0 := h.1 hn
    exact ⟨by simp [h0], fun hc1 => by omega⟩
  rw [List.concat_eq_append] at ha
  have hm : a ∈ tr.tries := by simp [ha]
  cases hf : a.finish with
  | none => exact absurd hf (hc a hm)
  | some q =>
    obtain ⟨f, e⟩ := q
    obtain ⟨hle, hpast⟩ := h.2.1 init a.startedAt f e (by rw [ha, ← hf])
    refine ⟨?_, fun hc1 => ?_⟩
    · change c < (tr.tries ++ [_]).length
      rw [List.length_append]
      exact Nat.lt_succ_of_le hle
    obtain ⟨k, rfl⟩ := Nat.exists_eq_add_of_le' hc1
    obtain ⟨o, ho, hof⟩ := hpast k rfl
    refine ⟨o, (anchor_append (List.ne_nil_of_mem hm)).trans ho, ?_⟩
    have hwait : f + p.backoff tr.tries.length ≤ t := by
      rcases hd a f e (by simp [ha]) hf with ⟨w, hw, hlt⟩ | hwait
      · -- a window later than the last end would be its own anchor
        have hwo : w = o := by
          unfold Track.anchor at ho
          rw [hw] at ho
          exact Option.some.inj ho
        have h0 : 0 ≤ p.total k := Finset.sum_nonneg fun i _ => hpos (i + 1)
        omega
      · exact hwait
    have hlater := hmono _ _ hle
    rw [p.total_succ]
    omega

theorem Window.finish {n : Nat} {since : List Finish} {before : List Try} {s t : Int} {how : Finish}
    (hpos : ∀ i, 0 ≤ p.backoff i) (hlimit : p.limit ≤ p.total n) (hw : tr.WellFormed)
    (h : Window p n since tr) (hb : tr.tries = before ++ [⟨s, none⟩]) (hst : s ≤ t)
    (ho : ∀ o, tr.anchor = some o → o ≤ t)
    (hr : how = .retryable → ∀ o, tr.anchor = some o → t < o + p.limit) :
    Window p n (since ++ decided [.finished t how])
      ⟨before ++ [⟨s, some (t, how.ending)⟩], Phase.after how, tr.since, tr.window⟩ := by
  have hact : tr.phase = .active := hw.inFlight ⟨s, none⟩ (by simp [hb]) rfl
  cases h with
  | «over» c last _ _ _ hp =>
    rw [hact] at hp
    rcases hp with hp | hp <;> cases hp
  | running c hcn hs _ he =>
    obtain ⟨hlt, hpast⟩ := he.2.2 before s hb
    obtain ⟨o, hanchor⟩ := @anchor_isSome tr (by simp [hb])
    have hlen : (before ++ [(⟨s, some (t, how.ending)⟩ : Try)]).length = tr.tries.length := by
      simp [hb]
    have hmoved : o + p.total c ≤ t := by
      rcases Nat.eq_zero_or_pos c with rfl | hc1
      · have := ho o hanchor
        simpa [Policy.total] using this
      · obtain ⟨o', ho', hle⟩ := hpast hc1
        obtain rfl := Option.some.inj (hanchor.symm.trans ho')
        omega
    -- the new last try ended at `t`, and any anchor stays the anchor
    have elapsed : ∀ d, d ≤ tr.tries.length → (∀ k, d = k + 1 → o + p.total k ≤ t) →
        Elapsed p d ⟨before ++ [⟨s, some (t, how.ending)⟩], Phase.after how, tr.since, tr.window⟩ := by
      intro d hd hk
      refine ⟨fun hn => by simp at hn, fun before' s' f e hb' => ?_, fun before' s' hb' => ?_⟩
      · have hf : t = f := by
          have := (List.append_inj' hb' rfl).2
          simp at this
          exact this.2.1
        subst f
        exact ⟨by rw [hlen]; exact hd, fun k hdk => ⟨o, (anchor_finish hb).trans hanchor, hk k hdk⟩⟩
      · have := (List.append_inj' hb' rfl).2
        simp at this
    cases how with
    | succeeded => exact .over c .succeeded hcn (by rw [hs]; rfl) (by decide) (Or.inr rfl)
    | terminal => exact .over c .terminal hcn (by rw [hs]; rfl) (by decide) (Or.inl rfl)
    | abandoned =>
      refine .running c hcn (by rw [hs]; exact List.append_nil _) (Or.inr rfl)
        (elapsed c (Nat.le_of_lt hlt) fun k hk => ?_)
      have := Policy.total_mono hpos (p := p) (show k ≤ c by omega)
      omega
    | retryable =>
      have hcn' : c + 1 ≤ n := by
        apply Nat.lt_of_not_le
        intro hnc
        have := Policy.total_mono hpos (p := p) hnc
        have := hr rfl o hanchor
        omega
      refine .running (c + 1) hcn' ?_ (Or.inr rfl) (elapsed (c + 1) hlt fun k hk => ?_)
      · rw [hs, List.replicate_succ']
        rfl
      · obtain rfl : k = c := by omega
        exact hmoved

/-- The part of a history since its last reopening. -/
def recent (history : List Move) : List Move := history.rtakeWhile fun m => !m.isReopen

theorem Window.step {n : Nat} (hmono : ∀ i j, i ≤ j → p.backoff i ≤ p.backoff j)
    (hpos : ∀ i, 0 ≤ p.backoff i) (hlimit : p.limit ≤ p.total n) (hw : tr.WellFormed)
    (h : Window p n (decided (recent history)) tr) (hs : tr.Step p moves tr') :
    Window p n (decided (recent (history ++ moves))) tr' := by
  cases hs with
  | still => rwa [List.append_nil]
  | enter since hp =>
    rw [List.append_nil]
    have hn := (hw.unopened hp).1
    cases h with
    | «over» _ _ _ _ _ hq =>
      rw [hp] at hq
      rcases hq with hq | hq <;> cases hq
    | running c hcn hs _ he =>
      obtain rfl := he.1 hn
      refine .running 0 hcn hs (Or.inr rfl) ⟨fun _ => rfl, ?_, ?_⟩ <;> simp [hn]
  | revert hp hn =>
    rw [List.append_nil]
    cases h with
    | «over» _ _ _ _ _ hq =>
      rw [hp] at hq
      rcases hq with hq | hq <;> cases hq
    | running c hcn hs _ he => exact .running c hcn hs (Or.inl rfl) he
  | start t hp hc hd =>
    have hkeep : decided (recent (history ++ [.started t])) = decided (recent history) := by
      unfold recent
      rw [List.rtakeWhile_concat]
      simp only [Move.isReopen, Bool.not_false, if_true, decided_append]
      exact List.append_nil _
    rw [hkeep]
    cases h with
    | «over» _ _ _ _ _ hq =>
      rw [hp] at hq
      rcases hq with hq | hq <;> cases hq
    | running c hcn hs _ he => exact .running c hcn hs (Or.inr rfl) (he.start hmono hpos hc hd)
  | finish before s t how hb hst _ ho hr =>
    have hgrow : decided (recent (history ++ [.finished t how])) =
        decided (recent history) ++ decided [.finished t how] := by
      unfold recent
      rw [List.rtakeWhile_concat]
      simp only [Move.isReopen, Bool.not_false, if_true, decided_append]
    rw [hgrow]
    exact h.finish hpos hlimit hw hb hst ho hr
  | reopen m hp =>
    have hnone : recent (history ++ [.reopened m]) = [] := by
      unfold recent
      rw [List.rtakeWhile_concat]
      simp [Move.isReopen]
    rw [hnone]
    refine .running 0 (Nat.zero_le n) rfl (Or.inr rfl)
      ⟨fun _ => rfl, fun _ _ _ _ _ => ⟨Nat.zero_le _, fun k hk => by omega⟩, fun b s hb => ?_⟩
    refine ⟨?_, fun h0 => by omega⟩
    change 0 < tr.tries.length
    rw [show tr.tries = b ++ [⟨s, none⟩] from hb]
    simp

theorem Runs.window {n : Nat} (hmono : ∀ i j, i ≤ j → p.backoff i ≤ p.backoff j)
    (hpos : ∀ i, 0 ≤ p.backoff i) (hlimit : p.limit ≤ p.total n) (h : Runs p history tr) :
    Window p n (decided (recent history)) tr := by
  induction h with
  | start =>
    refine .running 0 (Nat.zero_le n) rfl (Or.inl rfl) ⟨fun _ => rfl, ?_, ?_⟩ <;> simp [Track.initial]
  | step hr hs ih => exact ih.step hmono hpos hlimit hr.wellFormed hs

theorem Track.Step.single (hs : tr.Step p moves tr') : moves = [] ∨ ∃ m, moves = [m] := by
  cases hs with
  | still => exact Or.inl rfl
  | enter => exact Or.inl rfl
  | revert => exact Or.inl rfl
  | start t => exact Or.inr ⟨_, rfl⟩
  | finish before s t how => exact Or.inr ⟨_, rfl⟩
  | reopen m => exact Or.inr ⟨_, rfl⟩

/-- What leads somewhere also led somewhere half-way. -/
theorem Runs.prefix (h : Runs p history tr) : ∀ pre post, history = pre ++ post →
    ∃ tr', Runs p pre tr' := by
  induction h with
  | start =>
    intro pre post he
    obtain ⟨rfl, rfl⟩ := List.append_eq_nil_iff.mp he.symm
    exact ⟨_, .start⟩
  | @step history moves tr tr' hr hs ih =>
    intro pre post he
    rcases List.eq_nil_or_concat post with rfl | ⟨post', m, rfl⟩
    · rw [List.append_nil] at he
      exact ⟨tr', he ▸ .step hr hs⟩
    · rcases hs.single with rfl | ⟨x, rfl⟩
      · rw [List.append_nil] at he
        exact ih pre (post'.concat m) he
      · rw [List.concat_eq_append, ← List.append_assoc] at he
        exact ih pre post' (List.append_inj' he rfl).1

/-- In any stretch without a reopening, workers decide at most `n` retryable ends
and at most one other end, which is then the last. -/
theorem Runs.bounded {n : Nat} (hmono : ∀ i j, i ≤ j → p.backoff i ≤ p.backoff j)
    (hpos : ∀ i, 0 ≤ p.backoff i) (hlimit : p.limit ≤ p.total n) (h : Runs p history tr)
    {pre stretch post : List Move} (he : history = pre ++ stretch ++ post)
    (hn : ∀ m ∈ stretch, m.isReopen = false) :
    ∃ c last, c ≤ n ∧ decided stretch = List.replicate c .retryable ++ last ∧ last.length ≤ 1 ∧
      .retryable ∉ last := by
  obtain ⟨tr', hr⟩ := h.prefix (pre ++ stretch) post he
  have hw := hr.window hmono hpos hlimit
  have hsplit : recent (pre ++ stretch) = recent pre ++ stretch := by
    unfold recent List.rtakeWhile
    rw [List.reverse_append, List.takeWhile_append_of_pos (by simpa using hn), List.reverse_append,
      List.reverse_reverse]
  rw [hsplit, decided_append] at hw
  generalize decided (recent pre) = old at hw
  have cut : ∀ (c : Nat) (last : List Finish), old ++ decided stretch =
      List.replicate c .retryable ++ last → last.length ≤ 1 → .retryable ∉ last → c ≤ n →
      ∃ c last, c ≤ n ∧ decided stretch = List.replicate c .retryable ++ last ∧ last.length ≤ 1 ∧
        .retryable ∉ last := by
    intro c last hcl hlen hnot hcn
    rcases List.append_eq_append_iff.mp hcl with ⟨mid, hc, hd⟩ | ⟨mid, ho, hl⟩
    · obtain ⟨-, -, hmid⟩ := List.replicate_eq_append_iff.mp hc
      refine ⟨mid.length, last, ?_, by rw [hd, ← hmid], hlen, hnot⟩
      have := congrArg List.length hc
      rw [List.length_replicate, List.length_append] at this
      omega
    · refine ⟨0, decided stretch, Nat.zero_le n, rfl, ?_, fun hin => hnot ?_⟩
      · rw [hl, List.length_append] at hlen
        omega
      · rw [hl]
        exact List.mem_append_right _ hin
  cases hw with
  | running c hcn hs _ _ => exact cut c [] (by rw [hs, List.append_nil]) (by simp) (by simp) hcn
  | «over» c last hcn hs hne _ =>
    exact cut c [last] hs (by simp) (by simpa using hne.symm) hcn

/-- At most `n` retryable ends and `n + 1` ends in all; one more than `n` is final. -/
theorem Runs.bounded_ends {n : Nat} (hmono : ∀ i j, i ≤ j → p.backoff i ≤ p.backoff j)
    (hpos : ∀ i, 0 ≤ p.backoff i) (hlimit : p.limit ≤ p.total n) (h : Runs p history tr)
    {pre stretch post : List Move} (he : history = pre ++ stretch ++ post)
    (hn : ∀ m ∈ stretch, m.isReopen = false) :
    (decided stretch).count .retryable ≤ n ∧ (decided stretch).length ≤ n + 1 ∧
      ∀ how, (decided stretch)[n]? = some how → how = .succeeded ∨ how = .terminal := by
  obtain ⟨c, last, hc, hs, hlen, hlast⟩ := h.bounded hmono hpos hlimit he hn
  refine ⟨?_, ?_, fun how hhow => ?_⟩
  · rw [hs, List.count_append, List.count_replicate_self, List.count_eq_zero_of_not_mem hlast]
    exact hc
  · rw [hs, List.length_append, List.length_replicate]
    exact Nat.add_le_add hc hlen
  · have hworker := not_abandoned_of_decided (List.mem_of_getElem? hhow)
    rw [hs, List.getElem?_append_right (by rw [List.length_replicate]; exact hc)] at hhow
    have hfinal : how ≠ .retryable := fun he => hlast (he ▸ List.mem_of_getElem? hhow)
    cases how with
    | succeeded => exact Or.inl rfl
    | terminal => exact Or.inr rfl
    | retryable => exact absurd rfl hfinal
    | abandoned => exact absurd rfl hworker

/-- With more than `n` ends in the window the work is over. -/
theorem Runs.over {n : Nat} (hmono : ∀ i j, i ≤ j → p.backoff i ≤ p.backoff j)
    (hpos : ∀ i, 0 ≤ p.backoff i) (hlimit : p.limit ≤ p.total n) (h : Runs p history tr)
    (hn : n < (decided (recent history)).length) : tr.phase = .failed ∨ tr.phase = .done := by
  cases h.window hmono hpos hlimit with
  | running c hc hs =>
    rw [hs, List.length_replicate] at hn
    exact absurd hn (Nat.not_lt.mpr hc)
  | «over» c last _ _ _ hp => exact hp

/-- Whether the move ends an attempt. -/
def Move.isFinish : Move → Bool
  | .finished _ _ => true
  | _ => false

/-- How many ends a history has, a restart's among them. -/
def ends (history : List Move) : Nat := history.countP Move.isFinish

theorem ends_append (h k : List Move) : ends (h ++ k) = ends h + ends k := List.countP_append ..

theorem Runs.ends (h : Runs p history tr) : ends history = tr.tries.countP (·.finish.isSome) := by
  induction h with
  | start => rfl
  | step _ hs ih =>
    rw [ends_append, ih]
    cases hs with
    | still | enter | revert | reopen => rfl
    | start t => simp [Retry.ends, Move.isFinish]
    | finish before s t how ht => simp [ht, Retry.ends, Move.isFinish]

/-- Only the last try is ever in flight. -/
theorem Runs.starts_le (h : Runs p history tr) :
    Retry.ends history ≤ Retry.starts history ∧ Retry.starts history ≤ Retry.ends history + 1 := by
  rw [h.ends, h.starts]
  refine ⟨List.countP_le_length, ?_⟩
  rcases List.eq_nil_or_concat tr.tries with hn | ⟨before, a, ha⟩
  · simp [hn]
  · rw [List.concat_eq_append] at ha
    have hbefore : before.countP (·.finish.isSome) = before.length := by
      refine List.countP_eq_length.mpr fun b hb => ?_
      obtain ⟨f, e, hf, -⟩ := h.wellFormed.earlier ha b hb
      simp [hf]
    rw [ha, List.countP_append, hbefore, List.length_append]
    simp only [List.length_singleton]
    omega

/-- The moves that are a worker's. -/
def Move.ofWorker : Move → Bool
  | .started _ => true
  | .finished _ .abandoned => false
  | .finished _ _ => true
  | .reopened _ => false

theorem ofWorker_counts {stretch : List Move} (h : ∀ m ∈ stretch, m.ofWorker = true) :
    stretch.length = starts stretch + Retry.ends stretch ∧ (decided stretch).length = Retry.ends stretch := by
  induction stretch with
  | nil => exact ⟨rfl, rfl⟩
  | cons m rest ih =>
    obtain ⟨hl, hd⟩ := ih fun k hk => h k (List.mem_cons_of_mem _ hk)
    have hm := h m (by simp)
    simp only [starts, Retry.ends] at hl hd ⊢
    match m with
    | .started _ =>
      simp only [decided, List.length_cons, List.countP_cons, Move.isStart, Move.isFinish, if_true]
      simp
      omega
    | .finished _ .succeeded | .finished _ .retryable | .finished _ .terminal =>
      simp only [decided, List.length_cons, List.countP_cons, Move.isStart, Move.isFinish, if_true]
      simp
      omega
    | .finished _ .abandoned | .reopened _ => cases hm

/-- Where only workers move, a piece of work moves a bounded number of times. -/
theorem Runs.moves_bounded {n : Nat} (hmono : ∀ i j, i ≤ j → p.backoff i ≤ p.backoff j)
    (hpos : ∀ i, 0 ≤ p.backoff i) (hlimit : p.limit ≤ p.total n) (h : Runs p history tr)
    {pre stretch : List Move} (he : history = pre ++ stretch) (hw : ∀ m ∈ stretch, m.ofWorker = true) :
    stretch.length ≤ 2 * n + 3 := by
  have hn : ∀ m ∈ stretch, m.isReopen = false := by
    intro m hm
    cases m with
    | reopened t => cases hw _ hm
    | _ => rfl
  obtain ⟨-, hends, -⟩ := h.bounded_ends hmono hpos hlimit
    (show history = pre ++ stretch ++ [] by rw [he, List.append_nil]) hn
  obtain ⟨hlen, hdec⟩ := ofWorker_counts hw
  obtain ⟨tr₀, h₀⟩ := h.prefix pre stretch he
  have hbefore := h₀.starts_le.1
  have hafter := h.starts_le.2
  rw [he, starts_append, ends_append] at hafter
  omega

end Telegraph.Lib.Retry
