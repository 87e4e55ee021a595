import Telegraph.Proofs.LedgerChanges

namespace Telegraph
open Lib.Retry Function

namespace Board
variable {ι δ : Type} {p : Policy} {b b' : Board ι δ} {moves history : String → List Move}

section Projections
variable {x y : String} {l : Ledger δ}

theorem items_put_self : (b.put x l).items x = l := update_self ..

theorem items_put_ne (h : y ≠ x) : (b.put x l).items y = b.items y := update_of_ne h ..

theorem only_self {ms : List Move} : only x ms x = ms := update_self ..

theorem only_ne {ms : List Move} (h : y ≠ x) : only x ms y = [] := update_of_ne h ..

theorem only_nil : only x [] = fun _ => [] := update_eq_self (f := fun _ => []) x

/-- A change of one piece of work is a change of each. -/
theorem put_change {ms : List Move} (h : (b.items x).Change p b.clock ms l) (y : String) :
    (b.items y).Change p b.clock (only x ms y) ((b.put x l).items y) := by
  by_cases hy : y = x
  · subst y
    rw [items_put_self, only_self]
    exact h
  · rw [items_put_ne hy, only_ne hy]
    exact .still

end Projections

namespace Inv

theorem wellFormed (h : b.Inv p history) (x : String) : (b.items x).track.WellFormed :=
  (h.runs x).wellFormed

/-- An anchor is a time some step read. -/
theorem anchor_le (h : b.Inv p history) {x : String} {o : Int}
    (ho : (b.items x).track.anchor = some o) : o ≤ b.clock := by
  unfold Track.anchor Ledger.track at ho
  cases hw : (b.items x).window with
  | some w =>
    rw [hw] at ho
    cases ho
    exact h.window x o hw
  | none =>
    rw [hw] at ho
    cases hs : (b.items x).since with
    | some s =>
      rw [hs] at ho
      cases ho
      exact h.since x o hs
    | none =>
      rw [hs] at ho
      cases hr : (b.items x).rows with
      | nil =>
        rw [hr] at ho
        cases ho
      | cons a rest =>
        rw [hr] at ho
        cases ho
        exact (h.started x a (by simp [hr])).1

/-- What a slot offers can be started. -/
theorem offered (h : b.Inv p history) {i : ι} {t : Int} {x : String} {l : Ledger δ}
    (ho : (b.slots i).Offers t x l) (hn : (b.items x).rows.length = l.rows.length)
    (hd : l.track.Due p t) : b.Reading t ∧ (b.items x).phase = .active ∧ (b.items x).Closed ∧
      (b.items x).track.Due p t := by
  have hk := h.keeps i
  generalize b.slots i = s at ho hk
  cases ho with
  | seen hm =>
    obtain ⟨hp, hc, _, he⟩ := hk.2 x l hm
    rw [he hn]
    exact ⟨hk.1, hp, hc, hd⟩
  | claimed hr =>
    have hx : (b.items x).rows = [] := by
      rw [hr] at hn
      exact List.length_eq_zero_iff.mp hn
    refine ⟨hk.1, hk.2 hx, ?_, ?_⟩
    · intro a ha
      rw [hx] at ha
      cases ha
    · intro a f e ha
      simp [Ledger.track, hx] at ha

variable [DecidableEq ι]

/-- Each piece of work changes as a ledger may; a restart may also give it back. -/
theorem change (h : b.Inv p history) (hs : b.Step p moves b') (x : String) :
    (b.items x).Change p b.clock (moves x) (b'.items x) ∨
      (b.running = false ∧ moves x = [] ∧ (b.items x).Reverts (b'.items x)) := by
  have quiet : ∀ {y : String} {l : Ledger δ}, (b.items y).Change p b.clock [] l →
      (b.items x).Change p b.clock [] ((b.put y l).items x) := by
    intro y l hc
    have := put_change hc x
    rwa [only_nil] at this
  cases hs with
  | still => exact Or.inl .still
  | wake => exact Or.inl .still
  | look => exact Or.inl .still
  | release => exact Or.inl .still
  | lost => exact Or.inl .still
  | answer => exact Or.inl .still
  | stop => exact Or.inl .still
  | claim i t y _ _ hp => exact Or.inl (quiet (.enter none hp fun s hs => by cases hs))
  | select y since hp hle =>
    refine Or.inl (quiet (.enter (some since) hp fun s hs => ?_))
    cases hs
    exact hle
  | start i t y attemptId l anchor _ ho hd hn _ =>
    obtain ⟨hr, hp, hc, hd⟩ := h.offered ho hn hd
    exact Or.inl (put_change (.start attemptId y t hp hc hd hr.1 hr.2) x)
  | reopen y m hp hle => exact Or.inl (put_change (.reopen m hp hle) x)
  | finish i y attemptId anchor t how before a detail message hsl hr hl =>
    have hk := h.keeps i
    rw [hsl] at hk
    obtain ⟨⟨before', a', hr', _, hf, hst⟩, ho, ht, hle, hw⟩ := hk
    obtain ⟨rfl, ha⟩ := List.append_inj' (hr.symm.trans hr') rfl
    cases ha
    refine Or.inl (put_change (.finish before a t how detail message hr hf hst ht hw ?_ ?_) x)
    · intro o he
      rw [ho] at he
      cases he
      exact hle
    · intro hr o he
      rw [ho] at he
      cases he
      exact hl hr
  | recover detail message hrun =>
    dsimp only
    by_cases hc : (b.items x).Closed
    · have hrows : ∀ rows : List (Attempt δ), (∀ a ∈ rows, a.finishedAt ≠ none) →
          (rows.map fun a => if a.finishedAt.isNone then
            a.ended b.clock .abandoned (detail a) message else a) = rows := by
        intro rows hr
        conv_rhs => rw [← List.map_id rows]
        apply List.map_congr_left
        intro a ha
        have := hr a ha
        rw [if_neg (by simpa using this)]
        rfl
      have hmoves : b.abandons x = [] := by
        unfold abandons
        rw [List.filter_eq_nil_iff.mpr fun a ha => by simpa using hc a ha]
        rfl
      unfold Ledger.recover
      rw [hrows _ hc, hmoves]
      split
      · rename_i hq
        exact Or.inr ⟨hrun, rfl, hq.1, hq.2.1, rfl⟩
      · exact Or.inl .still
    · left
      have hp := Ledger.open_active (h.wellFormed x) hc
      unfold Ledger.Closed at hc
      push Not at hc
      obtain ⟨a, ha, hf⟩ := hc
      obtain ⟨before, hr, hb⟩ := Ledger.open_last (h.wellFormed x) ha hf
      have hold : (before.map fun a => if a.finishedAt.isNone then
          a.ended b.clock .abandoned (detail a) message else a) = before := by
        conv_rhs => rw [← List.map_id before]
        apply List.map_congr_left
        intro c hcm
        rw [if_neg (by simpa using hb c hcm)]
        rfl
      have hmoves : b.abandons x = [.finished b.clock .abandoned] := by
        unfold abandons
        rw [hr, List.filter_append, List.filter_eq_nil_iff.mpr fun c hcm => by simpa using hb c hcm]
        simp [hf]
      have hitem : (b.items x).recover (fun a => if a.finishedAt.isNone then
          a.ended b.clock .abandoned (detail a) message else a) =
          ⟨before ++ [a.ended b.clock .abandoned (detail a) message], Phase.after .abandoned,
            (b.items x).since, (b.items x).window⟩ := by
        unfold Ledger.recover
        rw [if_neg (by simp [hr]), hr, List.map_append, hold]
        simp [hf, hp, Phase.after]
      rw [hmoves, hitem]
      refine .finish before a b.clock .abandoned (detail a) message hr hf (h.started x a ha).1
        (le_refl _) (h.window x) (fun o => h.anchor_le) fun he => ?_
      cases he

end Inv

section Frames
/-- A slot's promises survive the steps of others. -/
theorem Keeps.frame {s : Slot δ} (hk : b.Keeps s) (hclock : b'.clock = b.clock)
    (hc : ∀ x, (b.items x).Change p b.clock (moves x) (b'.items x))
    (ho : ∀ x, s.owner = some x → b'.items x = b.items x) : b'.Keeps s := by
  have hreading : ∀ t, b.Reading t → b'.Reading t := fun t ht => ⟨hclock ▸ ht.1, ht.2⟩
  cases s with
  | free => trivial
  | looking t seen =>
    refine ⟨hreading t hk.1, fun x l hm => ?_⟩
    obtain ⟨hp, hcl, hle, he⟩ := hk.2 x l hm
    have hgrow := (hc x).grows
    refine ⟨hp, hcl, hle.trans hgrow, fun hn => ?_⟩
    have hx : b.items x = l := he (Nat.le_antisymm (hn ▸ hgrow) hle)
    subst l
    exact (hc x).settled hp hcl hn
  | claimed t x =>
    refine ⟨hreading t hk.1, fun hr => ?_⟩
    have hx : (b.items x).rows = [] := by
      apply List.length_eq_zero_iff.mp
      have := (hc x).grows
      rw [hr] at this
      exact Nat.le_zero.mp this
    have hp := hk.2 hx
    rw [(hc x).settled hp (by simp [Ledger.Closed, hx]) (by rw [hr, hx])]
    exact hp
  | busy x a o =>
    change _ ∧ _
    rw [ho x rfl]
    exact hk
  | ended x a o t =>
    change _ ∧ _ ∧ _
    rw [ho x rfl, hclock]
    exact hk

/-- The frame of a step that changes one piece of work no other worker owns. -/
theorem Keeps.put {s : Slot δ} {x : String} {l : Ledger δ} {ms : List Move} (hk : b.Keeps s)
    (hc : (b.items x).Change p b.clock ms l) (ho : s.owner ≠ some x) : (b.put x l).Keeps s := by
  exact hk.frame rfl (put_change hc) fun y hy => items_put_ne fun he => ho (he ▸ hy)

end Frames

variable [DecidableEq ι]

theorem slots_hand_self {i : ι} {s : Slot δ} : (b.hand i s).slots i = s := update_self ..

theorem Step.clock_eq (hs : b.Step p moves b') : b'.clock = b.clock := by
  cases hs <;> rfl

namespace Inv

theorem step_runs (h : b.Inv p history) (hs : b.Step p moves b') (x : String) :
    Runs p (history x ++ moves x) (b'.items x).track := by
  rcases h.change hs x with hc | ⟨_, hm, hr⟩
  · exact .step (h.runs x) hc.track
  · rw [hm]
    exact .step (h.runs x) hr.track

theorem step_sound (h : b.Inv p history) (hs : b.Step p moves b') (x : String) :
    (b'.items x).Sound := by
  rcases h.change hs x with hc | ⟨_, _, hr⟩
  · exact hc.sound (h.sound x)
  · obtain ⟨_, _, he⟩ := hr
    rw [he]
    exact h.sound x

theorem step_started (h : b.Inv p history) (hs : b.Step p moves b') (x : String) :
    ∀ a ∈ (b'.items x).rows, b'.Reading a.startedAt := by
  unfold Reading
  rw [hs.clock_eq]
  rcases h.change hs x with hc | ⟨_, _, hr⟩
  · generalize moves x = ms at hc
    generalize b'.items x = l at hc ⊢
    cases hc with
    | still => exact h.started x
    | enter => exact h.started x
    | reopen => exact h.started x
    | start attemptId y t _ _ _ ht hy =>
      intro a ha
      rcases List.mem_append.mp ha with ha | ha
      · exact h.started x a ha
      · rw [List.mem_singleton.mp ha]
        exact ⟨ht, hy⟩
    | finish before a t how detail message hr =>
      intro c hm
      rcases List.mem_append.mp hm with hm | hm
      · exact h.started x c (by rw [hr]; exact List.mem_append_left _ hm)
      · rw [List.mem_singleton.mp hm]
        exact h.started x a (by simp [hr])
  · obtain ⟨_, _, he⟩ := hr
    rw [he]
    exact h.started x

theorem step_since (h : b.Inv p history) (hs : b.Step p moves b') (x : String) :
    ∀ s, (b'.items x).since = some s → s ≤ b'.clock := by
  rw [hs.clock_eq]
  rcases h.change hs x with hc | ⟨_, _, hr⟩
  · generalize moves x = ms at hc
    generalize b'.items x = l at hc ⊢
    cases hc with
    | enter since _ hle => exact hle
    | _ => exact h.since x
  · obtain ⟨_, _, he⟩ := hr
    rw [he]
    exact h.since x

theorem step_window (h : b.Inv p history) (hs : b.Step p moves b') (x : String) :
    ∀ w, (b'.items x).window = some w → w ≤ b'.clock := by
  rw [hs.clock_eq]
  rcases h.change hs x with hc | ⟨_, _, hr⟩
  · generalize moves x = ms at hc
    generalize b'.items x = l at hc ⊢
    cases hc with
    | reopen m _ hle =>
      intro w hw
      cases hw
      exact hle
    | _ => exact h.window x
  · obtain ⟨_, _, he⟩ := hr
    rw [he]
    exact h.window x

omit [DecidableEq ι] in
theorem owner_open (h : b.Inv p history) {j : ι} {x : String} (ho : (b.slots j).owner = some x) :
    ¬ (b.items x).Closed := by
  have hk := h.keeps j
  generalize b.slots j = s at ho hk
  intro hc
  cases s with
  | busy y a o =>
    cases ho
    obtain ⟨⟨before, r, hr, _, hf⟩, _⟩ := hk
    exact hc r (by simp [hr]) hf
  | ended y a o t =>
    cases ho
    obtain ⟨⟨before, r, hr, _, hf, _⟩, _⟩ := hk
    exact hc r (by simp [hr]) hf
  | _ => cases ho

omit [DecidableEq ι] in
/-- Nobody owns work that is not active. -/
theorem unowned (h : b.Inv p history) {x : String} (hp : (b.items x).phase ≠ .active) (j : ι) :
    (b.slots j).owner ≠ some x :=
  fun ho => hp (Ledger.open_active (h.wellFormed x) (h.owner_open ho))

theorem keeps_hand (h : b.Inv p history) {i : ι} {s : Slot δ} (hs : b.Keeps s) (j : ι) :
    (b.hand i s).Keeps ((b.hand i s).slots j) := by
  change b.Keeps (update b.slots i s j)
  by_cases hj : j = i
  · subst j
    rw [update_self]
    exact hs
  · rw [update_of_ne hj]
    exact h.keeps j

omit [DecidableEq ι] in
theorem keeps_put (h : b.Inv p history) {x : String} {l : Ledger δ} {ms : List Move}
    (hc : (b.items x).Change p b.clock ms l) (hx : (b.items x).phase ≠ .active) (j : ι) :
    (b.put x l).Keeps ((b.put x l).slots j) :=
  (h.keeps j).put hc (h.unowned hx j)

theorem keeps_put_hand (h : b.Inv p history) {i : ι} {x : String} {l : Ledger δ} {ms : List Move}
    {s : Slot δ} (hc : (b.items x).Change p b.clock ms l)
    (ho : ∀ j, j ≠ i → (b.slots j).owner ≠ some x) (hs : (b.put x l).Keeps s) (j : ι) :
    ((b.put x l).hand i s).Keeps (((b.put x l).hand i s).slots j) := by
  change (b.put x l).Keeps (update b.slots i s j)
  by_cases hj : j = i
  · subst j
    rw [update_self]
    exact hs
  · rw [update_of_ne hj]
    exact (h.keeps j).put hc (ho j hj)

theorem step_keeps (h : b.Inv p history) (hs : b.Step p moves b') (j : ι) :
    b'.Keeps (b'.slots j) := by
  cases hs with
  | still => exact h.keeps j
  | wake i _ _ hy => exact h.keeps_hand (s := .looking b.clock []) ⟨⟨le_refl _, hy⟩, fun x l hm => by cases hm⟩ j
  | look i t seen _ hsl hseen =>
    have hk := h.keeps i
    rw [hsl] at hk
    refine h.keeps_hand (s := .looking t seen) ⟨hk.1, fun x l hm => ?_⟩ j
    obtain ⟨rfl, hp, hc⟩ := hseen x l hm
    exact ⟨hp, hc, Nat.le_refl _, fun _ => rfl⟩
  | release i => exact h.keeps_hand (s := .free) trivial j
  | lost i => exact h.keeps_hand (s := .free) trivial j
  | answer i x attemptId anchor _ hsl =>
    have hk := h.keeps i
    rw [hsl] at hk
    obtain ⟨⟨before, a, hr, hid, hf⟩, ho⟩ := hk
    have ha := (h.started x a (by simp [hr])).1
    exact h.keeps_hand (s := .ended x attemptId anchor b.clock)
      ⟨⟨before, a, hr, hid, hf, ha⟩, ho, le_refl _, h.anchor_le ho, h.window x⟩ j
  | claim i t x _ hsl hp =>
    have hk := h.keeps i
    rw [hsl] at hk
    refine h.keeps_put_hand (s := .claimed t x) (.enter none hp fun s hn => by cases hn)
      (fun j _ => h.unowned (by rw [hp]; simp) j) ⟨hk.1, fun _ => ?_⟩ j
    rw [items_put_self]
    rfl
  | select x since hp hle =>
    refine h.keeps_put (.enter (some since) hp fun s hn => ?_) (by rw [hp]; simp) j
    cases hn
    exact hle
  | start i t x attemptId l anchor hrun ho hd hn hanchor =>
    obtain ⟨hr, hp, hc, hd⟩ := h.offered ho hn hd
    refine h.keeps_put_hand (s := .busy x attemptId anchor) (.start attemptId x t hp hc hd hr.1 hr.2)
      (fun j _ hj => h.owner_open hj hc)
      ⟨⟨(b.items x).rows, AttemptTable.started attemptId x ((b.items x).rows.length + 1) t, ?_, rfl, rfl⟩,
        ?_⟩ j
    · rw [items_put_self]
      rfl
    · rw [items_put_self]
      exact hanchor
  | finish i x attemptId anchor t how before a detail message hsl hr hl =>
    have hk := h.keeps i
    rw [hsl] at hk
    obtain ⟨⟨before', a', hr', _, hf, hst⟩, ho, ht, hle, hw⟩ := hk
    obtain ⟨rfl, ha⟩ := List.append_inj' (hr.symm.trans hr') rfl
    cases ha
    refine h.keeps_put_hand (s := .free) (.finish before a t how detail message hr hf hst ht hw ?_ ?_)
      (fun j hj hown => hj (h.apart j i x hown (by rw [hsl]; rfl))) trivial j
    · intro o he
      rw [ho] at he
      cases he
      exact hle
    · intro hq o he
      rw [ho] at he
      cases he
      exact hl hq
  | reopen x m hp hle => exact h.keeps_put (.reopen m hp hle) (by rw [hp]; simp) j
  | stop => exact trivial
  | recover detail message hrun =>
    change Keeps _ (b.slots j)
    rw [h.stopped hrun j]
    trivial

/-- A new owner is welcome where no other slot owns the work. -/
theorem apart_update (h : b.Inv p history) {i : ι} {s : Slot δ}
    (hs : ∀ x, s.owner = some x → ∀ j, j ≠ i → (b.slots j).owner ≠ some x) (j k : ι) (x : String)
    (hj : (update b.slots i s j).owner = some x) (hk : (update b.slots i s k).owner = some x) :
    j = k := by
  by_cases hji : j = i
  · subst j
    by_cases hki : k = i
    · exact hki.symm
    · rw [update_self] at hj
      rw [update_of_ne hki] at hk
      exact absurd hk (hs x hj k hki)
  · rw [update_of_ne hji] at hj
    by_cases hki : k = i
    · subst k
      rw [update_self] at hk
      exact absurd hj (hs x hk j hji)
    · rw [update_of_ne hki] at hk
      exact h.apart j k x hj hk

theorem step_apart (h : b.Inv p history) (hs : b.Step p moves b') :
    ∀ j k x, (b'.slots j).owner = some x → (b'.slots k).owner = some x → j = k := by
  cases hs with
  | still => exact h.apart
  | select => exact h.apart
  | reopen => exact h.apart
  | recover => exact h.apart
  | wake i => exact h.apart_update fun x hx => by cases hx
  | look i => exact h.apart_update fun x hx => by cases hx
  | release i => exact h.apart_update fun x hx => by cases hx
  | lost i => exact h.apart_update fun x hx => by cases hx
  | claim i => exact h.apart_update fun x hx => by cases hx
  | finish i => exact h.apart_update fun x hx => by cases hx
  | stop => exact fun j k x hj => by cases hj
  | answer i x attemptId anchor _ hsl =>
    refine h.apart_update fun y hy j hj hown => hj ?_
    cases hy
    exact h.apart j i x hown (by rw [hsl]; rfl)
  | start i t x attemptId l anchor _ ho hd hn =>
    refine h.apart_update fun y hy j _ hown => ?_
    cases hy
    exact h.owner_open hown (h.offered ho hn hd).2.2.1

/-- An owner stays one unless its slot changes hands. -/
theorem owned_update (h : b.Inv p history) (hrun : b.running = true) {i : ι} {s : Slot δ}
    {x : String} (ho : ¬ (b.items x).Closed) (hs : (b.slots i).owner = some x → s.owner = some x) :
    ∃ j, (update b.slots i s j).owner = some x := by
  obtain ⟨j, hj⟩ := h.owned hrun x ho
  refine ⟨j, ?_⟩
  by_cases hji : j = i
  · subst j
    rw [update_self]
    exact hs hj
  · rw [update_of_ne hji]
    exact hj

theorem step_owned (h : b.Inv p history) (hs : b.Step p moves b') (hrun : b'.running = true)
    (x : String) (ho : ¬ (b'.items x).Closed) : ∃ i, (b'.slots i).owner = some x := by
  cases hs with
  | still => exact h.owned hrun x ho
  | wake i _ hsl => exact h.owned_update hrun ho fun hown => by simp [hsl, Slot.owner] at hown
  | look i t seen _ hsl => exact h.owned_update hrun ho fun hown => by simp [hsl, Slot.owner] at hown
  | release i t seen hsl =>
    exact h.owned_update hrun ho fun hown => by simp [hsl, Slot.owner] at hown
  | lost i t y hsl => exact h.owned_update hrun ho fun hown => by simp [hsl, Slot.owner] at hown
  | answer i y attemptId anchor _ hsl =>
    refine h.owned_update hrun ho fun hown => ?_
    rw [hsl] at hown
    exact hown
  | claim i t y _ hsl =>
    by_cases hx : x = y
    · subst x
      change ¬ ((b.put y _).items y).Closed at ho
      rw [items_put_self] at ho
      exact h.owned_update hrun ho fun hown => by simp [hsl, Slot.owner] at hown
    · change ¬ ((b.put y _).items x).Closed at ho
      rw [items_put_ne hx] at ho
      exact h.owned_update hrun ho fun hown => by simp [hsl, Slot.owner] at hown
  | select y since =>
    refine h.owned hrun x fun hc => ho ?_
    by_cases hx : x = y
    · subst x
      rw [items_put_self]
      exact hc
    · rw [items_put_ne hx]
      exact hc
  | reopen y m =>
    refine h.owned hrun x fun hc => ho ?_
    by_cases hx : x = y
    · subst x
      rw [items_put_self]
      exact hc
    · rw [items_put_ne hx]
      exact hc
  | start i t y attemptId l anchor _ hoff hd hn =>
    by_cases hx : x = y
    · subst x
      exact ⟨i, by rw [slots_hand_self]; rfl⟩
    · change ¬ ((b.put y _).items x).Closed at ho
      rw [items_put_ne hx] at ho
      refine h.owned_update hrun ho fun hown => ?_
      generalize b.slots i = s at hoff hown
      cases hoff <;> cases hown
  | finish i y attemptId anchor t how before a detail message hsl hr =>
    by_cases hx : x = y
    · subst x
      refine absurd ?_ ho
      change ((b.put y _).items y).Closed
      rw [items_put_self]
      have hk := h.keeps i
      rw [hsl] at hk
      obtain ⟨⟨before', d, hr', _, hf, _⟩, _⟩ := hk
      obtain ⟨before'', hr'', hb⟩ := Ledger.open_last (h.wellFormed y) (by simp [hr']) hf
      obtain ⟨rfl, _⟩ := List.append_inj' (hr.symm.trans hr'') rfl
      intro c hc
      rcases List.mem_append.mp hc with hc | hc
      · exact hb c hc
      · rw [List.mem_singleton.mp hc]
        exact Option.some_ne_none _
    · change ¬ ((b.put y _).items x).Closed at ho
      rw [items_put_ne hx] at ho
      refine h.owned_update hrun ho fun hown => ?_
      rw [hsl] at hown
      exact absurd (Option.some.inj hown).symm hx
  | stop => cases hrun
  | recover detail message =>
    refine absurd ?_ ho
    intro a ha
    obtain ⟨c, _, rfl⟩ := List.mem_map.mp ha
    split
    · exact Option.some_ne_none _
    · rename_i hf
      simpa using hf

/-- A claim stays one unless its slot changes hands. -/
theorem taken_update (h : b.Inv p history) (hrun : b.running = true) {i : ι} {s : Slot δ}
    {x : String} (hp : (b.items x).phase = .active) (hr : (b.items x).rows = [])
    (hn : (b.items x).since = none) (hs : ∀ t, b.slots i = .claimed t x → s = .claimed t x) :
    ∃ j t, update b.slots i s j = .claimed t x := by
  obtain ⟨j, t, hj⟩ := h.taken hrun x hp hr hn
  refine ⟨j, t, ?_⟩
  by_cases hji : j = i
  · subst j
    rw [update_self]
    exact hs t hj
  · rw [update_of_ne hji]
    exact hj

theorem step_taken (h : b.Inv p history) (hs : b.Step p moves b') (hrun : b'.running = true)
    (x : String) (hp : (b'.items x).phase = .active) (hr : (b'.items x).rows = [])
    (hn : (b'.items x).since = none) : ∃ i t, b'.slots i = .claimed t x := by
  cases hs with
  | still => exact h.taken hrun x hp hr hn
  | wake i _ hsl => exact h.taken_update hrun hp hr hn fun t ht => by simp [hsl] at ht
  | look i t seen _ hsl => exact h.taken_update hrun hp hr hn fun t ht => by simp [hsl] at ht
  | release i t seen hsl => exact h.taken_update hrun hp hr hn fun t ht => by simp [hsl] at ht
  | answer i y a o _ hsl => exact h.taken_update hrun hp hr hn fun t ht => by simp [hsl] at ht
  | lost i t y hsl hopen =>
    refine h.taken_update hrun hp hr hn fun t' ht => ?_
    rw [hsl] at ht
    cases ht
    refine absurd (fun a ha => ?_) hopen
    change (b.items x).rows = [] at hr
    rw [hr] at ha
    cases ha
  | claim i t y _ hsl =>
    by_cases hx : x = y
    · subst x
      exact ⟨i, t, slots_hand_self⟩
    · change ((b.put y _).items x).phase = _ at hp
      change ((b.put y _).items x).rows = _ at hr
      change ((b.put y _).items x).since = _ at hn
      rw [items_put_ne hx] at hp hr hn
      exact h.taken_update hrun hp hr hn fun t ht => by simp [hsl] at ht
  | select y since =>
    by_cases hx : x = y
    · subst x
      rw [items_put_self] at hn
      cases hn
    · rw [items_put_ne hx] at hp hr hn
      exact h.taken hrun x hp hr hn
  | reopen y m hq =>
    by_cases hx : x = y
    · subst x
      rw [items_put_self] at hr
      obtain ⟨before, s, f, hb⟩ := (h.wellFormed y).failed hq
      change (b.items y).rows.map _ = _ at hb
      change (b.items y).rows = [] at hr
      rw [hr] at hb
      simp at hb
    · rw [items_put_ne hx] at hp hr hn
      exact h.taken hrun x hp hr hn
  | start i t y attemptId l anchor _ hoff hd hlen =>
    by_cases hx : x = y
    · subst x
      change ((b.put y _).items y).rows = _ at hr
      rw [items_put_self] at hr
      simp [Ledger.start] at hr
    · change ((b.put y _).items x).phase = _ at hp
      change ((b.put y _).items x).rows = _ at hr
      change ((b.put y _).items x).since = _ at hn
      rw [items_put_ne hx] at hp hr hn
      refine h.taken_update hrun hp hr hn fun t' ht => ?_
      generalize b.slots i = s at hoff ht
      cases hoff with
      | seen => cases ht
      | claimed => exact absurd (by cases ht; rfl) hx
  | finish i y attemptId anchor t how before a detail message hsl =>
    by_cases hx : x = y
    · subst x
      change ((b.put y _).items y).rows = _ at hr
      rw [items_put_self] at hr
      simp at hr
    · change ((b.put y _).items x).phase = _ at hp
      change ((b.put y _).items x).rows = _ at hr
      change ((b.put y _).items x).since = _ at hn
      rw [items_put_ne hx] at hp hr hn
      exact h.taken_update hrun hp hr hn fun t' ht => by simp [hsl] at ht
  | stop => cases hrun
  | recover detail message =>
    dsimp only [Ledger.recover] at hp hr hn
    by_cases hq : (b.items x).phase = .active ∧ (b.items x).rows = [] ∧ (b.items x).since = none
    · rw [if_pos hq] at hp
      cases hp
    · rw [if_neg hq] at hp
      exact absurd ⟨hp, List.map_eq_nil_iff.mp hr, hn⟩ hq

theorem step_stopped (h : b.Inv p history) (hs : b.Step p moves b') (hrun : b'.running = false)
    (j : ι) : b'.slots j = .free := by
  cases hs with
  | still => exact h.stopped hrun j
  | select => exact h.stopped hrun j
  | reopen => exact h.stopped hrun j
  | stop => rfl
  | recover => cases hrun
  | wake i hr => exact absurd (hr.symm.trans hrun) (by simp)
  | look i _ _ hr => exact absurd (hr.symm.trans hrun) (by simp)
  | claim i _ _ hr => exact absurd (hr.symm.trans hrun) (by simp)
  | start i _ _ _ _ _ hr => exact absurd (hr.symm.trans hrun) (by simp)
  | answer i _ _ _ hr => exact absurd (hr.symm.trans hrun) (by simp)
  | release i t seen hsl =>
    rw [h.stopped hrun i] at hsl
    cases hsl
  | lost i t x hsl =>
    rw [h.stopped hrun i] at hsl
    cases hsl
  | finish i x a o t how before r detail message hsl =>
    rw [h.stopped hrun i] at hsl
    cases hsl

/-- Every step keeps the invariant. -/
theorem step (h : b.Inv p history) (hs : b.Step p moves b') :
    b'.Inv p fun x => history x ++ moves x where
  runs := h.step_runs hs
  sound := h.step_sound hs
  started := h.step_started hs
  since := h.step_since hs
  window := h.step_window hs
  keeps := h.step_keeps hs
  apart := h.step_apart hs
  owned := h.step_owned hs
  taken := h.step_taken hs
  stopped := h.step_stopped hs

omit [DecidableEq ι] in
/-- Time alone breaks nothing. -/
theorem pass (h : b.Inv p history) {now : Int} (hle : b.clock ≤ now) :
    Inv p history { b with clock := now } := by
  have hreading : ∀ t, b.Reading t → Reading { b with clock := now } t :=
    fun t ht => ⟨ht.1.trans hle, ht.2⟩
  refine ⟨h.runs, h.sound, fun x a ha => hreading _ (h.started x a ha),
    fun x s hs => (h.since x s hs).trans hle, fun x w hw => (h.window x w hw).trans hle,
    fun i => ?_, h.apart, h.owned, h.taken, h.stopped⟩
  have hk := h.keeps i
  change Keeps _ (b.slots i)
  generalize b.slots i = s at hk ⊢
  cases s with
  | free => trivial
  | looking t seen => exact ⟨hreading t hk.1, hk.2⟩
  | claimed t x => exact ⟨hreading t hk.1, hk.2⟩
  | busy x a o => exact hk
  | ended x a o t => exact ⟨hk.1, hk.2.1, hk.2.2.1.trans hle, hk.2.2.2⟩

end Inv

/-- Nothing is on record and no worker runs. -/
def empty (clock : Int) : Board ι δ :=
  ⟨fun _ => ⟨[], .waiting, none, none⟩, fun _ => .free, clock, false⟩

omit [DecidableEq ι] in
theorem inv_empty (clock : Int) : (empty clock : Board ι δ).Inv p fun _ => [] where
  runs _ := .start
  sound x := by simp [empty, Ledger.Sound]
  started x a ha := by cases ha
  since x s hs := by cases hs
  window x w hw := by cases hw
  keeps i := trivial
  apart i j x hi := by cases hi
  owned hr := by cases hr
  taken hr := by cases hr
  stopped _ i := rfl

end Board
end Telegraph
