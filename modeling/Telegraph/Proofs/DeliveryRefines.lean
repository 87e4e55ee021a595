import Telegraph.Proofs.Refines

namespace Telegraph
open Lib Program Lib.Retry SqliteStore Function

/-- What a due candidate says of the ledger it shows. -/
theorem DeliveryCandidate.due {cand : DeliveryCandidate} {l : Ledger Int} {t : Int}
    (hs : cand.row.Shows l) (hd : Delivering.isDue t cand = true) : l.track.Due Retry.policy t := by
  rcases hs with ⟨hr, _⟩ | ⟨n, f, hn, hf, hs⟩
  · intro a g e ha
    simp [Ledger.track, hr] at ha
  · change cand.lastAttemptNumber = some n at hn
    change cand.lastAttemptFinishedAt = some f at hf
    unfold Delivering.isDue at hd
    rw [hn, hf] at hd
    exact hs.due_iff.mp hd

/-- The number a candidate shows is how many attempts its ledger holds. -/
theorem DeliveryCandidateRow.Shows.number {row : DeliveryCandidateRow} {l : Ledger Int}
    (hs : row.Shows l) :
    row.lastAttemptNumber = if l.rows = [] then none else some l.rows.length := by
  rcases hs with ⟨hr, hn, _⟩ | ⟨n, f, hn, _, before, a, hr, _, hlen, _⟩
  · rw [hn, if_pos hr]
  · rw [hn, if_neg (by simp [hr]), hlen]

namespace Service
variable {ι : Type} [DecidableEq ι] {c : Service ι} {b : Board ι String} {d : Board ι Int}
variable {i : ι} {history : String → List Move}

/-- A Delivery worker's step: its slot changes hands and one store change is seen
on the boards. -/
theorem Refines.deliverer (h : c.Refines b d) (hk : ∀ j, d.Keeps (d.slots j)) (slot : Slot Int)
    {s' : Store} {pc : Delivering.Pc} {items : String → Ledger Int}
    (hl : c.store.view.Leads s'.view c.store.view.transcriptionLedger items)
    (hg : ∀ x, (d.items x).rows.length ≤ (items x).rows.length)
    (hs : pc.Stands (({ d with items := items } : Board ι Int).hand i slot) slot) :
    (({ c with store := s' } : Service ι).onDeliverer i pc).Refines b
      (({ d with items := items } : Board ι Int).hand i slot) where
  lifecycle := hl.lifecycle h.lifecycle
  deadlines := hl.deadlines h.deadlines
  transcriptions := hl.transcriptions.trans h.transcriptions
  deliveries := hl.deliveries
  transcription_clock := h.transcription_clock
  delivery_clock := h.delivery_clock
  transcription_running := h.transcription_running
  delivery_running := h.delivery_running
  transcribers := h.transcribers
  routers := h.routers
  deliverers j := by
    change (update c.deliverers i pc j).Stands _ (update d.slots i slot j)
    by_cases hj : j = i
    · subst j
      rw [update_self, update_self]
      exact hs
    · rw [update_of_ne hj, update_of_ne hj]
      exact stands_mono (h.deliverers j) (hk j) hg

section Slots
variable {pc : Delivering.Pc} (slot : Slot Int)

theorem Refines.deliverer_handed (h : c.Refines b d) (hk : ∀ j, d.Keeps (d.slots j))
    (hstep : d.Step Retry.policy (fun _ => []) (d.hand i slot)) (hs : pc.Stands d slot)
    (hkeep : d.Keeps slot) : Matches b d (c.onDeliverer i pc, []) := by
  refine ⟨b, d.hand i slot, .still, hstep, ?_⟩
  have hl : c.store.view.Leads c.store.view c.store.view.transcriptionLedger d.items := by
    rw [← h.deliveries]
    exact .refl _
  exact h.deliverer hk slot hl (fun _ => Nat.le_refl _)
    (stands_mono hs hkeep fun _ => Nat.le_refl _)

theorem Refines.deliverer_quiet (h : c.Refines b d) (hk : ∀ j, d.Keeps (d.slots j))
    (hs : pc.Stands d (d.slots i)) : Matches b d (c.onDeliverer i pc, []) := by
  have hsame : d.hand i (d.slots i) = d :=
    congrArg (fun f => ({ d with slots := f } : Board ι Int)) (update_eq_self i d.slots)
  refine h.deliverer_handed (d.slots i) hk ?_ hs (hk i)
  rw [hsame]
  exact .still

theorem Refines.deliverer_changed (h : c.Refines b d) (hk : ∀ j, d.Keeps (d.slots j)) {s' : Store}
    {x : String} {l : Ledger Int} {events : List Event}
    (hl : c.store.view.Leads s'.view c.store.view.transcriptionLedger
      (update c.store.view.deliveryLedger x l))
    (hg : (d.items x).rows.length ≤ l.rows.length)
    (hstep : d.Step Retry.policy (fun y => Telegraph.history (.delivery y) events)
      ((d.put x l).hand i slot))
    (hquiet : (fun y => Telegraph.history (.transcription y) events) = fun _ => [])
    (hs : pc.Stands ((d.put x l).hand i slot) slot) :
    Matches b d (({ c with store := s' } : Service ι).onDeliverer i pc, events) := by
  refine ⟨b, (d.put x l).hand i slot, ?_, hstep, ?_⟩
  · rw [hquiet]
    exact .still
  · rw [h.deliveries] at hl
    refine h.deliverer hk slot hl (fun y => ?_) hs
    by_cases hy : y = x
    · subst y
      rw [update_self]
      exact hg
    · rw [update_of_ne hy]

end Slots

/-- What the claim of a Delivery attempt commits, or how it is lost. -/
theorem delivery_started_transacts {s : Store} {a : String} {cand : DeliveryCandidate} {t : Int} :
    Transacts (do
        match ← startDeliveryAttempt a cand.delivery.id t with
        | some _ => pure (Delivering.Pc.started cand a,
            [Event.started (.delivery cand.delivery.id) a t])
        | none => pure (.ready (some .idle), []) : Query (Delivering.Pc × List Event)) s
      (fun r s' =>
        (r = (.ready (some .idle), []) ∧ s' = s ∧
          s.deliveryAttempts.inFlight cand.delivery.id = true) ∨
        (r = (.started cand a, [.started (.delivery cand.delivery.id) a t]) ∧
          s.deliveryAttempts.inFlight cand.delivery.id = false ∧
          (∀ y, ∀ b ∈ s.deliveryAttempts.attemptsOf y, b.id ≠ a) ∧
          s'.view = s.view.withDeliveryAttempt (AttemptTable.started a cand.delivery.id
            (nextNumber s.deliveryAttempts cand.delivery.id) t)))
      (fun e => e = .database .unique ∨ s.delivery cand.delivery.id = none) := by
  apply startDeliveryAttempt_transacts.andThen
  rintro o s' (⟨rfl, rfl, hf⟩ | ⟨q, rfl, _, hf, hfresh, hv⟩)
  · exact ⟨rfl, Or.inl ⟨rfl, rfl, hf⟩⟩
  · exact ⟨rfl, Or.inr ⟨rfl, hf, hfresh, hv⟩⟩

/-- The commit of a Delivery attempt. -/
theorem Refines.deliverer_starts (h : c.Refines b d) (hd : d.Inv Retry.policy history)
    (hrun : c.running = true) {t : Int} {cand : DeliveryCandidate} {id : String}
    {seen : List (String × Ledger Int)} (hsl : d.slots i = .looking t seen)
    (hdue : Delivering.isDue t cand = true) (hp : d.Presents seen cand)
    (hu : c.store.deliveryAttempts.inFlight cand.delivery.id = true ∨
      c.store.deliveryAttempts.lastNumber cand.delivery.id = cand.lastAttemptNumber) :
    Matches b d (c.settle (onDeliverer · i) ((transact (do
        match ← startDeliveryAttempt id cand.delivery.id t with
        | some _ => pure (Delivering.Pc.started cand id,
            [Event.started (.delivery cand.delivery.id) id t])
        | none => pure (.ready (some .idle), []) : Query (Delivering.Pc × List Event))).run
          c.store)) := by
  obtain ⟨l, hm, hshow, hfits⟩ := hp
  have hitems : d.items cand.delivery.id = c.store.view.deliveryLedger cand.delivery.id := by
    rw [h.deliveries]
  have hrows : (d.items cand.delivery.id).rows =
      c.store.deliveryAttempts.attemptsOf cand.delivery.id := by
    rw [hitems]
    rfl
  have hsound := hd.sound cand.delivery.id
  refine h.settles delivery_started_transacts fun next events s' hok => ?_
  rcases hok with ⟨hr, rfl, hf⟩ | ⟨hr, hf, _, hv⟩
  · cases hr
    exact h.deliverer_handed .free hd.keeps (.release i t seen hsl) (.ready _) trivial
  · cases hr
    have hlen : (d.items cand.delivery.id).rows.length = l.rows.length := by
      rcases hu with hu | hu
      · rw [hu] at hf
        cases hf
      · have hthen := hshow.number
        change cand.lastAttemptNumber = _ at hthen
        rw [← hu, hsound.lastNumber hrows] at hthen
        exact Ledger.number_eq_iff.mp hthen
    have hoff : (d.slots i).Offers t cand.delivery.id l := by
      rw [hsl]
      exact .seen hm
    have hk := hd.keeps i
    rw [hsl] at hk
    have hl : d.items cand.delivery.id = l := (hk.2 _ l hm).2.2.2 hlen
    obtain ⟨o, ho, hdl⟩ := hfits hlen
    rw [← hl] at ho
    have hleads := Store.leads_startDelivery (s := c.store) (a := id) (t := t)
      (hsound.nextNumber hrows)
    rw [← hv, ← hitems] at hleads
    refine h.deliverer_changed (.busy cand.delivery.id id o) hd.keeps hleads ?_ ?_
      (history_other .delivery .transcription (m := .started t) (by simp) fun i => rfl)
      (.started cand id o hdl)
    · exact Nat.le_of_lt (by simp [Ledger.start])
    · rw [history_only .delivery delivery_injective (m := .started t) fun i => rfl]
      exact .start i t cand.delivery.id id l o (h.delivery_running.trans hrun) hoff
        (cand.due hshow hdue) hlen (Ledger.anchor_start ho)

/-- The end of a Delivery attempt, however it ends. -/
theorem Refines.deliverer_finishes (h : c.Refines b d) (hk : ∀ j, d.Keeps (d.slots j)) {s' : Store}
    {x a : String} {o t : Int} {how : Finish} {before : List DeliveryAttempt}
    {row : DeliveryAttempt} {pc : Delivering.Pc} (code : Option Int) (message : Option String)
    (hsl : d.slots i = .ended x a o t) (hr : (d.items x).rows = before ++ [row])
    (hlimit : how = .retryable → t < o + Retry.policy.limit)
    (hl : c.store.view.Leads s'.view c.store.view.transcriptionLedger
      (update c.store.view.deliveryLedger x ⟨before ++ [row.ended t how code message],
        Phase.after how, (c.store.view.deliveryLedger x).since,
        (c.store.view.deliveryLedger x).window⟩))
    (hs : ∀ d' : Board ι Int, pc.Stands d' .free) :
    Matches b d (({ c with store := s' } : Service ι).onDeliverer i pc,
      [.finished (.delivery x) a t how]) := by
  refine h.deliverer_changed .free hk hl (Nat.le_of_eq (by simp [hr])) ?_
    (history_other .delivery .transcription (m := .finished t how) (by simp) fun i => rfl) (hs _)
  rw [history_only .delivery delivery_injective (m := .finished t how) fun i => rfl, h.deliveries]
  exact .finish i x a o t how before row code message hsl hr hlimit

/-- The transaction that records a Sink's answer. -/
theorem Refines.deliverer_records (h : c.Refines b d) (hd : d.Inv Retry.policy history)
    {cand : DeliveryCandidate} {a : String} {o t : Int} {result : Except WorkerFailure Unit}
    (hsl : d.slots i = .ended cand.delivery.id a o t)
    (hdl : cand.delivery.retryDeadlineAt = some (o + Retry.deliveryWindow)) :
    Matches b d (c.settle (onDeliverer · i)
      ((transact (Delivering.record cand a t result)).run c.store)) := by
  have hk := hd.keeps i
  rw [hsl] at hk
  obtain ⟨⟨before', row, hr', rfl, hf, _⟩, _⟩ := hk
  obtain ⟨before, hr, hold⟩ := Ledger.open_last (hd.wellFormed cand.delivery.id) (by simp [hr']) hf
  have hactive := Ledger.open_active (hd.wellFormed cand.delivery.id) fun hc =>
    hc row (by simp [hr]) hf
  have hrows : c.store.deliveryAttempts.attemptsOf cand.delivery.id = before ++ [row] := by
    rw [← hr, ← h.deliveries]
    rfl
  rw [← h.deliveries] at hactive
  have fails : ∀ message, Matches b d (c.settle (onDeliverer · i) ((transact (do
      failDeliveryTx row.id cand.delivery.id t none message
      pure (Delivering.Pc.confirming cand.delivery.id,
        [Event.finished (.delivery cand.delivery.id) row.id t .terminal]) :
          Query (Delivering.Pc × List Event))).run c.store)) := by
    intro message
    refine h.settles (failDeliveryTx_transacts.returning fun _ => _) fun next events s' hok => ?_
    obtain ⟨_, hnext, e, q, hc⟩ := hok
    cases hnext
    exact h.deliverer_finishes hd.keeps none (some message) hsl hr (fun hn => by cases hn)
      (Store.leads_completes (by simp) rfl rfl hrows hf hold hc)
      fun _ => .confirming cand.delivery.id
  match result with
  | .ok () =>
    refine h.settles (succeedDeliveryTx_transacts.returning fun _ => _) fun next events s' hok => ?_
    obtain ⟨_, hnext, e, q, hc⟩ := hok
    cases hnext
    exact h.deliverer_finishes hd.keeps none none hsl hr (fun hn => by cases hn)
      (Store.leads_completes (by simp) rfl rfl hrows hf hold hc)
      fun _ => .confirming cand.delivery.id
  | .error (.terminal code message) => exact fails message
  | .error (.retryable code message) =>
    unfold Delivering.record
    dsimp only
    split
    · exact fails message
    · rename_i hlate
      refine h.settles (retryDelivery_transacts.returning fun _ => _) fun next events s' hok => ?_
      obtain ⟨_, hnext, e, g, hg, he, hv⟩ := hok
      cases hnext
      refine h.deliverer_finishes hd.keeps none (some message) hsl hr (fun _ => ?_) ?_
        fun _ => .ready _
      · rw [hdl] at hlate
        change t < o + Retry.deliveryWindow
        simpa using hlate
      · rw [hv]
        exact Store.leads_retryDelivery hg he hactive hrows hf hold

omit [DecidableEq ι] in
/-- The Delivery a candidate row was read for has the deadline of the ledger seen. -/
theorem Refines.fits (h : c.Refines b d) {t : Int} {seen : List (String × Ledger Int)}
    {l : Ledger Int} {x : String} {e : DeliveryRow} (hk : d.Keeps (.looking t seen))
    (he : c.store.delivery x = some e) (hm : (x, l) ∈ seen) : d.Fits l e.toDelivery := by
  have hid : e.id = x := c.store.view_coherent.delivery_id he
  intro hn
  change (d.items e.id).rows.length = _ at hn
  rw [hid] at hn
  have hitem : d.items x = l := (hk.2 x l hm).2.2.2 hn
  refine ⟨e.retryWindowStartedAt.getD e.selectedAt, ?_, h.deadlines x e he⟩
  rw [← hitem, ← h.deliveries]
  unfold View.deliveryLedger Ledger.track Track.anchor
  rw [View.deliveryStage_of_delivery (v := c.store.view) he]
  cases e.retryWindowStartedAt <;> rfl

/-- Every step of a Delivery tick is a step on the boards. -/
theorem Refines.delivers (h : c.Refines b d) (hd : d.Inv Retry.policy history)
    (hrun : c.running = true) (hy : Timestamp.InYears c.clock) (id : String)
    (reply : Except WorkerFailure Unit) (hu : c.Undisturbed (.deliver i id reply)) :
    Matches b d (c.settle (onDeliverer · i)
      ((Delivering.action ⟨c.clock, id, reply⟩ (c.deliverers i)).run c.store)) := by
  have hst := h.deliverers i
  have hk := hd.keeps i
  have hdrun := h.delivery_running.trans hrun
  simp only [Undisturbed] at hu
  generalize c.deliverers i = pc at hst hu ⊢
  generalize hsl : d.slots i = slot at hst hk
  cases hst with
  | ready last =>
    refine h.deliverer_handed (.looking d.clock []) hd.keeps ?_ ?_ ?_
    · exact .wake i hdrun hsl (by rw [h.delivery_clock]; exact hy)
    · rw [h.delivery_clock]
      exact .began c.clock
    · exact ⟨⟨le_refl _, by rw [h.delivery_clock]; exact hy⟩, fun x l hm => by cases hm⟩
  | began t =>
    refine h.settles ((@query_transacts _ _ _ _ _ fun _ => True).returning _)
      fun next events s' hok => ?_
    obtain ⟨rows, hnext, rfl, rfl⟩ := hok
    cases hnext
    have hs : ∀ x, (c.store.view.deliveryLedger x).Sound := by
      intro x
      rw [h.deliveries]
      exact hd.sound x
    have hseen : ∀ x l, (x, l) ∈ c.store.deliveryCandidateRows.map (fun row =>
        (row.deliveryId, c.store.view.deliveryLedger row.deliveryId)) →
          d.items x = l ∧ l.phase = .active ∧ l.Closed := by
      intro x l hm
      obtain ⟨row, hrow, he⟩ := List.mem_map.mp hm
      cases he
      obtain ⟨hp, hc, _⟩ := Store.mem_deliveryCandidateRows hs hrow
      exact ⟨by rw [h.deliveries], hp, hc⟩
    refine h.deliverer_handed (.looking t (c.store.deliveryCandidateRows.map fun row =>
      (row.deliveryId, c.store.view.deliveryLedger row.deliveryId))) hd.keeps
      (.look i t _ hdrun hsl hseen) ?_ ?_
    · refine .loading t _ [] _ (fun row hrow => ?_) fun _ hm => by cases hm
      exact ⟨_, List.mem_map_of_mem hrow, (Store.mem_deliveryCandidateRows hs hrow).2.2⟩
    · refine ⟨hk.1, fun x l hm => ?_⟩
      obtain ⟨rfl, hp, hc⟩ := hseen x l hm
      exact ⟨hp, hc, Nat.le_refl _, fun _ => rfl⟩
  | loading t rows candidates seen hrows hcands =>
    cases rows with
    | nil =>
      unfold Delivering.action Delivering.pickDueDelivery
      dsimp only
      cases hp : candidates.find? (Delivering.isDue t) with
      | none => exact h.deliverer_handed .free hd.keeps (.release i t seen hsl) (.ready _) trivial
      | some cand =>
        refine h.deliverer_quiet hd.keeps ?_
        rw [hsl]
        exact .claimed t cand seen (List.find?_some hp) (hcands cand (List.mem_of_find?_eq_some hp))
    | cons row rows =>
      refine h.settles (requireDelivery_transacts.returning _) fun next events s' hok => ?_
      obtain ⟨_, hnext, rfl, e, he, rfl⟩ := hok
      cases hnext
      obtain ⟨l, hm, hshow⟩ := hrows row (by simp)
      refine h.deliverer_quiet hd.keeps ?_
      rw [hsl]
      refine .loadingRecording t row rows candidates e.toDelivery seen
        (fun row' hm => hrows row' (List.mem_cons_of_mem _ hm)) hcands ⟨l, ?_, hshow, h.fits hk he hm⟩
      rw [c.store.view_coherent.delivery_id he]
      exact hm
  | loadingRecording t row rows candidates delivery seen hrows hcands hdel =>
    refine h.settles (requireRecording_transacts.returning _) fun next events s' hok => ?_
    obtain ⟨_, hnext, rfl, e, he, rfl⟩ := hok
    cases hnext
    refine h.deliverer_quiet hd.keeps ?_
    rw [hsl]
    exact .loadingTranscript t row rows candidates delivery e.toRecording seen hrows hcands hdel
  | loadingTranscript t row rows candidates delivery recording seen hrows hcands hdel =>
    refine h.settles (requireTranscript_transacts.returning _) fun next events s' hok => ?_
    obtain ⟨_, hnext, rfl, _⟩ := hok
    cases hnext
    refine h.deliverer_quiet hd.keeps ?_
    rw [hsl]
    refine .loading t rows _ seen hrows fun cand hm => ?_
    rcases List.mem_append.mp hm with hm | hm
    · exact hcands cand hm
    · rw [List.mem_singleton.mp hm]
      obtain ⟨l, hl, hshow, hfits⟩ := hdel
      exact ⟨l, hl, hshow, hfits⟩
  | claimed t cand seen hdue hp => exact h.deliverer_starts hd hrun hsl hdue hp hu
  | started cand a o hdl =>
    refine (h.deliverer_quiet hd.keeps ?_).silent fun _ => rfl
    rw [hsl]
    exact .calling cand a o hdl
  | calling cand a o hdl =>
    obtain ⟨⟨before, row, hr, hid, hf⟩, ho⟩ := hk
    refine (h.deliverer_handed (.ended cand.delivery.id a o d.clock) hd.keeps
      (.answer i cand.delivery.id a o hdrun hsl) ?_ ?_).silent fun _ => rfl
    · rw [h.delivery_clock]
      exact .answered cand a o c.clock reply hdl
    · exact ⟨⟨before, row, hr, hid, hf, (hd.started cand.delivery.id row (by simp [hr])).1⟩, ho,
        le_refl _, hd.anchor_le ho, hd.window _⟩
  | answered cand a o t result hdl => exact h.deliverer_records hd hsl hdl
  | confirming x =>
    refine h.settles (requireDelivery_transacts.returning _) fun next events s' hok => ?_
    obtain ⟨_, hnext, rfl, _⟩ := hok
    cases hnext
    refine h.deliverer_quiet hd.keeps ?_
    rw [hsl]
    exact .ready _

end Service
end Telegraph
