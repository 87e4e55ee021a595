import Telegraph.Proofs.CleanShutdown
import Telegraph.Proofs.CountedSteps

namespace Telegraph
open Lib Program Lib.Retry SqliteStore

/-- The Transcription loop has nothing to do. -/
def Store.Transcribed (s : Store) : Prop :=
  ∀ r ∈ s.recordings.rows, r.status ≠ .received ∧ r.status ≠ .transcribing

def Store.Routed (s : Store) : Prop := ∀ r ∈ s.recordings.rows, r.status ≠ .routing

def Store.Delivered (s : Store) : Prop := ∀ r ∈ s.recordings.rows, r.status ≠ .delivering

namespace Store
variable {s : Store} {x : String}

theorem transcriptionRetryRows_ne_nil (h : s.ListsTranscription x) : s.transcriptionRetryRows ≠ [] := by
  obtain ⟨candidates, hrun, k, hk, -⟩ := h
  intro hn
  simp [transcriptionRetryCandidates, Program.run, exec_bind, hn, collect] at hrun
  subst hrun
  cases hk

theorem deliveryCandidateRows_ne_nil (h : s.ListsDelivery x) : s.deliveryCandidateRows ≠ [] := by
  obtain ⟨candidates, hrun, k, hk, -⟩ := h
  intro hn
  simp [deliveryCandidates, Program.run, exec_bind, hn, collect] at hrun
  subst hrun
  cases hk

end Store

section Scans
variable {s : Store} {t₀ : Int} {events : List Event}

/-- What a transaction leaves where it goes through. -/
theorem transacted_ok {κ : Type} {tx : Query (κ × List Event)} {s' : Store} {v : κ × List Event}
    {P : κ × List Event → Store → Prop} {bad : StorageError → Prop} (hr : (transact tx).run s = (s', .ok v))
    (h : tx.Transacts s P bad) : P v s' :=
  h.run_ok (transact_ok hr)

/-- Where a tick stands that began at `t₀` or later and has changed nothing in `s`: what it
has found so far. -/
def Transcription.Pc.Scans (s : Store) (t₀ : Int) : Pc → Prop
  | .ready _ => s.Transcribed
  | .began t => t₀ ≤ t
  | .unclaimed t => t₀ ≤ t ∧ ∀ x r, s.recording x = some r → r.status ≠ .received
  | .loading t rows candidates => t₀ ≤ t ∧ (∀ x r, s.recording x = some r → r.status ≠ .received) ∧
      (∀ row ∈ rows, row ∈ s.transcriptionRetryRows) ∧
      (∀ k ∈ candidates, isDue t k = true ∧ s.transcriptionAttempts.inFlight k.recording.id = false) ∧
      (s.transcriptionRetryRows ≠ [] → rows ≠ [] ∨ candidates ≠ [])
  | .claimed _ recording _ => s.transcriptionAttempts.inFlight recording.id = false
  | _ => False

/-- What the retry query lists is in nobody's hands and due at `t₀`. -/
structure Store.TranscriptionRipe (s : Store) (t₀ : Int) : Prop where
  due : ∀ row ∈ s.transcriptionRetryRows, ∀ recording t, t₀ ≤ t →
    Transcription.isDue t (transcriptionCandidate row recording) = true
  free : ∀ row ∈ s.transcriptionRetryRows, s.transcriptionAttempts.inFlight row.recordingId = false

theorem Transcription.action_scans {supply : Supply (Except WorkerFailure TranscriptionOutput)}
    {pc next : Pc} (h : pc.Scans s t₀) (hr : (action supply pc).run s = (s, .ok (next, events)))
    (hidle : ∀ e ∈ events, e.isMove = false) (ht : t₀ ≤ supply.now) (hripe : s.TranscriptionRipe t₀)
    (hlist : pc.claim = none → ∀ r ∈ s.recordings.rows, r.status = .transcribing →
      s.ListsTranscription r.id) :
    next.Scans s t₀ := by
  cases pc with
  | ready last =>
    cases hr
    exact ht
  | began t =>
    have hc : (next = .unclaimed t ∧ ∀ x r, s.recording x = some r → r.status ≠ .received) ∨
        ∃ x r, s.recording x = some r ∧ r.status = .received ∧
          s.view = s.view.withRecording (r.moved .transcribing t) := by
      refine transacted_ok (P := fun v s' =>
        (v.1 = .unclaimed t ∧ ∀ x r, s.recording x = some r → r.status ≠ .received) ∨
          ∃ x r, s.recording x = some r ∧ r.status = .received ∧
            s'.view = s.view.withRecording (r.moved .transcribing t)) hr
        (claimReceivedTx_transacts.andThen ?_)
      rintro o s' (⟨rfl, rfl, hnone⟩ | ⟨x, r, rfl, hx, hst, hv⟩)
      · exact ⟨rfl, .inl ⟨rfl, hnone⟩⟩
      · exact ⟨rfl, .inr ⟨x, r, hx, hst, hv⟩⟩
    rcases hc with ⟨rfl, hnone⟩ | ⟨x, r, hx, hst, hv⟩
    · exact ⟨h, hnone⟩
    · have hs := Caller.status_of_update (q := r.moved .transcribing t) (congrArg View.recording hv) x
      rw [if_pos (show x = (r.moved .transcribing t).id from (Store.recording_id hx).symm),
        Store.statusOf_eq hx, hst] at hs
      cases hs
  | unclaimed t =>
    obtain ⟨rows, he, -, rfl⟩ := ((@query_transacts _ _ _ _ _ fun _ => True).returning fun rows =>
      (Pc.loading t rows [], [])).run_ok (transact_ok hr)
    cases he
    exact ⟨h.1, h.2, fun row hm => hm, by simp, .inl⟩
  | loading t rows candidates =>
    obtain ⟨hle, hnone, hrows, hcands, hall⟩ := h
    cases rows with
    | nil =>
      unfold action pickDueRetry at hr
      dsimp only at hr
      cases hp : candidates.find? (isDue t) with
      | none =>
        rw [hp] at hr
        cases hr
        have hempty : candidates = [] := by
          refine List.eq_nil_iff_forall_not_mem.mpr fun k hk => ?_
          exact List.find?_eq_none.mp hp k hk (hcands k hk).1
        intro r hm
        refine ⟨hnone r.id r (Store.recording_of_mem hm), fun hst => ?_⟩
        have hne := Store.transcriptionRetryRows_ne_nil (hlist rfl r hm hst)
        rcases hall hne with hn | hn
        · exact hn rfl
        · exact hn hempty
      | some k =>
        rw [hp] at hr
        cases hr
        exact (hcands k (List.mem_of_find?_eq_some hp)).2
    | cons row rows =>
      have hrow := hrows row (by simp)
      have hc := (requireRecording_known (Store.hasRecording_retryRow hrow)).returning fun r =>
        (Pc.loading t rows (candidates ++ [transcriptionCandidate row r]), ([] : List Event))
      obtain ⟨r, he, -, q, hq, rfl⟩ := hc.run_ok (transact_ok hr)
      cases he
      refine ⟨hle, hnone, fun row' hm => hrows row' (List.mem_cons_of_mem _ hm), fun k hk => ?_,
        fun _ => .inr (by simp)⟩
      rcases List.mem_append.mp hk with hk | hk
      · exact hcands k hk
      · rw [List.mem_singleton.mp hk]
        refine ⟨hripe.due row hrow _ t hle, ?_⟩
        have hid : q.id = row.recordingId := Store.recording_id hq
        change s.transcriptionAttempts.inFlight q.id = false
        rw [hid]
        exact hripe.free row hrow
  | claimed t recording seen =>
    rcases Service.started_transacts.run_ok (transact_ok hr) with ⟨-, -, hf⟩ | ⟨q, n, first, he, -⟩
    · rw [show s.transcriptionAttempts.inFlight recording.id = false from h] at hf
      cases hf
    · cases he
      exact absurd (hidle _ (List.mem_singleton.mpr rfl)) (by simp [Event.isMove])
  | _ => exact h.elim

def Routing.Pc.Scans (s : Store) : Pc → Prop
  | .ready _ => s.Routed
  | .began _ => True
  | .confirming _ id | .backlogging _ id | .selecting _ id _ => s.statusOf id = some .routing
  | .deciding _ recording => s.statusOf recording.id = some .routing
  | _ => False

theorem Routing.action_scans {route : Recording → RoutingDecision} {supply : Supply Unit} {pc next : Pc}
    (h : pc.Scans s) (hr : (action route supply pc).run s = (s, .ok (next, events))) : next.Scans s := by
  cases pc with
  | ready last =>
    cases hr
    trivial
  | began t =>
    cases ho : s.oldestWithStatus .routing with
    | none =>
      simp [action, transact, Action.run, Program.run, exec_bind, ho] at hr
      obtain ⟨rfl, -⟩ := hr
      exact fun r hm hst => Store.oldestWithStatus_none ho r.id r (Store.recording_of_mem hm) hst
    | some x =>
      simp [action, transact, Action.run, Program.run, exec_bind, ho] at hr
      obtain ⟨rfl, -⟩ := hr
      obtain ⟨r, hx, hst⟩ := Store.oldestWithStatus_some ho
      have hs := Store.statusOf_eq hx
      rw [hst] at hs
      exact hs
  | confirming t x =>
    obtain ⟨r, hx, hst⟩ := Option.map_eq_some_iff.mp h
    have hc := (requireRecording_known ⟨r, hx⟩).returning fun r => (Pc.deciding t r, ([] : List Event))
    obtain ⟨q, he, -, r', hx', rfl⟩ := hc.run_ok (transact_ok hr)
    cases he
    have hid : r'.id = x := Store.recording_id hx'
    change s.statusOf r'.id = _
    rw [hid]
    exact h
  | deciding t recording =>
    unfold action at hr
    dsimp only at hr
    cases hd : route recording <;> rw [hd] at hr <;> cases hr <;> exact h
  | backlogging t x =>
    obtain ⟨q, hq, hqst⟩ := Option.map_eq_some_iff.mp h
    rcases @Routing.backlogging_run s route supply t x with
      ⟨r, s₁, hx, hst, hv, hrun⟩ | ⟨r, hx, hne, -⟩ | ⟨hn, -⟩
    · cases hrun.symm.trans hr
      have hs := Caller.status_of_update (q := r.moved .backlogged t) (congrArg View.recording hv) x
      rw [if_pos (show x = (r.moved .backlogged t).id from (Store.recording_id hx).symm), h] at hs
      cases hs
    · cases hq.symm.trans hx
      exact absurd hqst hne
    · cases hq.symm.trans hn
  | selecting t x sink =>
    obtain ⟨q, hq, hqst⟩ := Option.map_eq_some_iff.mp h
    have hc : (do
        if ← routeToSinkTx (newDelivery supply.id x sink t) then
          pure (Pc.confirmingDelivery supply.id, [])
        else
          pure (Pc.ready (some .worked), []) : Query (Pc × List Event)).Transacts s
        (fun _ s' => (∀ r, s.recording x = some r → r.status ≠ .routing) ∨
          s'.statusOf x = some .delivering) fun _ => True := by
      refine (routeToSinkTx_transacts.weaken (fun _ _ h => h) fun _ _ => trivial).andThen ?_
      rintro claimed s' (⟨rfl, -, hne⟩ | ⟨rfl, r, -, hsel⟩)
      · exact ⟨rfl, .inl hne⟩
      · refine ⟨rfl, .inr ?_⟩
        have hs := Caller.status_of_update (Caller.recording_of_selects hsel) x
        have hid : ((r.withSink (newDelivery supply.id x sink t).sinkName).moved .delivering
            (newDelivery supply.id x sink t).selectedAt).id = x := by
          have hr := Store.recording_id hsel.1
          exact hr
        rwa [if_pos hid.symm] at hs
    rcases hc.run_ok (transact_ok hr) with hne | hs
    · exact absurd hqst (hne q hq)
    · cases h.symm.trans hs
  | _ => exact h.elim

def Delivering.Pc.Scans (s : Store) (t₀ : Int) : Pc → Prop
  | .ready _ => s.Delivered
  | .began t => t₀ ≤ t
  | .loading t rows candidates => t₀ ≤ t ∧ (∀ row ∈ rows, row ∈ s.deliveryCandidateRows) ∧
      (∀ k ∈ candidates, isDue t k = true ∧ s.deliveryAttempts.inFlight k.delivery.id = false) ∧
      (s.deliveryCandidateRows ≠ [] → rows ≠ [] ∨ candidates ≠ [])
  | .loadingRecording t row rows candidates delivery
  | .loadingTranscript t row rows candidates delivery _ => t₀ ≤ t ∧
      (∀ row ∈ rows, row ∈ s.deliveryCandidateRows) ∧
      (∀ k ∈ candidates, isDue t k = true ∧ s.deliveryAttempts.inFlight k.delivery.id = false) ∧
      row ∈ s.deliveryCandidateRows ∧
      ∃ e, s.delivery row.deliveryId = some e ∧ delivery = e.toDelivery
  | .claimed _ candidate => s.deliveryAttempts.inFlight candidate.delivery.id = false
  | _ => False

structure Store.DeliveryRipe (s : Store) (t₀ : Int) : Prop where
  due : ∀ row ∈ s.deliveryCandidateRows, ∀ e, s.delivery row.deliveryId = some e →
    ∀ recording transcript t, t₀ ≤ t →
      Delivering.isDue t (deliveryCandidate row e.toDelivery recording transcript) = true
  free : ∀ row ∈ s.deliveryCandidateRows, s.deliveryAttempts.inFlight row.deliveryId = false

theorem Delivering.action_scans {supply : Supply (Except WorkerFailure Unit)} {pc next : Pc}
    (h : pc.Scans s t₀) (hr : (action supply pc).run s = (s, .ok (next, events)))
    (hidle : ∀ e ∈ events, e.isMove = false) (ht : t₀ ≤ supply.now) (hripe : s.DeliveryRipe t₀)
    (hk : pc.Known s)
    (hlist : pc.claim = none → ∀ r ∈ s.recordings.rows, r.status = .delivering →
      s.ListsDelivery r.id) :
    next.Scans s t₀ := by
  cases pc with
  | ready last =>
    cases hr
    exact ht
  | began t =>
    obtain ⟨rows, he, -, rfl⟩ := ((@query_transacts _ _ _ _ _ fun _ => True).returning fun rows =>
      (Pc.loading t rows [], [])).run_ok (transact_ok hr)
    cases he
    exact ⟨h, fun row hm => hm, by simp, .inl⟩
  | loading t rows candidates =>
    obtain ⟨hle, hrows, hcands, hall⟩ := h
    cases rows with
    | nil =>
      unfold action pickDueDelivery at hr
      dsimp only at hr
      cases hp : candidates.find? (isDue t) with
      | none =>
        rw [hp] at hr
        cases hr
        have hempty : candidates = [] := by
          refine List.eq_nil_iff_forall_not_mem.mpr fun k hk => ?_
          exact List.find?_eq_none.mp hp k hk (hcands k hk).1
        intro r hm hst
        have hne := Store.deliveryCandidateRows_ne_nil (hlist rfl r hm hst)
        rcases hall hne with hn | hn
        · exact hn rfl
        · exact hn hempty
      | some k =>
        rw [hp] at hr
        cases hr
        exact (hcands k (List.mem_of_find?_eq_some hp)).2
    | cons row rows =>
      have hrow := hrows row (by simp)
      have hc := (requireDelivery_known (hk.1 row (by simp))).returning fun d =>
        (Pc.loadingRecording t row rows candidates d, ([] : List Event))
      obtain ⟨d, he, -, e, hd, rfl⟩ := hc.run_ok (transact_ok hr)
      cases he
      exact ⟨hle, fun row' hm => hrows row' (List.mem_cons_of_mem _ hm), hcands, hrow, e, hd, rfl⟩
  | loadingRecording t row rows candidates delivery =>
    have hc := (requireRecording_known hk.2.2.2.1).returning fun r =>
      (Pc.loadingTranscript t row rows candidates delivery r, ([] : List Event))
    obtain ⟨r, he, -⟩ := hc.run_ok (transact_ok hr)
    cases he
    exact h
  | loadingTranscript t row rows candidates delivery recording =>
    obtain ⟨hle, hrows, hcands, hrow, e, hd, rfl⟩ := h
    have hc := (requireTranscript_known hk.2.2.2).returning fun tr =>
      (Pc.loading t rows (candidates ++ [deliveryCandidate row e.toDelivery recording tr]),
        ([] : List Event))
    obtain ⟨tr, he, -⟩ := hc.run_ok (transact_ok hr)
    cases he
    refine ⟨hle, hrows, fun k hk => ?_, fun _ => .inr (by simp)⟩
    rcases List.mem_append.mp hk with hk | hk
    · exact hcands k hk
    · rw [List.mem_singleton.mp hk]
      refine ⟨hripe.due row hrow e hd _ _ t hle, ?_⟩
      have hid : e.id = row.deliveryId := beq_iff_eq.mp (Table.find_mem hd).2
      change s.deliveryAttempts.inFlight e.id = false
      rw [hid]
      exact hripe.free row hrow
  | claimed t candidate =>
    rcases Service.delivery_started_transacts.run_ok (transact_ok hr) with ⟨-, -, hf⟩ | ⟨he, -⟩
    · rw [show s.deliveryAttempts.inFlight candidate.delivery.id = false from h] at hf
      cases hf
    · cases he
      exact absurd (hidle _ (List.mem_singleton.mpr rfl)) (by simp [Event.isMove])
  | _ => exact h.elim

end Scans

end Telegraph
