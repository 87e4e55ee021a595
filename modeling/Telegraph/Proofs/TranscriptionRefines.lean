import Telegraph.Proofs.Refines

namespace Telegraph
open Lib Program Lib.Retry SqliteStore Function

namespace Service
variable {ι : Type} [DecidableEq ι] {c : Service ι} {b : Board ι String} {d : Board ι Int}
variable {i : ι} {history : String → List Move}

section Slots
variable {pc : Transcription.Pc} (slot : Slot String)

/-- A Transcription step that changes nothing but where the tick stands. -/
theorem Refines.transcriber_handed (h : c.Refines b d)
    (hstep : b.Step Retry.policy (fun _ => []) (b.hand i slot)) (hs : pc.Stands slot) :
    Matches b d (c.onTranscriber i pc, []) := by
  refine ⟨b.hand i slot, d, hstep, .still, ?_⟩
  have hl : c.store.view.Leads c.store.view b.items c.store.view.deliveryLedger := by
    rw [← h.transcriptions]
    exact .refl _
  exact h.transcriber slot hl hs

/-- A Transcription step the board does not notice. -/
theorem Refines.transcriber_quiet (h : c.Refines b d) (hs : pc.Stands (b.slots i)) :
    Matches b d (c.onTranscriber i pc, []) := by
  have hsame : b.hand i (b.slots i) = b :=
    congrArg (fun f => ({ b with slots := f } : Board ι String)) (update_eq_self i b.slots)
  refine h.transcriber_handed (b.slots i) ?_ hs
  rw [hsame]
  exact .still

/-- A Transcription step that changes one piece of work. -/
theorem Refines.transcriber_changed (h : c.Refines b d) {s' : Store} {x : String}
    {l : Ledger String} {events : List Event}
    (hl : c.store.view.Leads s'.view (update c.store.view.transcriptionLedger x l)
      c.store.view.deliveryLedger)
    (hstep : b.Step Retry.policy (fun y => Telegraph.history (.transcription y) events)
      ((b.put x l).hand i slot))
    (hquiet : (fun y => Telegraph.history (.delivery y) events) = fun _ => [])
    (hs : pc.Stands slot) :
    Matches b d (({ c with store := s' } : Service ι).onTranscriber i pc, events) := by
  refine ⟨(b.put x l).hand i slot, d, hstep, ?_, ?_⟩
  · rw [hquiet]
    exact .still
  · rw [h.transcriptions] at hl
    exact h.transcriber slot hl hs

end Slots

/-- What the claim of an attempt commits, or how it is lost. -/
theorem started_transacts {s : Store} {a : String} {recording : Recording} {t : Int} :
    Transacts (do
        match ← startTranscriptionAttempt a recording.id t with
        | some start => pure (Transcription.Pc.started recording a start,
            [Event.started (.transcription recording.id) a t])
        | none => pure (.ready (some .idle), []) : Query (Transcription.Pc × List Event)) s
      (fun r s' =>
        (r = (.ready (some .idle), []) ∧ s' = s ∧
          s.transcriptionAttempts.inFlight recording.id = true) ∨
        ∃ q n first, r = (.started recording a ⟨n, first⟩,
            [.started (.transcription recording.id) a t]) ∧
          n = nextNumber s.transcriptionAttempts recording.id ∧
          s.recording recording.id = some q ∧
          s.transcriptionAttempts.inFlight recording.id = false ∧
          (∀ y, ∀ b ∈ s.transcriptionAttempts.attemptsOf y, b.id ≠ a) ∧
          s'.view = s.view.withTranscriptionAttempt (AttemptTable.started a recording.id n t) ∧
          q.retryWindowStartedAt.or
            (Attempt.earliestStart (s'.transcriptionAttempts.attemptsOf recording.id)) = some first)
      (fun e => e = .database .unique ∨ s.recording recording.id = none) := by
  apply startTranscriptionAttempt_transacts.andThen
  rintro o s' (⟨rfl, rfl, hf⟩ | ⟨q, first, rfl, hq, hf, hfresh, hv, ho⟩)
  · exact ⟨rfl, Or.inl ⟨rfl, rfl, hf⟩⟩
  · exact ⟨rfl, Or.inr ⟨q, _, first, rfl, rfl, hq, hf, hfresh, hv, ho⟩⟩

omit [DecidableEq ι] in
/-- The stored minimum is the first attempt's start, so the anchor the claim
returns is the board's. -/
theorem Refines.anchor_started (h : c.Refines b d) (hb : b.Inv Retry.policy history) {x a : String}
    {t first : Int} {q : RecordingRow} (hq : c.store.recording x = some q)
    (hc : (b.items x).Change Retry.policy b.clock [.started t] ((b.items x).start a x t))
    (hr : b.Reading t)
    (ho : q.retryWindowStartedAt.or
      (Attempt.earliestStart ((b.items x).start a x t).rows) = some first) :
    ((b.items x).start a x t).track.anchor = some first := by
  have hitems : b.items x = c.store.view.transcriptionLedger x := by rw [h.transcriptions]
  have hstage := View.transcriptionStage_of_recording (v := c.store.view) hq
  have hwindow : (b.items x).window = q.retryWindowStartedAt := by
    rw [hitems]
    change (c.store.view.transcriptionStage x).2 = _
    rw [hstage]
  have hsince : (b.items x).since = none := by rw [hitems]; rfl
  cases hw : q.retryWindowStartedAt with
  | some w =>
    rw [hw] at ho hwindow
    cases ho
    unfold Track.anchor Ledger.track Ledger.start
    rw [hwindow]
    rfl
  | none =>
    rw [hw] at ho hwindow
    have hruns := Lib.Retry.Runs.step (hb.runs x) hc.track
    have hspaced := hruns.spaced (by decide) Retry.minute_le_backoff hwindow
    have hyears : ∀ r ∈ ((b.items x).start a x t).rows, Timestamp.InYears r.startedAt := by
      intro r hm
      rcases List.mem_append.mp hm with hm | hm
      · exact (hb.started x r hm).2
      · rw [List.mem_singleton.mp hm]
        exact hr.2
    obtain ⟨z, rest, hz⟩ := List.exists_cons_of_ne_nil
      (show ((b.items x).start a x t).rows ≠ [] by simp [Ledger.start])
    change ((((b.items x).start a x t).rows).map Attempt.toTry).Pairwise _ at hspaced
    rw [hz] at hspaced hyears ho
    rw [List.map_cons, List.pairwise_cons] at hspaced
    have hmin := Attempt.earliestStart_cons hyears fun r hm => hspaced.1 r.toTry (List.mem_map_of_mem hm)
    change Attempt.earliestStart (z :: rest) = some first at ho
    rw [hmin] at ho
    cases ho
    unfold Track.anchor Ledger.track
    rw [hz]
    change Option.or (b.items x).window (Option.or (b.items x).since _) = _
    rw [hwindow, hsince]
    rfl

/-- The commit of a Transcription attempt. -/
theorem Refines.transcriber_starts (h : c.Refines b d) (hb : b.Inv Retry.policy history)
    (hrun : c.running = true) {t : Int} {recording : Recording} {id : String} {l : Ledger String}
    (ho : (b.slots i).Offers t recording.id l) (hdue : l.track.Due Retry.policy t)
    (hlost : ¬ (b.items recording.id).Closed →
      b.Step Retry.policy (fun _ => []) (b.hand i .free))
    (hu : c.store.transcriptionAttempts.inFlight recording.id = true ∨
      (c.store.transcriptionAttempts.lastNumber recording.id).getD 0 = l.rows.length) :
    Matches b d (c.settle (onTranscriber · i) ((transact (do
        match ← startTranscriptionAttempt id recording.id t with
        | some start => pure (Transcription.Pc.started recording id start,
            [Event.started (.transcription recording.id) id t])
        | none => pure (.ready (some .idle), []) : Query (Transcription.Pc × List Event))).run
          c.store)) := by
  have hitems : b.items recording.id = c.store.view.transcriptionLedger recording.id := by
    rw [h.transcriptions]
  have hrows : (b.items recording.id).rows =
      c.store.transcriptionAttempts.attemptsOf recording.id := by
    rw [hitems]
    rfl
  have hclosed := Ledger.closed_iff hrows
  have hsound := hb.sound recording.id
  refine h.settles started_transacts fun next events s' hok => ?_
  rcases hok with ⟨hr, rfl, hf⟩ | ⟨q, n, first, hr, hn, hq, hf, _, hv, hfirst⟩
  · cases hr
    refine h.transcriber_handed .free (hlost fun hc => ?_) (.ready _)
    rw [hclosed.mp hc] at hf
    cases hf
  · cases hr
    have hlen : (b.items recording.id).rows.length = l.rows.length := by
      rcases hu with hu | hu
      · rw [hu] at hf
        cases hf
      · have hnum := hsound.nextNumber hrows
        unfold nextNumber at hnum
        rw [hu] at hnum
        rw [hrows]
        exact (Nat.succ.inj hnum).symm
    obtain ⟨hread, hact, hcl, hdue'⟩ := hb.offered ho hlen hdue
    rw [hsound.nextNumber hrows] at hn
    have hl := Store.leads_startTranscription (s := c.store) (a := id) (x := recording.id) (t := t) hn
    rw [← hv] at hl
    have hrows' : ((b.items recording.id).start id recording.id t).rows =
        s'.transcriptionAttempts.attemptsOf recording.id := by
      have hnew : s'.view.transcriptionLedger recording.id =
          (b.items recording.id).start id recording.id t := by
        rw [hl.transcriptions, update_self, hitems]
      rw [← hnew]
      rfl
    rw [← hrows'] at hfirst
    have hanchor := h.anchor_started hb hq
      (.start id recording.id t hact hcl hdue' hread.1 hread.2) hread hfirst
    refine h.transcriber_changed (.busy recording.id id first) hl ?_
      (history_other .transcription .delivery (m := .started t) (by simp) fun i => rfl)
      (.started recording id ⟨n, first⟩)
    rw [history_only .transcription transcription_injective (m := .started t) fun i => rfl, ← hitems]
    exact .start i t recording.id id l first (h.transcription_running.trans hrun) ho hdue hlen hanchor

/-- The end of a Transcription attempt, however it ends. -/
theorem Refines.transcriber_finishes (h : c.Refines b d) {s' : Store} {x a : String} {o t : Int}
    {how : Finish} {before : List TranscriptionAttempt} {row : TranscriptionAttempt}
    {pc : Transcription.Pc} (code message : Option String) (hsl : b.slots i = .ended x a o t)
    (hr : (b.items x).rows = before ++ [row])
    (hlimit : how = .retryable → t < o + Retry.policy.limit)
    (hl : c.store.view.Leads s'.view (update c.store.view.transcriptionLedger x
      ⟨before ++ [row.ended t how code message], Phase.after how,
        (c.store.view.transcriptionLedger x).since, (c.store.view.transcriptionLedger x).window⟩)
      c.store.view.deliveryLedger) (hs : pc.Stands .free) :
    Matches b d (({ c with store := s' } : Service ι).onTranscriber i pc,
      [.finished (.transcription x) a t how]) := by
  refine h.transcriber_changed .free hl ?_
    (history_other .transcription .delivery (m := .finished t how) (by simp) fun i => rfl) hs
  rw [history_only .transcription transcription_injective (m := .finished t how) fun i => rfl, h.transcriptions]
  exact .finish i x a o t how before row code message hsl hr hlimit

/-- The transaction that records an answer. -/
theorem Refines.transcriber_records (h : c.Refines b d) (hb : b.Inv Retry.policy history)
    {recording : Recording} {a : String} {start : TranscriptionAttemptStart} {t : Int}
    {result : Except WorkerFailure TranscriptionOutput}
    (hsl : b.slots i = .ended recording.id a start.firstStartedAt t) :
    Matches b d (c.settle (onTranscriber · i)
      ((transact (Transcription.record recording a start t result)).run c.store)) := by
  have hk := hb.keeps i
  rw [hsl] at hk
  obtain ⟨⟨before', row, hr', rfl, hf, _⟩, _⟩ := hk
  obtain ⟨before, hr, hold⟩ := Ledger.open_last (hb.wellFormed recording.id) (by simp [hr']) hf
  have hactive := Ledger.open_active (hb.wellFormed recording.id) fun hc => hc row (by simp [hr]) hf
  have hrows : c.store.transcriptionAttempts.attemptsOf recording.id = before ++ [row] := by
    rw [← hr, ← h.transcriptions]
    rfl
  rw [← h.transcriptions] at hactive
  have fails : ∀ code message, Matches b d (c.settle (onTranscriber · i) ((transact (do
      failTranscriptionTx row.id recording.id t code message
      pure (Transcription.Pc.confirmingFailure recording.id,
        [Event.finished (.transcription recording.id) row.id t .terminal]) :
          Query (Transcription.Pc × List Event))).run c.store)) := by
    intro code message
    refine h.settles (failTranscriptionTx_transacts.returning fun _ => _) fun next events s' hok => ?_
    obtain ⟨_, hnext, q, g, hg, hq, hst, hv⟩ := hok
    cases hnext
    refine h.transcriber_finishes (some code) (some message) hsl hr (fun hn => by cases hn) ?_
      (.confirmingFailure recording.id)
    rw [hv]
    exact Store.leads_failTranscription hg hq hst hrows hf hold
  match result with
  | .ok output =>
    refine h.settles (succeedTranscriptionTx_transacts.returning fun _ => _)
      fun next events s' hok => ?_
    obtain ⟨_, hnext, q, hq, hst, _, hv⟩ := hok
    cases hnext
    refine h.transcriber_finishes none none hsl hr (fun hn => by cases hn) ?_
      (.confirmingTranscript recording.id)
    rw [hv]
    exact Store.leads_succeedTranscription rfl hq hst hrows hf hold
  | .error (.terminal code message) => exact fails code message
  | .error (.retryable code message) =>
    unfold Transcription.record
    dsimp only
    split
    · exact fails code message
    · rename_i hlate
      refine h.settles (retryTranscription_transacts.returning fun _ => _)
        fun next events s' hok => ?_
      obtain ⟨_, hnext, g, hg, hv⟩ := hok
      cases hnext
      refine h.transcriber_finishes (some code) (some message) hsl hr (fun _ => ?_) ?_
        (.ready (some .worked))
      · refine lt_of_lt_of_le (not_le.mp hlate) ?_
        exact add_le_add_right (Retry.transcriptionWindow_le _) _
      · rw [hv]
        exact Store.leads_retryTranscription hg hactive hrows hf hold

/-- The claim of a Recording nobody has tried. -/
theorem Refines.transcriber_claims (h : c.Refines b d) (hrun : c.running = true) {t : Int}
    (hsl : b.slots i = .looking t []) :
    Matches b d (c.settle (onTranscriber · i) ((transact (do
      match ← claimReceivedTx t with
      | some id => pure (Transcription.Pc.confirming t id, [])
      | none => pure (.unclaimed t, []) : Query (Transcription.Pc × List Event))).run c.store)) := by
  have ht : Transacts (do
      match ← claimReceivedTx t with
      | some id => pure (Transcription.Pc.confirming t id, [])
      | none => pure (.unclaimed t, []) : Query (Transcription.Pc × List Event)) c.store
      (fun r s' => (r = (.unclaimed t, []) ∧ s' = c.store) ∨ ∃ x q, r = (.confirming t x, []) ∧
        c.store.recording x = some q ∧ q.status = .received ∧
        s'.view = c.store.view.withRecording (q.moved .transcribing t)) fun _ => False := by
    apply claimReceivedTx_transacts.andThen
    rintro o s' (⟨rfl, rfl, _⟩ | ⟨x, q, rfl, hq, hst, hv⟩)
    · exact ⟨rfl, Or.inl ⟨rfl, rfl⟩⟩
    · exact ⟨rfl, Or.inr ⟨x, q, rfl, hq, hst, hv⟩⟩
  refine h.settles ht fun next events s' hok => ?_
  rcases hok with ⟨hr, rfl⟩ | ⟨x, q, hr, hq, hst, hv⟩
  · cases hr
    refine h.transcriber_quiet ?_
    rw [hsl]
    exact .unclaimed t
  · cases hr
    have hl := Store.leads_claim (t := t) hq hst
    rw [← hv] at hl
    refine h.transcriber_changed (.claimed t x) hl ?_ rfl (.confirming t x)
    rw [h.transcriptions]
    refine .claim i t x (h.transcription_running.trans hrun) hsl ?_
    rw [← h.transcriptions]
    change (c.store.view.transcriptionStage x).1 = _
    rw [View.transcriptionStage_of_recording hq, hst]
    rfl

/-- Every step of a Transcription tick is a step on the boards. -/
theorem Refines.transcribes (h : c.Refines b d) (hb : b.Inv Retry.policy history)
    (hrun : c.running = true) (hy : Timestamp.InYears c.clock) (id : String)
    (reply : Except WorkerFailure TranscriptionOutput)
    (hu : c.Undisturbed (.transcribe i id reply)) :
    Matches b d (c.settle (onTranscriber · i)
      ((Transcription.action ⟨c.clock, id, reply⟩ (c.transcribers i)).run c.store)) := by
  have hst := h.transcribers i
  have hbrun := h.transcription_running.trans hrun
  simp only [Undisturbed] at hu
  generalize c.transcribers i = pc at hst hu ⊢
  generalize hsl : b.slots i = slot at hst
  cases hst with
  | ready last =>
    refine h.transcriber_handed (.looking b.clock []) ?_ ?_
    · exact .wake i hbrun hsl (by rw [h.transcription_clock]; exact hy)
    · rw [h.transcription_clock]
      exact .began c.clock
  | began t => exact h.transcriber_claims hrun hsl
  | confirming t x =>
    refine h.settles (requireRecording_transacts.returning _) fun next events s' hok => ?_
    obtain ⟨r, hnext, rfl, row, hrow, rfl⟩ := hok
    cases hnext
    refine h.transcriber_quiet ?_
    rw [hsl, ← Store.recording_id hrow]
    exact .first t row.toRecording
  | unclaimed t =>
    refine h.settles ((@query_transacts _ _ _ _ _ fun _ => True).returning _) fun next events s' hok => ?_
    obtain ⟨rows, hnext, rfl, rfl⟩ := hok
    cases hnext
    have hs : ∀ x, (c.store.view.transcriptionLedger x).Sound := by
      intro x
      rw [h.transcriptions]
      exact hb.sound x
    refine h.transcriber_handed (.looking t (c.store.transcriptionRetryRows.map fun row =>
      (row.recordingId, c.store.view.transcriptionLedger row.recordingId))) ?_ ?_
    · refine .look i t _ hbrun hsl fun x l hm => ?_
      obtain ⟨row, hrow, he⟩ := List.mem_map.mp hm
      cases he
      obtain ⟨hp, hc, _⟩ := Store.mem_transcriptionRetryRows hs hrow
      exact ⟨by rw [h.transcriptions], hp, hc⟩
    · refine .loading t _ [] _ (fun row hrow => ?_) fun _ hm => by cases hm
      exact ⟨_, List.mem_map_of_mem hrow, (Store.mem_transcriptionRetryRows hs hrow).2.2⟩
  | loading t rows candidates seen hrows hcands =>
    cases rows with
    | nil =>
      unfold Transcription.action Transcription.pickDueRetry
      dsimp only
      cases hp : candidates.find? (Transcription.isDue t) with
      | none => exact h.transcriber_handed .free (.release i t seen hsl) (.ready _)
      | some cand =>
        obtain ⟨l, hm, hshow⟩ := hcands cand (List.mem_of_find?_eq_some hp)
        have hfound : Transcription.isDue t cand = true := List.find?_some hp
        have hdue := (hshow.due_iff (t := t)).mp hfound
        refine h.transcriber_quiet ?_
        obtain ⟨before, a, hr, hf, hn, hw⟩ := hshow
        rw [hsl, hn]
        exact .retry t cand.recording l seen hm hdue
    | cons row rows =>
      refine h.settles (requireRecording_transacts.returning _) fun next events s' hok => ?_
      obtain ⟨r, hnext, rfl, q, hq, rfl⟩ := hok
      cases hnext
      refine h.transcriber_quiet ?_
      rw [hsl]
      refine .loading t rows _ seen (fun row' hm => hrows row' (List.mem_cons_of_mem _ hm))
        fun cand hm => ?_
      rcases List.mem_append.mp hm with hm | hm
      · exact hcands cand hm
      · rw [List.mem_singleton.mp hm]
        change ∃ l, (q.id, l) ∈ seen ∧ _
        rw [Store.recording_id hq]
        exact hrows row (by simp)
  | first t recording =>
    have ho : (b.slots i).Offers t recording.id ⟨[], .active, none, none⟩ := by
      rw [hsl]
      exact .claimed rfl
    exact h.transcriber_starts hb hrun ho (fun a f e ha => by simp [Ledger.track] at ha)
      (fun hc => .lost i t recording.id hsl hc) hu
  | retry t recording l seen hm hdue =>
    have ho : (b.slots i).Offers t recording.id l := by
      rw [hsl]
      exact .seen hm
    exact h.transcriber_starts hb hrun ho hdue (fun _ => .release i t seen hsl) hu
  | started recording a start =>
    refine (h.transcriber_quiet ?_).silent fun _ => rfl
    rw [hsl]
    exact .calling recording a start
  | calling recording a start =>
    refine (h.transcriber_handed (.ended recording.id a start.firstStartedAt b.clock)
      (.answer i recording.id a start.firstStartedAt hbrun hsl) ?_).silent fun _ => rfl
    rw [h.transcription_clock]
    exact .answered recording a start c.clock reply
  | answered recording a start t result => exact h.transcriber_records hb hsl
  | confirmingTranscript x =>
    refine h.settles (requireTranscript_transacts.returning _) fun next events s' hok => ?_
    obtain ⟨_, hnext, rfl, _⟩ := hok
    cases hnext
    refine h.transcriber_quiet ?_
    rw [hsl]
    exact .ready _
  | confirmingFailure x =>
    refine h.settles (requireRecording_transacts.returning _) fun next events s' hok => ?_
    obtain ⟨_, hnext, rfl, _⟩ := hok
    cases hnext
    refine h.transcriber_quiet ?_
    rw [hsl]
    exact .ready _

end Service
end Telegraph
