import Telegraph.Proofs.Lifecycle
import Telegraph.Refinement

namespace Telegraph
open Lib.Retry Function SqliteStore

/-- What one transaction does to the two ledgers, keeping the rows in step. -/
structure View.Leads (v v' : View) (t : String → Ledger String) (d : String → Ledger Int) : Prop where
  lifecycle : v.Lifecycle → v'.Lifecycle
  deadlines : v.Deadlines → v'.Deadlines
  transcriptions : v'.transcriptionLedger = t
  deliveries : v'.deliveryLedger = d

theorem Annotates.window_eq {g : RecordingRow → RecordingRow} (h : Annotates g) (r : RecordingRow) :
    (g r).retryWindowStartedAt = r.retryWindowStartedAt := by
  obtain ⟨_, _, he⟩ := h r
  rw [he]

namespace View
variable {v v' w : View}

section Transcriptions

theorem transcriptionLedger_congr (hr : v'.transcriptionAttempts = v.transcriptionAttempts)
    (hs : v'.transcriptionStage = v.transcriptionStage) :
    v'.transcriptionLedger = v.transcriptionLedger := by
  unfold transcriptionLedger
  rw [hr, hs]

/-- One ledger changes when one key's attempts and stage do. -/
theorem transcriptionLedger_update {x : String} {l : Ledger String}
    {rows : List TranscriptionAttempt} {stage : Phase × Option Int}
    (hr : v'.transcriptionAttempts = update v.transcriptionAttempts x rows)
    (hs : v'.transcriptionStage = update v.transcriptionStage x stage)
    (hl : l = ⟨rows, stage.1, none, stage.2⟩) :
    v'.transcriptionLedger = update v.transcriptionLedger x l := by
  funext y
  unfold transcriptionLedger
  rw [hr, hs]
  by_cases hy : y = x
  · subst y
    rw [update_self, update_self, update_self, hl]
  · rw [update_of_ne hy, update_of_ne hy, update_of_ne hy]

theorem transcriptionStage_withRecording (v : View) (r : RecordingRow) :
    (v.withRecording r).transcriptionStage =
      update v.transcriptionStage r.id (r.status.transcription, r.retryWindowStartedAt) := by
  funext y
  unfold transcriptionStage
  by_cases hy : y = r.id
  · subst y
    rw [recording_withRecording, update_self]
  · rw [recording_withRecording_ne hy, update_of_ne hy]

theorem transcriptionStage_map {f : RecordingRow → RecordingRow}
    (hs : ∀ r, (f r).status.transcription = r.status.transcription)
    (hw : ∀ r, (f r).retryWindowStartedAt = r.retryWindowStartedAt) :
    (v.mapRecordings f).transcriptionStage = v.transcriptionStage := by
  funext y
  unfold transcriptionStage mapRecordings
  dsimp only
  cases v.recording y with
  | none => rfl
  | some r => exact Prod.ext (hs r) (hw r)

theorem transcriptionStage_annotated {g : RecordingRow → RecordingRow} (hg : Annotates g) :
    (v.mapRecordings g).transcriptionStage = v.transcriptionStage :=
  transcriptionStage_map (fun r => by rw [hg.status_eq]) hg.window_eq

theorem transcriptionStage_of_recording {x : String} {r : RecordingRow} (h : v.recording x = some r) :
    v.transcriptionStage x = (r.status.transcription, r.retryWindowStartedAt) := by
  unfold transcriptionStage
  rw [h]

theorem transcriptionStage_of_none {x : String} (h : v.recording x = none) :
    v.transcriptionStage x = (.waiting, none) := by
  unfold transcriptionStage
  rw [h]

/-- A Recording that changes without any consequence for its Transcription. -/
theorem transcriptionStage_same {q r : RecordingRow} (h : v.recording q.id = some r)
    (hs : q.status.transcription = r.status.transcription)
    (hw : q.retryWindowStartedAt = r.retryWindowStartedAt) :
    (v.withRecording q).transcriptionStage = v.transcriptionStage := by
  rw [transcriptionStage_withRecording, hs, hw, ← transcriptionStage_of_recording h, update_eq_self]

end Transcriptions

section Deliveries

theorem deliveryStage_withDelivery (v : View) (d : DeliveryRow) :
    (v.withDelivery d).deliveryStage =
      update v.deliveryStage d.id (d.status.phase, some d.selectedAt, d.retryWindowStartedAt) := by
  funext y
  unfold deliveryStage
  by_cases hy : y = d.id
  · subst y
    rw [delivery_withDelivery, update_self]
  · rw [delivery_withDelivery_ne hy, update_of_ne hy]

theorem deliveryStage_of_delivery {x : String} {d : DeliveryRow} (h : v.delivery x = some d) :
    v.deliveryStage x = (d.status.phase, some d.selectedAt, d.retryWindowStartedAt) := by
  unfold deliveryStage
  rw [h]

theorem deliveryStage_of_none {x : String} (h : v.delivery x = none) :
    v.deliveryStage x = (.waiting, none, none) := by
  unfold deliveryStage
  rw [h]

theorem deliveryLedger_update {x : String} {l : Ledger Int} {rows : List DeliveryAttempt}
    {stage : Phase × Option Int × Option Int}
    (hr : v'.deliveryAttempts = update v.deliveryAttempts x rows)
    (hs : v'.deliveryStage = update v.deliveryStage x stage)
    (hl : l = ⟨rows, stage.1, stage.2.1, stage.2.2⟩) :
    v'.deliveryLedger = update v.deliveryLedger x l := by
  funext y
  unfold deliveryLedger
  rw [hr, hs]
  by_cases hy : y = x
  · subst y
    rw [update_self, update_self, update_self, hl]
  · rw [update_of_ne hy, update_of_ne hy, update_of_ne hy]

theorem deadlines_congr (hd : v'.delivery = v.delivery) (h : v.Deadlines) : v'.Deadlines := by
  unfold Deadlines
  rw [hd]
  exact h

theorem Deadlines.withDelivery (h : v.Deadlines) {d : DeliveryRow}
    (hd : d.retryDeadlineAt =
      some (d.retryWindowStartedAt.getD d.selectedAt + Retry.deliveryWindow)) :
    (v.withDelivery d).Deadlines := by
  intro y e he
  by_cases hy : y = d.id
  · subst y
    rw [delivery_withDelivery] at he
    cases he
    exact hd
  · rw [delivery_withDelivery_ne hy] at he
    exact h y e he

end Deliveries

section Finishing
variable {δ : Type}

/-- The finishing `UPDATE` touches the last attempt of its parent and nothing else. -/
theorem map_finishing {rows : String → List (Attempt δ)}
    (hparent : ∀ {x a}, a ∈ rows x → a.parentId = x)
    (hunique : ∀ {x y a b}, a ∈ rows x → b ∈ rows y → a.id = b.id → a = b)
    {x : String} {before : List (Attempt δ)} {a : Attempt δ} (hx : rows x = before ++ [a])
    (ha : a.finishedAt = none) (hb : ∀ b ∈ before, b.finishedAt ≠ none) {t : Int}
    {status : AttemptStatus} {retryable : Bool} {detail : Option δ} {message : Option String} :
    (fun y => (rows y).map (finishing a.id t status retryable detail message)) =
      update rows x (before ++ [a.finished t status retryable detail message]) := by
  have ham : a ∈ rows x := by simp [hx]
  have other : ∀ b, b.id ≠ a.id → finishing a.id t status retryable detail message b = b := by
    intro b hne
    exact if_neg (by simpa using hne)
  funext y
  by_cases hy : y = x
  · subst y
    rw [update_self, hx, List.map_append, List.map_singleton]
    have hold : before.map (finishing a.id t status retryable detail message) = before := by
      conv_rhs => rw [← List.map_id before]
      apply List.map_congr_left
      intro b hbm
      refine other b fun he => ?_
      have := hunique (by rw [hx]; exact List.mem_append_left _ hbm) ham he
      exact hb b hbm (by rw [this, ha])
    rw [hold, finishing, if_pos (by simp)]
  · rw [update_of_ne hy]
    conv_rhs => rw [← List.map_id (rows y)]
    apply List.map_congr_left
    intro b hbm
    refine other b fun he => hy ?_
    have hba := hunique hbm ham he
    rw [← hparent hbm, hba]
    exact hparent ham

end Finishing
end View

namespace Store
variable {s s' : Store}

/-- A Recording that changes without any consequence for either ledger. -/
theorem leads_recording {q r : RecordingRow} (hr : s.recording q.id = some r)
    (hst : q.status.transcription = r.status.transcription)
    (hw : q.retryWindowStartedAt = r.retryWindowStartedAt)
    (hl : s.view.Lifecycle → (s.view.withRecording q).Lifecycle) :
    s.view.Leads (s.view.withRecording q) s.view.transcriptionLedger s.view.deliveryLedger where
  lifecycle := hl
  deadlines := View.deadlines_congr rfl
  transcriptions := View.transcriptionLedger_congr rfl (View.transcriptionStage_same hr hst hw)
  deliveries := rfl

theorem leads_create {new : NewRecording} (hn : s.recording new.id = none) :
    s.view.Leads (s.view.withRecording (newRow new)) s.view.transcriptionLedger
      s.view.deliveryLedger where
  lifecycle h := create_lifecycle h hn
  deadlines := View.deadlines_congr rfl
  transcriptions := by
    refine View.transcriptionLedger_congr rfl ?_
    rw [View.transcriptionStage_withRecording]
    have hstage : s.view.transcriptionStage (newRow new).id = (.waiting, none) :=
      View.transcriptionStage_of_none hn
    exact hstage ▸ update_eq_self ..
  deliveries := rfl

theorem leads_claim {x : String} {r : RecordingRow} {t : Int} (hr : s.recording x = some r)
    (hst : r.status = .received) :
    s.view.Leads (s.view.withRecording (r.moved .transcribing t))
      (update s.view.transcriptionLedger x ((s.view.transcriptionLedger x).enter none))
      s.view.deliveryLedger where
  lifecycle h := claim_lifecycle h hr hst
  deadlines := View.deadlines_congr rfl
  transcriptions := by
    obtain rfl := recording_id hr
    refine View.transcriptionLedger_update (update_eq_self r.id _).symm
      (View.transcriptionStage_withRecording _ _) ?_
    have hstage := View.transcriptionStage_of_recording (v := s.view) hr
    rw [View.transcriptionLedger, hstage]
    rfl
  deliveries := rfl

theorem leads_startTranscription {a x : String} {t : Int} {n : Nat}
    (hn : n = (s.transcriptionAttempts.attemptsOf x).length + 1) :
    s.view.Leads (s.view.withTranscriptionAttempt (AttemptTable.started a x n t))
      (update s.view.transcriptionLedger x ((s.view.transcriptionLedger x).start a x t))
      s.view.deliveryLedger where
  lifecycle := id
  deadlines := View.deadlines_congr rfl
  transcriptions := by
    refine View.transcriptionLedger_update rfl (update_eq_self x _).symm ?_
    rw [hn]
    rfl
  deliveries := rfl

/-- How a finishing update of a Transcription attempt reads on its ledger. -/
theorem transcriptions_finish {x : String} {before : List TranscriptionAttempt}
    {a : TranscriptionAttempt} (hx : s.transcriptionAttempts.attemptsOf x = before ++ [a])
    (ha : a.finishedAt = none) (hb : ∀ b ∈ before, b.finishedAt ≠ none) {t : Int} {how : Finish}
    {status : AttemptStatus} {retryable : Bool} {code message : Option String}
    (hs : a.finished t status retryable code message = a.ended t how code message) {v' : View}
    (hrows : v'.transcriptionAttempts =
      (s.view.mapTranscriptionAttempts (finishing a.id t status retryable code message)).transcriptionAttempts)
    (hstage : v'.transcriptionStage = update s.view.transcriptionStage x
      (Phase.after how, (s.view.transcriptionLedger x).window)) :
    v'.transcriptionLedger = update s.view.transcriptionLedger x
      ⟨before ++ [a.ended t how code message], Phase.after how,
        (s.view.transcriptionLedger x).since, (s.view.transcriptionLedger x).window⟩ := by
  have hmap : (fun y => (s.view.transcriptionAttempts y).map
      (finishing a.id t status retryable code message)) = update s.view.transcriptionAttempts x
        (before ++ [a.finished t status retryable code message]) :=
    View.map_finishing s.view_coherent.transcription_parent s.view_coherent.transcription_unique
      hx ha hb
  refine View.transcriptionLedger_update (hrows.trans hmap) hstage ?_
  rw [hs]
  rfl

section Finishes
variable {x : String} {r : RecordingRow} {before : List TranscriptionAttempt}
variable {a : TranscriptionAttempt} {t : Int}

/-- The stage a Recording's transition leaves, whatever else was annotated. -/
theorem transcriptionStage_moved {v' : View} {q : RecordingRow} {next : RecordingStatus}
    (hr : s.recording x = some r) (hq : q.id = r.id)
    (hw : q.retryWindowStartedAt = r.retryWindowStartedAt)
    (hv : v'.transcriptionStage = s.view.transcriptionStage) :
    (v'.withRecording (q.moved next t)).transcriptionStage = update s.view.transcriptionStage x
      (next.transcription, (s.view.transcriptionLedger x).window) := by
  obtain rfl := recording_id hr
  rw [View.transcriptionStage_withRecording, hv]
  have hstage := View.transcriptionStage_of_recording (v := s.view) hr
  unfold View.transcriptionLedger
  rw [hstage]
  change update s.view.transcriptionStage q.id (next.transcription, q.retryWindowStartedAt) = _
  rw [hq, hw]

theorem leads_succeedTranscription {new : NewTranscript} (hid : new.recordingId = x)
    (hr : s.recording x = some r) (hst : r.status = .transcribing)
    (hx : s.transcriptionAttempts.attemptsOf x = before ++ [a])
    (ha : a.finishedAt = none) (hb : ∀ b ∈ before, b.finishedAt ≠ none) :
    s.view.Leads
      (((s.view.mapTranscriptionAttempts (finishing a.id t .succeeded false none none))
        |>.withTranscript new).withRecording (r.moved .routing t))
      (update s.view.transcriptionLedger x ⟨before ++ [a.ended t .succeeded none none],
        Phase.after .succeeded, (s.view.transcriptionLedger x).since,
        (s.view.transcriptionLedger x).window⟩)
      s.view.deliveryLedger where
  lifecycle h := by
    subst x
    exact View.Lifecycle.transcribed (v := s.view.mapTranscriptionAttempts _) h (recording_id hr) hr hst
  deadlines := View.deadlines_congr rfl
  transcriptions := transcriptions_finish hx ha hb rfl rfl (transcriptionStage_moved hr rfl rfl rfl)
  deliveries := rfl

theorem leads_failTranscription {code message : String} {g : RecordingRow → RecordingRow}
    (hg : Annotates g) (hr : s.recording x = some r) (hst : r.status = .transcribing)
    (hx : s.transcriptionAttempts.attemptsOf x = before ++ [a])
    (ha : a.finishedAt = none) (hb : ∀ b ∈ before, b.finishedAt ≠ none) :
    s.view.Leads
      (((s.view.mapTranscriptionAttempts
        (finishing a.id t .failed false (some code) (some message))).mapRecordings g).withRecording
          ((g r).moved .transcriptionFailed t))
      (update s.view.transcriptionLedger x ⟨before ++ [a.ended t .terminal (some code) (some message)],
        Phase.after .terminal, (s.view.transcriptionLedger x).since,
        (s.view.transcriptionLedger x).window⟩)
      s.view.deliveryLedger where
  lifecycle h := failTranscription_lifecycle (v := s.view) h s.view_coherent hg hr hst
  deadlines := View.deadlines_congr rfl
  transcriptions := transcriptions_finish hx ha hb rfl rfl
    (transcriptionStage_moved hr (hg.id_eq r) (hg.window_eq r)
      (View.transcriptionStage_annotated (v := s.view.mapTranscriptionAttempts _) hg))
  deliveries := rfl

theorem leads_retryTranscription {code message : String} {g : RecordingRow → RecordingRow}
    (hg : Annotates g) (hp : (s.view.transcriptionLedger x).phase = .active)
    (hx : s.transcriptionAttempts.attemptsOf x = before ++ [a])
    (ha : a.finishedAt = none) (hb : ∀ b ∈ before, b.finishedAt ≠ none) :
    s.view.Leads
      ((s.view.mapTranscriptionAttempts
        (finishing a.id t .failed true (some code) (some message))).mapRecordings g)
      (update s.view.transcriptionLedger x
        ⟨before ++ [a.ended t .retryable (some code) (some message)], Phase.after .retryable,
          (s.view.transcriptionLedger x).since, (s.view.transcriptionLedger x).window⟩)
      s.view.deliveryLedger where
  lifecycle h := View.Lifecycle.annotated (v := s.view.mapTranscriptionAttempts _) h hg
  deadlines := View.deadlines_congr rfl
  transcriptions := by
    refine transcriptions_finish hx ha hb rfl rfl ?_
    rw [View.transcriptionStage_annotated hg]
    change s.view.transcriptionStage = update _ x ((Phase.active, (s.view.transcriptionStage x).2))
    rw [← hp]
    exact (update_eq_self x _).symm
  deliveries := rfl

end Finishes

theorem leads_reopenTranscription {input : ManualRetryTranscription} {r : RecordingRow}
    (hr : s.recording input.recordingId = some r) (hst : r.status = .transcriptionFailed) :
    s.view.Leads
      (s.view.withRecording
        (((r.moved .transcribing input.at_).withError none).withWindow input.at_))
      (update s.view.transcriptionLedger input.recordingId
        ((s.view.transcriptionLedger input.recordingId).reopen input.at_))
      s.view.deliveryLedger where
  lifecycle h := retryTranscription_lifecycle h hr hst
  deadlines := View.deadlines_congr rfl
  transcriptions := by
    rw [← recording_id hr]
    exact View.transcriptionLedger_update (update_eq_self r.id _).symm
      (View.transcriptionStage_withRecording _ _) rfl
  deliveries := rfl

/-- Selecting a Sink opens a Delivery. -/
theorem leads_select {new : NewDelivery} {r : RecordingRow}
    (hdl : new.retryDeadlineAt = some (new.selectedAt + Retry.deliveryWindow))
    (hst : r.status = .routing ∨ r.status = .backlogged) (hs : Selects s new r s') :
    s.view.Leads s'.view s.view.transcriptionLedger
      (update s.view.deliveryLedger new.id
        ((s.view.deliveryLedger new.id).enter (some new.selectedAt))) := by
  have hcan : r.status.canTransitionTo .delivering = true :=
    RecordingStatus.to_delivering.mpr (hst.imp_right Or.inl)
  have hlife := fun h => View.Lifecycle.selects h hcan hs
  obtain ⟨hr, hd, _, hv⟩ := hs
  have hid := recording_id hr
  refine ⟨hlife, fun h => ?_, ?_, ?_⟩
  · rw [hv]
    exact View.deadlines_congr rfl (h.withDelivery (d := deliveryRow new) hdl)
  · rw [hv]
    refine View.transcriptionLedger_congr rfl ?_
    refine View.transcriptionStage_same (v := s.view.withDelivery _) (r := r) ?_ ?_ rfl
    · change s.recording r.id = some r
      rw [hid]
      exact hr
    · rcases hst with hst | hst <;> rw [hst] <;> rfl
  · rw [hv]
    refine View.deliveryLedger_update (update_eq_self new.id _).symm
      (View.deliveryStage_withDelivery s.view (deliveryRow new)) ?_
    have hstage : s.view.deliveryStage new.id = (.waiting, none, none) :=
      View.deliveryStage_of_none hd
    unfold View.deliveryLedger
    rw [hstage]
    rfl

theorem leads_startDelivery {a x : String} {t : Int} {n : Nat}
    (hn : n = (s.deliveryAttempts.attemptsOf x).length + 1) :
    s.view.Leads (s.view.withDeliveryAttempt (AttemptTable.started a x n t))
      s.view.transcriptionLedger
      (update s.view.deliveryLedger x ((s.view.deliveryLedger x).start a x t)) where
  lifecycle := id
  deadlines := View.deadlines_congr rfl
  transcriptions := rfl
  deliveries := by
    refine View.deliveryLedger_update rfl (update_eq_self x _).symm ?_
    rw [hn]
    rfl

/-- How a finishing update of a Delivery attempt reads on its ledger. -/
theorem deliveries_finish {x : String} {before : List DeliveryAttempt} {a : DeliveryAttempt}
    (hx : s.deliveryAttempts.attemptsOf x = before ++ [a]) (ha : a.finishedAt = none)
    (hb : ∀ b ∈ before, b.finishedAt ≠ none) {t : Int} {how : Finish} {status : AttemptStatus}
    {retryable : Bool} {code : Option Int} {message : Option String}
    (hs : a.finished t status retryable code message = a.ended t how code message) {v' : View}
    (hrows : v'.deliveryAttempts =
      (s.view.mapDeliveryAttempts (finishing a.id t status retryable code message)).deliveryAttempts)
    (hstage : v'.deliveryStage = update s.view.deliveryStage x
      (Phase.after how, (s.view.deliveryLedger x).since, (s.view.deliveryLedger x).window)) :
    v'.deliveryLedger = update s.view.deliveryLedger x
      ⟨before ++ [a.ended t how code message], Phase.after how,
        (s.view.deliveryLedger x).since, (s.view.deliveryLedger x).window⟩ := by
  have hmap : (fun y => (s.view.deliveryAttempts y).map
      (finishing a.id t status retryable code message)) = update s.view.deliveryAttempts x
        (before ++ [a.finished t status retryable code message]) :=
    View.map_finishing s.view_coherent.delivery_parent s.view_coherent.delivery_unique hx ha hb
  refine View.deliveryLedger_update (hrows.trans hmap) hstage ?_
  rw [hs]


section DeliveryFinishes
variable {x : String} {before : List DeliveryAttempt} {a : DeliveryAttempt} {t : Int}

/-- A Delivery that ends with an attempt takes its Recording along. -/
theorem leads_completes {status : DeliveryStatus} {how : Finish} {d : DeliveryRow}
    {r : RecordingRow} {attempt : AttemptStatus} {message : Option String} {code : Option Int}
    (hstat : status ≠ .delivering) (hhow : Phase.after how = status.phase)
    (hs : a.finished t attempt false code message = a.ended t how code message)
    (hx : s.deliveryAttempts.attemptsOf x = before ++ [a]) (ha : a.finishedAt = none)
    (hb : ∀ b ∈ before, b.finishedAt ≠ none)
    (hc : Completes (s.view.mapDeliveryAttempts (finishing a.id t attempt false code message))
      x status t d r s'.view) :
    s.view.Leads s'.view s.view.transcriptionLedger
      (update s.view.deliveryLedger x ⟨before ++ [a.ended t how code message], Phase.after how,
        (s.view.deliveryLedger x).since, (s.view.deliveryLedger x).window⟩) := by
  have hlife := fun h => View.Lifecycle.completes (v := s.view.mapDeliveryAttempts _) h
    recording_id deliveryFor_of_delivery hstat hc
  have hst := hc.delivering hstat
  obtain ⟨hd, hr, hcan, e, g, hg, hv⟩ := hc
  replace hd : s.delivery x = some d := hd
  replace hr : s.recording d.recordingId = some r := hr
  have hid : d.id = x := s.view_coherent.delivery_id hd
  rw [hv]
  refine ⟨fun h => hv ▸ hlife h, fun h => ?_, ?_, ?_⟩
  · refine View.deadlines_congr rfl (h.withDelivery (d := (d.completed status t).withError e) ?_)
    exact h x d hd
  · refine View.transcriptionLedger_congr rfl ?_
    rw [View.transcriptionStage_same (r := g r), View.transcriptionStage_annotated hg]
    · rfl
    · change (s.recording (g r).id).map g = _
      rw [hg.id_eq, recording_id hr, hr]
      rfl
    · change (recordingStatusOf status).transcription = (g r).status.transcription
      rw [hg.status_eq, hst]
      cases status <;> rfl
    · rfl
  · refine deliveries_finish hx ha hb hs rfl ?_
    change ((s.view.mapDeliveryAttempts _).withDelivery _).deliveryStage = _
    rw [View.deliveryStage_withDelivery]
    have hstage := View.deliveryStage_of_delivery (v := s.view) hd
    unfold View.deliveryLedger
    rw [hstage, hhow]
    subst hid
    rfl

theorem leads_retryDelivery {code : Option Int} {message : String} {d : DeliveryRow}
    {g : RecordingRow → RecordingRow} (hg : Annotates g) (hd : s.delivery x = some d)
    (hp : (s.view.deliveryLedger x).phase = .active)
    (hx : s.deliveryAttempts.attemptsOf x = before ++ [a]) (ha : a.finishedAt = none)
    (hb : ∀ b ∈ before, b.finishedAt ≠ none) :
    s.view.Leads
      (((s.view.mapDeliveryAttempts (finishing a.id t .failed true code (some message)))
        |>.withDelivery (d.withError (some message))).mapRecordings g)
      s.view.transcriptionLedger
      (update s.view.deliveryLedger x ⟨before ++ [a.ended t .retryable code (some message)],
        Phase.after .retryable, (s.view.deliveryLedger x).since,
        (s.view.deliveryLedger x).window⟩) where
  lifecycle h := by
    have hd' := View.Lifecycle.redelivered (e := d.withError (some message)) h
      (deliveryFor_of_delivery hd) rfl rfl rfl
    exact View.Lifecycle.annotated (v := (s.view.mapDeliveryAttempts _).withDelivery _) hd' hg
  deadlines h :=
    View.deadlines_congr rfl (h.withDelivery (d := d.withError (some message)) (h x d hd))
  transcriptions :=
    View.transcriptionLedger_congr rfl (View.transcriptionStage_annotated
      (v := (s.view.mapDeliveryAttempts _).withDelivery _) hg)
  deliveries := by
    refine deliveries_finish hx ha hb rfl rfl ?_
    change ((s.view.mapDeliveryAttempts _).withDelivery _).deliveryStage = _
    rw [View.deliveryStage_withDelivery]
    have hstage := View.deliveryStage_of_delivery (v := s.view) hd
    obtain rfl : d.id = x := s.view_coherent.delivery_id hd
    unfold View.deliveryLedger at hp ⊢
    rw [hstage] at hp ⊢
    change d.status.phase = .active at hp
    change update s.view.deliveryStage d.id
      (d.status.phase, some d.selectedAt, d.retryWindowStartedAt) = _
    rw [hp]
    rfl

end DeliveryFinishes

theorem leads_reopenDelivery {input : ManualRetryDelivery} {r : RecordingRow} {d : DeliveryRow}
    (hdl : input.retryDeadlineAt = input.at_ + Retry.deliveryWindow)
    (hr : s.recording input.recordingId = some r) (hst : r.status = .deliveryFailed)
    (hfor : s.deliveryFor input.recordingId = some d) :
    s.view.Leads
      ((s.view.withDelivery (reopened input d)).withRecording
        ((r.moved .delivering input.at_).withError none))
      s.view.transcriptionLedger
      (update s.view.deliveryLedger d.id ((s.view.deliveryLedger d.id).reopen input.at_)) where
  lifecycle h := reopen_lifecycle h hr hst hfor
  deadlines h := by
    refine View.deadlines_congr rfl (h.withDelivery (d := reopened input d) ?_)
    change some input.retryDeadlineAt = _
    rw [hdl]
    rfl
  transcriptions := by
    refine View.transcriptionLedger_congr rfl ?_
    refine View.transcriptionStage_same (v := s.view.withDelivery _) (r := r) ?_ ?_ rfl
    · change s.recording r.id = some r
      rw [recording_id hr]
      exact hr
    · rw [hst]
      rfl
  deliveries := by
    have hd := s.view_coherent.delivery_iff.mpr
      (show s.deliveryFor d.recordingId = some d from (s.view_coherent.deliveryFor_id hfor) ▸ hfor)
    refine View.deliveryLedger_update (update_eq_self d.id _).symm
      (View.deliveryStage_withDelivery s.view (reopened input d)) ?_
    unfold View.deliveryLedger
    rw [View.deliveryStage_of_delivery hd]
    rfl


/-- Recovery closes every attempt in flight and gives back what was never tried. -/
theorem leads_recover (now : Int) (s : Store) :
    s.view.Leads (recovered now s).view
      (fun x => (s.view.transcriptionLedger x).recover (abandoned now fun _ => some "abandoned"))
      (fun x => (s.view.deliveryLedger x).recover (abandoned now (·.detail))) := by
  obtain ⟨f, hf, hv⟩ := recovered_view now s
  rw [hv]
  refine ⟨fun h => h.recovers hf, View.deadlines_congr rfl, ?_, ?_⟩
  · funext x
    unfold View.transcriptionLedger Ledger.recover
    cases hr : s.recording x with
    | none =>
      have hold := View.transcriptionStage_of_none (v := s.view) hr
      have hnew : (((s.view.mapRecordings f).mapTranscriptionAttempts
          (abandoned now fun _ => some "abandoned")).mapDeliveryAttempts
            (abandoned now (·.detail))).transcriptionStage x = (.waiting, none) := by
        refine View.transcriptionStage_of_none ?_
        change (s.recording x).map f = none
        rw [hr]
        rfl
      rw [hold, hnew, if_neg fun h => by cases h.1]
      rfl
    | some r =>
      obtain ⟨e, u, he⟩ := hf r
      have hold := View.transcriptionStage_of_recording (v := s.view) hr
      have hnew : (((s.view.mapRecordings f).mapTranscriptionAttempts
          (abandoned now fun _ => some "abandoned")).mapDeliveryAttempts
            (abandoned now (·.detail))).transcriptionStage x =
          ((f r).status.transcription, (f r).retryWindowStartedAt) :=
        View.transcriptionStage_of_recording (View.recording_mapRecordings (v := s.view) hr)
      have hunstarted : Unstarted s r = true ↔ r.status.transcription = .active ∧
          s.view.transcriptionAttempts x = [] := by
        unfold Unstarted
        rw [recording_id hr, Bool.and_eq_true, beq_iff_eq, List.isEmpty_iff]
        refine and_congr ?_ Iff.rfl
        cases r.status <;> simp [RecordingStatus.transcription]
      rw [hold, hnew, he]
      by_cases hu : Unstarted s r = true
      · rw [if_pos hu, if_pos ⟨(hunstarted.mp hu).1, (hunstarted.mp hu).2, rfl⟩]
        rfl
      · rw [if_neg hu, if_neg fun h => hu (hunstarted.mpr ⟨h.1, h.2.1⟩)]
        rfl
  · funext x
    unfold View.deliveryLedger Ledger.recover
    have hstage : (((s.view.mapRecordings f).mapTranscriptionAttempts
        (abandoned now fun _ => some "abandoned")).mapDeliveryAttempts
          (abandoned now (·.detail))).deliveryStage x = s.view.deliveryStage x := rfl
    rw [hstage, if_neg]
    · rfl
    · intro h
      unfold View.deliveryStage at h
      cases hd : s.view.delivery x with
      | none =>
        rw [hd] at h
        cases h.1
      | some d =>
        rw [hd] at h
        cases h.2.2


end Store
end Telegraph
