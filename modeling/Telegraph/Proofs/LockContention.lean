import Telegraph.Contention

namespace Telegraph
open Lib Program SqliteStore

namespace Store
variable {s : Store}

theorem checked_spares {ρ : Type} {clash : ρ → ρ → Bool} {t : Table ρ clash} {r : ρ}
    {parentExists : Bool} {k : Table ρ clash → Store} :
    checked t r parentExists k ≠ .error (.database .busy) := by
  unfold checked
  intro h
  cases ht : t.insert r <;> rw [ht] at h
  · cases h
  · cases parentExists <;> cases h

end Store

namespace SqliteStore

/-- The program itself never reports a busy database. -/
abbrev NeverBusy {α : Type} (p : Query α) : Prop := p.Spares (.database .busy)

section Parts
variable {id recordingId deliveryId : String} {t : Int}

theorem requireRecording_neverBusy : NeverBusy (requireRecording id) :=
  spares_bind spares_query fun _ => spares_require (by simp)

theorem requireTranscript_neverBusy : NeverBusy (requireTranscript recordingId) :=
  spares_bind spares_query fun _ => spares_require (by simp)

theorem requireDelivery_neverBusy : NeverBusy (requireDelivery id) :=
  spares_bind spares_query fun _ => spares_require (by simp)

theorem recordingIdForDelivery_neverBusy : NeverBusy (recordingIdForDelivery deliveryId) :=
  spares_bind spares_query fun _ => spares_require (by simp)

theorem guardedTransition_neverBusy {next : RecordingStatus} :
    NeverBusy (guardedTransition id next t) := by
  refine spares_bind spares_query fun _ => spares_bind (spares_require (by simp)) fun current => ?_
  split
  · exact spares_bind spares_modify fun _ => spares_done
  · exact spares_fail (by simp)

theorem setRecordingError_neverBusy {message : String} :
    NeverBusy (setRecordingError recordingId t message) :=
  spares_bind spares_modify fun _ => spares_done

theorem finishTranscriptionAttempt_neverBusy {status : AttemptStatus} {retryable : Bool}
    {code message : Option String} :
    NeverBusy (finishTranscriptionAttempt id t status retryable code message) :=
  spares_bind spares_modify fun _ => spares_done

theorem finishDeliveryAttempt_neverBusy {status : AttemptStatus} {retryable : Bool}
    {code : Option Int} {message : Option String} :
    NeverBusy (finishDeliveryAttempt id t status retryable code message) :=
  spares_bind spares_modify fun _ => spares_done

theorem insertTranscript_neverBusy {new : NewTranscript} : NeverBusy (insertTranscript new) :=
  spares_attempt fun _ => Store.checked_spares

theorem insertDelivery_neverBusy {new : NewDelivery} : NeverBusy (insertDelivery new) :=
  spares_bind (spares_attempt fun _ => Store.checked_spares) fun _ =>
    spares_bind spares_modify fun _ => spares_done

theorem claimAttempt_neverBusy {δ : Type} {attempts : Store → AttemptTable δ}
    {insert : Store → Attempt δ → Except StorageError Store}
    (h : ∀ s a, insert s a ≠ .error (.database .busy)) :
    NeverBusy (claimAttempt attempts insert id recordingId t) := by
  refine spares_bind spares_query fun inFlight => ?_
  split
  · exact spares_done
  · exact spares_bind spares_query fun _ =>
      spares_bind (spares_attempt fun s => h s _) fun _ => spares_done

theorem retryAnchor_neverBusy : NeverBusy (retryAnchor recordingId) := by
  refine spares_bind spares_query fun _ => spares_bind (spares_require (by simp)) fun row => ?_
  split
  · exact spares_done
  · exact spares_bind spares_query fun _ => spares_require (by simp)

end Parts

/-! The transactions the ticks issue. -/

section Ticks
variable {attemptId recordingId deliveryId : String} {t : Int} {code message : String}

theorem claimReceivedTx_neverBusy : NeverBusy (claimReceivedTx t) := by
  refine spares_bind spares_begin fun _ => spares_bind spares_query fun found => ?_
  split
  · exact spares_bind spares_drop fun _ => spares_done
  · exact spares_bind guardedTransition_neverBusy fun _ =>
      spares_bind spares_commit fun _ => spares_done

theorem startTranscriptionAttempt_neverBusy :
    NeverBusy (startTranscriptionAttempt attemptId recordingId t) := by
  refine spares_bind spares_begin fun _ =>
    spares_bind (claimAttempt_neverBusy fun _ _ => Store.checked_spares) fun claimed => ?_
  split
  · exact spares_bind spares_drop fun _ => spares_done
  · exact spares_bind retryAnchor_neverBusy fun _ => spares_bind spares_commit fun _ => spares_done

theorem succeedTranscriptionTx_neverBusy {new : NewTranscript} :
    NeverBusy (succeedTranscriptionTx attemptId t new) :=
  spares_bind spares_begin fun _ => spares_bind finishTranscriptionAttempt_neverBusy fun _ =>
    spares_bind insertTranscript_neverBusy fun _ =>
      spares_bind guardedTransition_neverBusy fun _ => spares_commit

theorem retryTranscription_neverBusy :
    NeverBusy (retryTranscription attemptId recordingId t code message) :=
  spares_bind spares_begin fun _ => spares_bind finishTranscriptionAttempt_neverBusy fun _ =>
    spares_bind setRecordingError_neverBusy fun _ => spares_commit

theorem failTranscriptionTx_neverBusy :
    NeverBusy (failTranscriptionTx attemptId recordingId t code message) :=
  spares_bind spares_begin fun _ => spares_bind finishTranscriptionAttempt_neverBusy fun _ =>
    spares_bind setRecordingError_neverBusy fun _ =>
      spares_bind guardedTransition_neverBusy fun _ => spares_commit

theorem markBackloggedTx_neverBusy : NeverBusy (markBackloggedTx recordingId t) :=
  spares_bind spares_begin fun _ =>
    spares_bind guardedTransition_neverBusy fun _ => spares_commit

theorem routeToSinkTx_neverBusy {new : NewDelivery} : NeverBusy (routeToSinkTx new) := by
  refine spares_bind spares_begin fun _ => spares_bind spares_modify fun claimed => ?_
  split
  · exact spares_bind spares_drop fun _ => spares_done
  · exact spares_bind insertDelivery_neverBusy fun _ =>
      spares_bind spares_commit fun _ => spares_done

theorem startDeliveryAttempt_neverBusy :
    NeverBusy (startDeliveryAttempt attemptId deliveryId t) := by
  refine spares_bind spares_begin fun _ =>
    spares_bind (claimAttempt_neverBusy fun _ _ => Store.checked_spares) fun claimed => ?_
  split
  · exact spares_bind spares_drop fun _ => spares_done
  · exact spares_bind spares_commit fun _ => spares_done

theorem succeedDeliveryTx_neverBusy {status : Option Int} :
    NeverBusy (succeedDeliveryTx attemptId deliveryId t status) :=
  spares_bind spares_begin fun _ => spares_bind recordingIdForDelivery_neverBusy fun _ =>
    spares_bind finishDeliveryAttempt_neverBusy fun _ => spares_bind spares_modify fun _ =>
      spares_bind guardedTransition_neverBusy fun _ => spares_commit

theorem retryDelivery_neverBusy {status : Option Int} :
    NeverBusy (retryDelivery attemptId deliveryId t status message) :=
  spares_bind spares_begin fun _ => spares_bind recordingIdForDelivery_neverBusy fun _ =>
    spares_bind finishDeliveryAttempt_neverBusy fun _ => spares_bind spares_modify fun _ =>
      spares_bind setRecordingError_neverBusy fun _ => spares_commit

theorem failDeliveryTx_neverBusy {status : Option Int} :
    NeverBusy (failDeliveryTx attemptId deliveryId t status message) :=
  spares_bind spares_begin fun _ => spares_bind recordingIdForDelivery_neverBusy fun _ =>
    spares_bind finishDeliveryAttempt_neverBusy fun _ => spares_bind spares_modify fun _ =>
      spares_bind setRecordingError_neverBusy fun _ =>
        spares_bind guardedTransition_neverBusy fun _ => spares_commit

end Ticks
end SqliteStore

namespace Action
variable {κ : Type}

/-- Its transaction never reports a busy database, and it would not tolerate one. -/
def NeverBusy : Action κ → Prop
  | .local _ _ => True
  | .store tx tolerate => SqliteStore.NeverBusy tx ∧ tolerate (.database .busy) = none

theorem transact_neverBusy {tx : Query (κ × List Event)} (h : SqliteStore.NeverBusy tx) :
    (transact tx).NeverBusy :=
  ⟨h, rfl⟩

end Action

namespace Transcription

theorem record_neverBusy {recording : Recording} {attemptId : String}
    {start : TranscriptionAttemptStart} {t : Int} {result : Except WorkerFailure TranscriptionOutput} :
    SqliteStore.NeverBusy (record recording attemptId start t result) := by
  match result with
  | .ok output => exact spares_bind succeedTranscriptionTx_neverBusy fun _ => spares_done
  | .error (.retryable code message) =>
    unfold record
    dsimp only
    split
    · exact spares_bind failTranscriptionTx_neverBusy fun _ => spares_done
    · exact spares_bind retryTranscription_neverBusy fun _ => spares_done
  | .error (.terminal code message) =>
    exact spares_bind failTranscriptionTx_neverBusy fun _ => spares_done

theorem action_neverBusy (supply : Supply (Except WorkerFailure TranscriptionOutput)) (pc : Pc) :
    (action supply pc).NeverBusy := by
  cases pc with
  | ready last => trivial
  | began t =>
    refine Action.transact_neverBusy (spares_bind claimReceivedTx_neverBusy fun claimed => ?_)
    split <;> exact spares_done
  | confirming t id =>
    exact Action.transact_neverBusy (spares_bind requireRecording_neverBusy fun _ => spares_done)
  | unclaimed t => exact Action.transact_neverBusy (spares_bind spares_query fun _ => spares_done)
  | loading t rows candidates =>
    cases rows with
    | nil =>
      simp only [action]
      split <;> trivial
    | cons row rows =>
      exact Action.transact_neverBusy (spares_bind requireRecording_neverBusy fun _ => spares_done)
  | claimed t recording seen =>
    refine Action.transact_neverBusy (spares_bind startTranscriptionAttempt_neverBusy fun start => ?_)
    split <;> exact spares_done
  | started recording attemptId start => trivial
  | calling recording attemptId start => trivial
  | answered recording attemptId start t result => exact Action.transact_neverBusy record_neverBusy
  | confirmingTranscript id =>
    exact Action.transact_neverBusy (spares_bind requireTranscript_neverBusy fun _ => spares_done)
  | confirmingFailure id =>
    exact Action.transact_neverBusy (spares_bind requireRecording_neverBusy fun _ => spares_done)

end Transcription

namespace Routing

theorem action_neverBusy (route : Recording → RoutingDecision) (supply : Supply Unit) (pc : Pc) :
    (action route supply pc).NeverBusy := by
  cases pc with
  | ready last => trivial
  | began now =>
    refine Action.transact_neverBusy (spares_bind spares_query fun found => ?_)
    split <;> exact spares_done
  | confirming now id =>
    exact Action.transact_neverBusy (spares_bind requireRecording_neverBusy fun _ => spares_done)
  | deciding now recording =>
    simp only [action]
    split <;> trivial
  | backlogging now id =>
    exact ⟨spares_bind markBackloggedTx_neverBusy fun _ => spares_done, rfl⟩
  | selecting now recordingId sinkName =>
    refine Action.transact_neverBusy (spares_bind routeToSinkTx_neverBusy fun claimed => ?_)
    split <;> exact spares_done
  | confirmingBacklog id =>
    exact Action.transact_neverBusy (spares_bind requireRecording_neverBusy fun _ => spares_done)
  | confirmingDelivery id =>
    exact Action.transact_neverBusy (spares_bind requireDelivery_neverBusy fun _ => spares_done)

end Routing

namespace Delivering

theorem record_neverBusy {candidate : DeliveryCandidate} {attemptId : String} {t : Int}
    {result : Except WorkerFailure Unit} :
    SqliteStore.NeverBusy (record candidate attemptId t result) := by
  match result with
  | .ok () => exact spares_bind succeedDeliveryTx_neverBusy fun _ => spares_done
  | .error (.retryable code message) =>
    unfold record
    dsimp only
    split
    · exact spares_bind failDeliveryTx_neverBusy fun _ => spares_done
    · exact spares_bind retryDelivery_neverBusy fun _ => spares_done
  | .error (.terminal code message) =>
    exact spares_bind failDeliveryTx_neverBusy fun _ => spares_done

theorem action_neverBusy (supply : Supply (Except WorkerFailure Unit)) (pc : Pc) :
    (action supply pc).NeverBusy := by
  cases pc with
  | ready last => trivial
  | began t => exact Action.transact_neverBusy (spares_bind spares_query fun _ => spares_done)
  | loading t rows candidates =>
    cases rows with
    | nil =>
      simp only [action]
      split <;> trivial
    | cons row rows =>
      exact Action.transact_neverBusy (spares_bind requireDelivery_neverBusy fun _ => spares_done)
  | loadingRecording t row rows candidates delivery =>
    exact Action.transact_neverBusy (spares_bind requireRecording_neverBusy fun _ => spares_done)
  | loadingTranscript t row rows candidates delivery recording =>
    exact Action.transact_neverBusy (spares_bind requireTranscript_neverBusy fun _ => spares_done)
  | claimed t candidate =>
    refine Action.transact_neverBusy (spares_bind startDeliveryAttempt_neverBusy fun start => ?_)
    split <;> exact spares_done
  | started candidate attemptId => trivial
  | calling candidate attemptId => trivial
  | answered candidate attemptId t result => exact Action.transact_neverBusy record_neverBusy
  | confirming id =>
    exact Action.transact_neverBusy (spares_bind requireDelivery_neverBusy fun _ => spares_done)

end Delivering

namespace Worker
variable {ι κ : Type} {me : Who ι} {db db' : Wal (Who ι) Store} {act : κ → Action κ}
variable {w w' : Worker κ} {tolerate : StorageError → Option κ}

/-- Neither what the worker has under way nor what ended it is a busy database. -/
def Sound : Worker κ → Prop
  | .resting _ => True
  | .running tx _ tolerate => NeverBusy tx ∧ tolerate (.database .busy) = none
  | .broken e => e ≠ .database .busy

theorem Sound.not_lockedOut (h : w.Sound) : ¬ w.LockedOut := by
  intro hl
  cases w with
  | broken e => exact h (Option.some.inj hl)
  | _ => cases hl

theorem settle_sound {tx : Query (κ × List Event)} {hold : Hold Store} (h : NeverBusy tx)
    (ht : tolerate (.database .busy) = none) : (settle tolerate tx hold).Sound := by
  unfold settle
  split
  · trivial
  · split
    · trivial
    · exact h
  · exact ⟨h, ht⟩

theorem settle_busy (ht : tolerate (.database .busy) = none) :
    (settle tolerate (.fail (.database .busy)) .idle).LockedOut := by
  simp only [settle, ht]
  rfl

theorem advance_sound (hact : ∀ pc, (act pc).NeverBusy) (hw : w.Sound) (hr : ¬ w.Refused db)
    (hs : w.advance me db act = some (db', w')) : w'.Sound := by
  cases w with
  | resting pc =>
    have ha := hact pc
    unfold advance at hs
    cases hc : act pc with
    | «local» next events =>
      simp only [hc] at hs
      cases hs
      trivial
    | store tx tolerate =>
      simp only [hc] at hs
      cases hs
      rw [hc] at ha
      exact settle_sound ha.1 ha.2
  | running tx hold tolerate =>
    obtain ⟨⟨db₁, tx', hold'⟩, hstep, he⟩ := Option.map_eq_some_iff.mp hs
    cases he
    exact settle_sound (Spares.step hw.1 hr hstep) hw.2
  | broken e => cases hs

theorem advance_refused (hw : w.Sound) (hr : w.Refused db)
    (hs : w.advance me db act = some (db', w')) : w'.LockedOut := by
  cases w with
  | resting pc => exact hr.elim
  | running tx hold tolerate =>
    obtain ⟨⟨db₁, tx', hold'⟩, hstep, he⟩ := Option.map_eq_some_iff.mp hs
    cases he
    obtain ⟨rfl, rfl⟩ := Refused.step hr hstep
    exact settle_busy hw.2
  | broken e => cases hs

end Worker

namespace Connections
variable {ι : Type} {c c' c₀ : Connections ι}

structure Sound (c : Connections ι) : Prop where
  transcriber : c.transcriber.Sound
  router : c.router.Sound
  deliverer : c.deliverer.Sound

theorem Sound.not_lockedOut (h : c.Sound) : ¬ c.LockedOut := by
  rintro (hb | hb | hb)
  · exact h.transcriber.not_lockedOut hb
  · exact h.router.not_lockedOut hb
  · exact h.deliverer.not_lockedOut hb

theorem AtStart.sound (h : c.AtStart) : c.Sound := by
  refine ⟨?_, ?_, ?_⟩
  · rw [h.transcriber]
    trivial
  · rw [h.router]
    trivial
  · rw [h.deliverer]
    trivial

theorem LockedOut.exited (h : c.LockedOut) : c.exited = true := by
  rcases h with h | h | h <;> simp [Connections.exited, show _ = _ from h]

section Steps
variable [DecidableEq ι] {route : Recording → RoutingDecision} {pick : Pick ι}
variable {turns : List (Turn (Connections ι) (Pick ι))}

theorem step_sound (h : c.Sound) (hr : ¬ c.Refuses pick) (hs : c.step route pick = some c') :
    c'.Sound := by
  obtain ⟨-, hs⟩ := Option.ite_none_left_eq_some.mp hs
  cases pick with
  | transcribe supply =>
    obtain ⟨⟨db', w'⟩, ha, rfl⟩ := Option.map_eq_some_iff.mp hs
    have hw := Worker.advance_sound (Transcription.action_neverBusy supply) h.transcriber hr ha
    exact ⟨hw, h.router, h.deliverer⟩
  | route supply =>
    obtain ⟨⟨db', w'⟩, ha, rfl⟩ := Option.map_eq_some_iff.mp hs
    have hw := Worker.advance_sound (Routing.action_neverBusy route supply) h.router hr ha
    exact ⟨h.transcriber, hw, h.deliverer⟩
  | deliver supply =>
    obtain ⟨⟨db', w'⟩, ha, rfl⟩ := Option.map_eq_some_iff.mp hs
    have hw := Worker.advance_sound (Delivering.action_neverBusy supply) h.deliverer hr ha
    exact ⟨h.transcriber, h.router, hw⟩
  | request i =>
    obtain ⟨r, -, rfl⟩ := Option.map_eq_some_iff.mp hs
    exact ⟨h.transcriber, h.router, h.deliverer⟩

theorem step_refused (h : c.Sound) (hr : c.Refuses pick) (hs : c.step route pick = some c') :
    c'.LockedOut := by
  obtain ⟨-, hs⟩ := Option.ite_none_left_eq_some.mp hs
  cases pick with
  | transcribe supply =>
    obtain ⟨⟨db', w'⟩, ha, rfl⟩ := Option.map_eq_some_iff.mp hs
    exact .inl (Worker.advance_refused h.transcriber hr ha)
  | route supply =>
    obtain ⟨⟨db', w'⟩, ha, rfl⟩ := Option.map_eq_some_iff.mp hs
    exact .inr (.inl (Worker.advance_refused h.router hr ha))
  | deliver supply =>
    obtain ⟨⟨db', w'⟩, ha, rfl⟩ := Option.map_eq_some_iff.mp hs
    exact .inr (.inr (Worker.advance_refused h.deliverer hr ha))
  | request i => exact hr.elim

/-- A run is one in which no worker has been refused, or one that a refusal has ended. -/
theorem Runs.sound_or_lockedOut (hr : Runs route c₀ turns c) (h₀ : c₀.Sound) :
    (c.Sound ∧ ∀ t ∈ turns, ¬ t.before.Refuses t.what) ∨
      (c.LockedOut ∧ ∃ t ∈ turns, t.before.Refuses t.what) := by
  induction hr with
  | start => exact .inl ⟨h₀, fun t ht => by cases ht⟩
  | @turn turns s s' pick _ hs ih =>
    rcases ih with ⟨hsound, hnone⟩ | ⟨hlocked, -⟩
    · by_cases hp : s.Refuses pick
      · exact .inr ⟨step_refused hsound hp hs, ⟨s, pick, s'⟩, by simp, hp⟩
      · refine .inl ⟨step_sound hsound hp hs, fun t ht => ?_⟩
        rcases List.mem_append.mp ht with ht | ht
        · exact hnone t ht
        · rw [List.mem_singleton.mp ht]
          exact hp
    · -- The process is gone: nothing moves any more.
      simp only [step, hlocked.exited, if_true] at hs
      cases hs

/-- No tick fails on a busy database as long as none is refused its first write. -/
theorem lock_contention (hr : Runs route c₀ turns c) (h₀ : c₀.AtStart) :
    (∀ t ∈ turns, ¬ t.before.Refuses t.what) ↔ ¬ c.LockedOut := by
  rcases hr.sound_or_lockedOut h₀.sound with ⟨hsound, hnone⟩ | ⟨hlocked, t, ht, hrefused⟩
  · exact iff_of_true hnone hsound.not_lockedOut
  · exact iff_of_false (fun hnone => hnone t ht hrefused) fun hn => hn hlocked

end Steps

/-! Two uploads and a tick that claims the first, over a new database. -/

def queuedUpload (id : String) : Query Unit × Hold Store :=
  ((StoreRequest.upload ⟨id, "phone", id, none, none, none, none, none, none, none, ⟨[]⟩, none, 0⟩).program,
    .idle)

def twoUploads : Connections Bool :=
  ⟨⟨Store.empty, 0, none, 0⟩, .resting (.ready none), .resting (.ready none), .resting (.ready none),
    fun i => queuedUpload (if i then "r1" else "r2")⟩

theorem twoUploads_atStart : twoUploads.AtStart :=
  ⟨rfl, rfl, rfl, rfl, rfl, fun _ => ⟨.upload _, rfl⟩⟩

def claiming : Pick Bool := .transcribe ⟨0, "a1", .error (.terminal "" "")⟩

def backlogAll (_ : Recording) : RoutingDecision := .backlog

/-- The second upload comes after the claim has committed. -/
theorem claim_uncontended : ∃ turns c, Runs backlogAll twoUploads turns c ∧ c.db.version = 3 ∧
    ∀ t ∈ turns, ¬ t.before.Refuses t.what := by
  have hp : (History.play (step backlogAll) twoUploads
      ([.request true] ++ List.replicate 7 claiming ++ [.request false])).map (fun r =>
        (r.2.db.version, r.2.exited)) = some (3, false) := by
    decide +kernel
  obtain ⟨⟨turns, c⟩, hrun, he⟩ := Option.map_eq_some_iff.mp hp
  obtain ⟨hversion, halive⟩ := Prod.mk.inj he
  refine ⟨turns, c, History.of_play hrun, hversion, ?_⟩
  refine (lock_contention (History.of_play hrun) twoUploads_atStart).mpr fun hl => ?_
  rw [hl.exited] at halive
  cases halive

/-- The second upload commits between the claim's `SELECT` and its `UPDATE`. -/
theorem claim_refused : ∃ turns c, Runs backlogAll twoUploads turns c ∧ twoUploads.AtStart ∧
    c.transcriber.fault = some (.database .busy) := by
  have hp : (History.play (step backlogAll) twoUploads
      ([.request true] ++ List.replicate 5 claiming ++ [.request false, claiming])).map
        (fun r => r.2.transcriber.fault) = some (some (.database .busy)) := by
    decide +kernel
  obtain ⟨⟨turns, c⟩, hrun, he⟩ := Option.map_eq_some_iff.mp hp
  exact ⟨turns, c, History.of_play hrun, twoUploads_atStart, he⟩

end Connections
end Telegraph
