import Telegraph.Proofs.WaitingLine
import Telegraph.Proofs.TickShows

namespace Telegraph
open Lib Program Lib.Retry SqliteStore

/-- How far a Recording is from where it rests. -/
def RecordingStatus.distance : RecordingStatus → Nat
  | received => 4
  | transcribing => 3
  | routing => 2
  | delivering => 1
  | _ => 0

namespace Store

def distance (s : Store) (x : String) : Nat := ((s.statusOf x).map (·.distance)).getD 0

/-- Nobody gets further from its rest. -/
def Nears (s s' : Store) : Prop := ∀ x, s'.distance x ≤ s.distance x

theorem nears_of_eq {s s' : Store} (h : s'.recordings = s.recordings) : s.Nears s' := by
  intro x
  unfold distance statusOf recording
  rw [h]

theorem Nears.trans {s t u : Store} (h : s.Nears t) (k : t.Nears u) : s.Nears u :=
  fun x => (k x).trans (h x)

theorem distance_eq {s : Store} {x : String} {r : RecordingRow} (h : s.recording x = some r) :
    s.distance x = r.status.distance := by
  unfold distance
  rw [statusOf_eq h]
  rfl

/-- The Recordings are the same ones. -/
def SameIds (s s' : Store) : Prop := s'.recordings.rows.map (·.id) = s.recordings.rows.map (·.id)

end Store

namespace SqliteStore
open Store

/-- Along the diagram a Recording that does not wait for the Operator comes nearer. -/
theorem distance_le {status next : RecordingStatus} (h : status.canTransitionTo next = true)
    (hp : ¬ status.Parked) : next.distance ≤ status.distance := by
  revert h hp
  cases status <;> cases next <;>
    simp [RecordingStatus.canTransitionTo, RecordingStatus.Parked, RecordingStatus.distance]

theorem permits_nears : Permits Nears where
  elsewhere hr _ _ := nears_of_eq hr
  columns hu hs x := by
    unfold distance
    rw [statusOf_updateRecordings fun r => RecordingRow.id_of_asUploaded (hu r)]
    simp [hs, statusOf]
  moves {s p next t} h x := by
    have he : (s.setStatus p next t).statusOf x =
        (s.recording x).map fun r => if p r then next else r.status :=
      statusOf_updateRecordings (f := (·.moved next t)) (fun _ => rfl) x
    cases hr : s.recording x with
    | none => simp [distance, he, hr]
    | some r =>
      rw [distance_eq hr]
      unfold distance
      rw [he, hr, Option.map_some, Option.map_some, Option.getD_some]
      split
      · next hp =>
        obtain ⟨hcan, hnot⟩ := h x r hr hp
        exact distance_le hcan hnot
      · exact le_refl _

theorem permits_sameIds : Permits SameIds where
  elsewhere hr _ _ := by rw [SameIds, hr]
  columns {s p f h} hu _ := by
    change (s.recordings.rows.map _).map _ = _
    rw [List.map_map]
    refine List.map_congr_left fun r _ => ?_
    simp only [Function.comp_apply]
    split
    · exact RecordingRow.id_of_asUploaded (hu r)
    · rfl
  moves {s p next t} _ := by
    change (s.recordings.rows.map _).map _ = _
    rw [List.map_map]
    refine List.map_congr_left fun r _ => ?_
    simp only [Function.comp_apply]
    split <;> rfl

end SqliteStore

/-- A step of a worker that is counted. -/
def Event.isMove : Event → Bool
  | .started _ _ _ => true
  | .finished _ _ _ _ => true
  | _ => false

/-- What a worker shows of its own. -/
def Event.ofWorker : Event → Bool
  | .finished _ _ _ .abandoned => false
  | .reopened _ _ => false
  | _ => true

namespace Action
variable {κ α : Type} {s : Store} {tx : Query (κ × List Event)}

/-- What a worker's step leaves: the database as it was, unless a Recording comes nearer to its
rest or an attempt starts or ends. -/
structure Counted (s : Store) (r : Store × Except StorageError (κ × List Event)) : Prop where
  ofWorker : ∀ v, r.2 = .ok v → ∀ e ∈ v.2, e.ofWorker = true
  moves : r.1 = s ∨ (∃ x, r.1.distance x < s.distance x) ∨
    ∃ v, r.2 = .ok v ∧ ∃ e ∈ v.2, e.isMove = true

theorem counted_local {next : κ} {events : List Event} (h : ∀ e ∈ events, e.ofWorker = true) :
    Counted s ((Action.local next events).run s) where
  ofWorker v hv := by
    cases hv
    exact h
  moves := .inl rfl

theorem counted_transact {ok : κ × List Event → Store → Prop} {bad : StorageError → Prop}
    (h : tx.Transacts s ok bad) (hok : ∀ v s', ok v s' → (∀ e ∈ v.2, e.ofWorker = true) ∧
      (s' = s ∨ (∃ x, s'.distance x < s.distance x) ∨ ∃ e ∈ v.2, e.isMove = true)) :
    Counted s ((transact tx).run s) := by
  rcases h.run_cases with ⟨v, s', hr, hv⟩ | ⟨e, hr, -⟩
  · have he : (transact tx).run s = (s', .ok v) := by simp only [transact, Action.run, hr]
    rw [he]
    obtain ⟨hw, hm⟩ := hok v s' hv
    exact ⟨fun u hu => by cases hu; exact hw, hm.imp_right (Or.imp_right fun h => ⟨v, rfl, h⟩)⟩
  · have he : (transact tx).run s = (s, .error e) := by simp only [transact, Action.run, hr]
    rw [he]
    exact ⟨fun u hu => (by cases hu), .inl rfl⟩

/-- A transaction that ends no attempt and starts none. -/
theorem counted_silent {bad : StorageError → Prop}
    (h : tx.Transacts s (fun v s' => v.2 = [] ∧ (s' = s ∨ ∃ x, s'.distance x < s.distance x)) bad) :
    Counted s ((transact tx).run s) := by
  refine counted_transact h ?_
  rintro v s' ⟨he, hm⟩
  exact ⟨by simp [he], hm.imp_right .inl⟩

/-- A transaction that only reads. -/
theorem counted_reads {q : Query α} {f : α → κ} (hq : q.Reads) :
    Counted s ((transact (do pure (f (← q), []))).run s) := by
  have hs : ((do pure (f (← q), []) : Query (κ × List Event)).run s).1 = s :=
    (run_bind_reads (q := q) (f := fun a => done (f a, [])) fun _ => trivial).trans
      (hq.always.run (fun _ => rfl) (fun h k => h.trans k) s).symm
  cases hr : (do pure (f (← q), []) : Query (κ × List Event)).run s with
  | mk s' o =>
    rw [hr] at hs
    obtain rfl := hs
    cases o with
    | ok v =>
      obtain ⟨a, k, k', hb⟩ := run_bind_ok hr
      have he : (transact (do pure (f (← q), []))).run s' = (s', .ok v) := by
        simp only [transact, Action.run, hr]
      rw [he]
      cases hb
      exact ⟨fun u hu => (by cases hu; simp), .inl rfl⟩
    | error e =>
      have he : (transact (do pure (f (← q), []))).run s' = (s', .error e) := by
        simp only [transact, Action.run, hr]
      rw [he]
      exact ⟨fun u hu => (by cases hu), .inl rfl⟩

/-- A transaction that ends an attempt. -/
theorem counted_ends {q : Query α} {ok : α → Store → Prop} {bad : StorageError → Prop} {next : κ}
    {item : Item} {a : String} {t : Int} {how : Finish} (hq : q.Transacts s ok bad)
    (hh : how ≠ .abandoned) : Counted s ((transact (do
      let _ ← q
      pure (next, [Event.finished item a t how]))).run s) := by
  refine counted_transact (hq.returning fun _ => (next, [Event.finished item a t how])) ?_
  rintro _ s' ⟨_, rfl, -⟩
  refine ⟨fun e he => ?_, .inr (.inr ⟨_, List.mem_singleton.mpr rfl, rfl⟩)⟩
  rw [List.mem_singleton.mp he]
  cases how <;> first | rfl | exact absurd rfl hh

end Action

section Ticks
variable {s : Store} {id : String} {now : Int}
open Telegraph.Action

theorem Transcription.action_counted (pc : Pc) (answer : Except WorkerFailure TranscriptionOutput) :
    Counted s ((action ⟨now, id, answer⟩ pc).run s) := by
  -- A claim brings a Recording nearer; of the attempts the start and the end are shown.
  cases pc with
  | ready last => exact counted_local (by simp)
  | began t =>
    refine counted_silent (claimReceivedTx_transacts.andThen ?_)
    rintro o s' (⟨rfl, rfl, -⟩ | ⟨x, r, rfl, hr, hst, hv⟩)
    · exact ⟨rfl, rfl, .inl rfl⟩
    · refine ⟨rfl, rfl, .inr ⟨x, ?_⟩⟩
      have hs := Caller.status_of_update (q := r.moved .transcribing t) (congrArg View.recording hv) x
      rw [if_pos (show x = (r.moved .transcribing t).id from (Store.recording_id hr).symm)] at hs
      rw [Store.distance_eq hr, hst]
      unfold Store.distance
      rw [hs]
      simp [RecordingRow.moved, RecordingStatus.distance]
  | confirming t x => exact counted_reads (f := fun r => Pc.claimed t r 0) requireRecording_reads
  | unclaimed t => exact counted_reads (f := fun rows => Pc.loading t rows []) reads_query
  | loading t rows candidates =>
    cases rows with
    | nil =>
      unfold action
      dsimp only
      cases pickDueRetry t candidates <;> exact counted_local (by simp)
    | cons row rows =>
      exact counted_reads (f := fun r => Pc.loading t rows (candidates ++ [transcriptionCandidate row r]))
        requireRecording_reads
  | claimed t recording seen =>
    refine counted_transact Service.started_transacts ?_
    rintro v s' (⟨rfl, rfl, -⟩ | ⟨q, n, first, rfl, -⟩)
    · exact ⟨by simp, .inl rfl⟩
    · exact ⟨by simp [Event.ofWorker], .inr (.inr ⟨_, List.mem_singleton.mpr rfl, rfl⟩)⟩
  | started recording a start => exact counted_local (by simp [Event.ofWorker])
  | calling recording a start => exact counted_local (by simp [Event.ofWorker])
  | answered recording a start t result =>
    cases result with
    | ok output => exact counted_ends succeedTranscriptionTx_transacts (by simp)
    | error failure =>
      cases failure with
      | terminal code message => exact counted_ends failTranscriptionTx_transacts (by simp)
      | retryable code message =>
        unfold action record
        dsimp only
        split
        · exact counted_ends failTranscriptionTx_transacts (by simp)
        · exact counted_ends retryTranscription_transacts (by simp)
  | confirmingTranscript x =>
    exact counted_reads (f := fun _ => Pc.ready (some .worked)) requireTranscript_reads
  | confirmingFailure x =>
    exact counted_reads (f := fun _ => Pc.ready (some .worked)) requireRecording_reads

theorem Routing.action_counted (route : Recording → RoutingDecision) (pc : Pc) :
    Counted s ((action route ⟨now, id, ()⟩ pc).run s) := by
  have lowers : ∀ {s' : Store} {q r : RecordingRow} {x : String}, s.recording x = some r →
      r.status = .routing → s'.recording = Function.update s.recording q.id (some q) → q.id = x →
      q.status.distance < 2 → ∃ x, s'.distance x < s.distance x := by
    intro s' q r x hr hst hv hid hd
    refine ⟨x, ?_⟩
    have hs := Caller.status_of_update hv x
    rw [if_pos hid.symm] at hs
    rw [Store.distance_eq hr, hst]
    unfold Store.distance
    rw [hs]
    exact hd
  cases pc with
  | ready last => exact counted_local (by simp)
  | began t =>
    rcases @Routing.began_run s route ⟨now, id, ()⟩ t with ⟨x, -, hrun⟩ | hrun <;> rw [hrun] <;>
      exact ⟨fun v hv => by cases hv; simp, .inl rfl⟩
  | confirming t x => exact counted_reads (f := fun r => Pc.deciding t r) requireRecording_reads
  | deciding t recording =>
    unfold action
    dsimp only
    split <;> exact counted_local (by simp)
  | backlogging t x =>
    rcases @Routing.backlogging_run s route ⟨now, id, ()⟩ t x with
      ⟨r, s₁, hr, hst, hv, hrun⟩ | ⟨r, -, -, hrun⟩ | ⟨-, hrun⟩ <;> rw [hrun]
    · exact ⟨fun v hv => by cases hv; simp, .inr (.inl (lowers (q := r.moved .backlogged t) hr hst
        (congrArg View.recording hv) (show r.id = x from Store.recording_id hr)
        (by simp [RecordingRow.moved, RecordingStatus.distance])))⟩
    · exact ⟨fun v hv => by cases hv; simp, .inl rfl⟩
    · exact ⟨fun v hv => (by cases hv), .inl rfl⟩
  | selecting t x sink =>
    refine counted_silent (routeToSinkTx_transacts.andThen ?_)
    rintro claimed s' (⟨rfl, rfl, -⟩ | ⟨rfl, r, hst, hsel⟩)
    · exact ⟨rfl, rfl, .inl rfl⟩
    · exact ⟨rfl, rfl, .inr (lowers hsel.1 hst (Caller.recording_of_selects hsel)
        (show r.id = x from Store.recording_id hsel.1)
        (by simp [RecordingRow.moved, RecordingStatus.distance]))⟩
  | confirmingBacklog x =>
    exact counted_reads (f := fun _ => Pc.ready (some .worked)) requireRecording_reads
  | confirmingDelivery x =>
    exact counted_reads (f := fun _ => Pc.ready (some .worked)) requireDelivery_reads

theorem Delivering.action_counted (pc : Pc) (answer : Except WorkerFailure Unit) :
    Counted s ((action ⟨now, id, answer⟩ pc).run s) := by
  cases pc with
  | ready last => exact counted_local (by simp)
  | began t => exact counted_reads (f := fun rows => Pc.loading t rows []) reads_query
  | loading t rows candidates =>
    cases rows with
    | nil =>
      unfold action
      dsimp only
      cases pickDueDelivery t candidates <;> exact counted_local (by simp)
    | cons row rows =>
      exact counted_reads (f := fun d => Pc.loadingRecording t row rows candidates d) requireDelivery_reads
  | loadingRecording t row rows candidates delivery =>
    exact counted_reads (f := fun r => Pc.loadingTranscript t row rows candidates delivery r)
      requireRecording_reads
  | loadingTranscript t row rows candidates delivery recording =>
    exact counted_reads
      (f := fun tr => Pc.loading t rows (candidates ++ [deliveryCandidate row delivery recording tr]))
      requireTranscript_reads
  | claimed t candidate =>
    refine counted_transact Service.delivery_started_transacts ?_
    rintro v s' (⟨rfl, rfl, -⟩ | ⟨rfl, -⟩)
    · exact ⟨by simp, .inl rfl⟩
    · exact ⟨by simp [Event.ofWorker], .inr (.inr ⟨_, List.mem_singleton.mpr rfl, rfl⟩)⟩
  | started candidate a => exact counted_local (by simp [Event.ofWorker])
  | calling candidate a => exact counted_local (by simp [Event.ofWorker])
  | answered candidate a t result =>
    cases result with
    | ok u => exact counted_ends succeedDeliveryTx_transacts (by simp)
    | error failure =>
      cases failure with
      | terminal code message => exact counted_ends failDeliveryTx_transacts (by simp)
      | retryable code message =>
        unfold action record
        dsimp only
        split
        · exact counted_ends failDeliveryTx_transacts (by simp)
        · exact counted_ends retryDelivery_transacts (by simp)
  | confirming x => exact counted_reads (f := fun _ => Pc.ready (some .worked)) requireDelivery_reads

end Ticks

end Telegraph
