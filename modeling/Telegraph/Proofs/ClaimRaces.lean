import Telegraph.Proofs.Told

namespace Telegraph
open Lib Program Lib.Retry SqliteStore Function

namespace SqliteStore
variable {s : Store} {a x : String} {t : Int}

theorem claimAttempt_inFlight {δ : Type} {attempts : Store → AttemptTable δ}
    {insert : Store → Attempt δ → Except StorageError Store} {c : Connection Store}
    (h : (attempts c.view).inFlight x = true) :
    (claimAttempt attempts insert a x t).exec c = (.ok none, c) := by
  unfold claimAttempt
  rw [bind_eq, exec_bind, exec_query]
  dsimp only
  rw [if_pos h]
  rfl

/-- While an attempt is in flight the claim of another one comes back empty. -/
theorem startTranscriptionAttempt_inFlight (h : s.transcriptionAttempts.inFlight x = true) :
    (startTranscriptionAttempt a x t).exec ⟨s, none⟩ = (.ok none, ⟨s, none⟩) := by
  unfold startTranscriptionAttempt
  rw [bind_eq, exec_bind, exec_beginTx]
  dsimp only
  rw [bind_eq, exec_bind, claimAttempt_inFlight h]
  rfl

theorem startDeliveryAttempt_inFlight (h : s.deliveryAttempts.inFlight x = true) :
    (startDeliveryAttempt a x t).exec ⟨s, none⟩ = (.ok none, ⟨s, none⟩) := by
  unfold startDeliveryAttempt
  rw [bind_eq, exec_bind, exec_beginTx]
  dsimp only
  rw [bind_eq, exec_bind, claimAttempt_inFlight h]
  rfl

end SqliteStore

theorem transact_bind_of_exec {κ β : Type} {p : Query β} {f : β → Query (κ × List Event)} {s : Store}
    {b : β} {r : κ × List Event} (hp : p.exec ⟨s, none⟩ = (.ok b, ⟨s, none⟩)) (hf : f b = done r) :
    (transact (p.bind f)).run s = (s, .ok r) := by
  unfold transact Action.run run
  dsimp only
  rw [exec_bind, hp]
  dsimp only
  rw [hf]
  rfl

/-- Only active work is started. -/
theorem Ledger.Change.active {δ : Type} {p : Policy} {clock t : Int} {l l' : Ledger δ}
    {moves : List Move} (h : l.Change p clock moves l') (hm : .started t ∈ moves) :
    l.phase = .active := by
  cases h with
  | start _ _ _ hp => exact hp
  | _ => simp at hm

theorem Board.Inv.active {ι δ : Type} [DecidableEq ι] {b b' : Board ι δ} {p : Policy}
    {moves history : String → List Move} (h : b.Inv p history) (hs : b.Step p moves b') {x : String}
    {t : Int} (hm : .started t ∈ moves x) : (b.items x).phase = .active := by
  rcases h.change hs x with hc | ⟨_, hn, _⟩
  · exact hc.active hm
  · rw [hn] at hm
    cases hm

theorem started_history {item : Item} {a : String} {t : Int} {events : List Event}
    (h : .started item a t ∈ events) : .started t ∈ history item events :=
  List.mem_filterMap.mpr ⟨_, h, if_pos rfl⟩

namespace Store
variable {s : Store} {x : String}

theorem transcribing_of_active (h : (s.view.transcriptionLedger x).phase = .active) :
    ∃ r, s.recording x = some r ∧ r.status = .transcribing := by
  change (s.view.transcriptionStage x).1 = _ at h
  cases hr : s.recording x with
  | none =>
    rw [View.transcriptionStage_of_none (v := s.view) hr] at h
    cases h
  | some r =>
    rw [View.transcriptionStage_of_recording (v := s.view) hr] at h
    refine ⟨r, rfl, ?_⟩
    cases hs : r.status <;> rw [hs] at h <;> first | rfl | cases h

theorem delivering_of_active (h : (s.view.deliveryLedger x).phase = .active) :
    ∃ d, s.delivery x = some d ∧ d.status = .delivering := by
  change (s.view.deliveryStage x).1 = _ at h
  cases hd : s.delivery x with
  | none =>
    rw [View.deliveryStage_of_none (v := s.view) hd] at h
    cases h
  | some d =>
    rw [View.deliveryStage_of_delivery (v := s.view) hd] at h
    refine ⟨d, rfl, ?_⟩
    cases hs : d.status <;> rw [hs] at h <;> first | rfl | cases h

end Store

namespace Service
variable {ι : Type} {c c' : Service ι} {b : Board ι String} {d : Board ι Int}
variable {trace events : List Event} {route : Recording → RoutingDecision}

/-- An attempt is only ever started of work in progress. -/
def StartsOnlyActive (c : Service ι) (events : List Event) : Prop :=
  (∀ x a t, .started (.transcription x) a t ∈ events →
    ∃ r, c.store.recording x = some r ∧ r.status = .transcribing) ∧
  ∀ x a t, .started (.delivery x) a t ∈ events →
    ∃ e, c.store.delivery x = some e ∧ e.status = .delivering

/-- Another tick has started an attempt of the Recording since this one saw it. -/
def TranscriptionLost (c : Service ι) (x : String) (seen : Nat) : Prop :=
  c.store.transcriptionAttempts.inFlight x = true ∨
    (c.store.transcriptionAttempts.lastNumber x).getD 0 ≠ seen

/-- Another tick has started an attempt of the Delivery since this one saw it. -/
def DeliveryLost (c : Service ι) (candidate : DeliveryCandidate) : Prop :=
  c.store.deliveryAttempts.inFlight candidate.delivery.id = true ∨
    c.store.deliveryAttempts.lastNumber candidate.delivery.id ≠ candidate.lastAttemptNumber

/-- A tick that lost the race for its work does nothing and returns idle. -/
def LoserIdles (c : Service ι) (input : Input ι) (c' : Service ι) (events : List Event) : Prop :=
  match input with
  | .transcribe i _ _ => ∀ t recording seen, c.transcribers i = .claimed t recording seen →
      c.TranscriptionLost recording.id seen → c'.store = c.store ∧ c'.running = c.running ∧
        events = [] ∧ c'.transcribers i = .ready (some .idle)
  | .deliver i _ _ => ∀ t candidate, c.deliverers i = .claimed t candidate →
      c.DeliveryLost candidate → c'.store = c.store ∧ c'.running = c.running ∧
        events = [] ∧ c'.deliverers i = .ready (some .idle)
  | _ => True

variable [DecidableEq ι]

theorem Accounted.starts_active (h : c.Accounted trace b d) {now : Int} {input : Input ι}
    (hu : c.Undisturbed input) (hs : c.step route now input = some (c', events)) :
    c.StartsOnlyActive events := by
  obtain ⟨b', d', _, hb, hd⟩ := h.step hu hs
  have hle := (step_some hs).1.1
  constructor
  · intro x a t hm
    apply Store.transcribing_of_active
    rw [h.refines.transcriptions]
    exact (h.transcription.pass (h.refines.transcription_clock ▸ hle)).active hb (started_history hm)
  · intro x a t hm
    apply Store.delivering_of_active
    rw [h.refines.deliveries]
    exact (h.delivery.pass (h.refines.delivery_clock ▸ hle)).active hd (started_history hm)

omit [DecidableEq ι] in
theorem undisturbed_transcription {i : ι} {id : String} {reply : Except WorkerFailure TranscriptionOutput}
    {t : Int} {recording : Recording} {seen : Nat}
    (hpc : c.transcribers i = .claimed t recording seen) : c.Undisturbed (.transcribe i id reply) ↔
      (c.store.transcriptionAttempts.inFlight recording.id = true ∨
        (c.store.transcriptionAttempts.lastNumber recording.id).getD 0 = seen) := by
  unfold Undisturbed
  dsimp only
  rw [hpc]

omit [DecidableEq ι] in
theorem undisturbed_delivery {i : ι} {id : String} {reply : Except WorkerFailure Unit} {t : Int}
    {candidate : DeliveryCandidate} (hpc : c.deliverers i = .claimed t candidate) :
    c.Undisturbed (.deliver i id reply) ↔
      (c.store.deliveryAttempts.inFlight candidate.delivery.id = true ∨
        c.store.deliveryAttempts.lastNumber candidate.delivery.id = candidate.lastAttemptNumber) := by
  unfold Undisturbed
  dsimp only
  rw [hpc]

theorem onTranscriber_self {i : ι} {pc : Transcription.Pc} : (c.onTranscriber i pc).transcribers i = pc :=
  update_self ..

theorem onDeliverer_self {i : ι} {pc : Delivering.Pc} : (c.onDeliverer i pc).deliverers i = pc :=
  update_self ..

theorem loser_idles {now : Int} {input : Input ι} (hu : c.Undisturbed input)
    (hs : c.step route now input = some (c', events)) : c.LoserIdles input c' events := by
  have he := (step_some hs).2
  unfold apply at he
  cases input with
  | transcribe i id reply =>
    intro t recording seen hpc hlost
    have hopen := hlost.elim (fun ho => ho) ((undisturbed_transcription hpc).mp hu).resolve_right
    have hrun : (Transcription.action ⟨now, id, reply⟩ (.claimed t recording seen)).run c.store =
        (c.store, .ok (.ready (some .idle), [])) :=
      transact_bind_of_exec (startTranscriptionAttempt_inFlight hopen) rfl
    dsimp only at he
    rw [hpc, hrun] at he
    cases he
    exact ⟨rfl, rfl, rfl, update_self ..⟩
  | deliver i id reply =>
    intro t candidate hpc hlost
    have hopen := hlost.elim (fun ho => ho) ((undisturbed_delivery hpc).mp hu).resolve_right
    have hrun : (Delivering.action ⟨now, id, reply⟩ (.claimed t candidate)).run c.store =
        (c.store, .ok (.ready (some .idle), [])) :=
      transact_bind_of_exec (startDeliveryAttempt_inFlight hopen) rfl
    dsimp only at he
    rw [hpc, hrun] at he
    cases he
    exact ⟨rfl, rfl, rfl, update_self ..⟩
  | _ => trivial

/-- A tick that lost the race to an attempt already over does not notice. -/
theorem undisturbed_of_idle {now : Int} {input : Input ι}
    (hs : c.step route now input = some (c', events)) (hi : c.LoserIdles input c' events) :
    c.Undisturbed input := by
  have he := (step_some hs).2
  unfold apply at he
  cases input with
  | transcribe i id reply =>
    cases hpc : c.transcribers i with
    | claimed t recording seen =>
      rw [undisturbed_transcription hpc]
      by_contra hn
      obtain ⟨hopen, hseen⟩ := not_or.mp hn
      obtain ⟨_, _, _, hidle⟩ := hi t recording seen hpc (Or.inr hseen)
      dsimp only at he
      rw [hpc] at he
      rcases settle_eq he with ⟨s, next, hr, rfl⟩ | ⟨s, rfl, _⟩
      · rcases started_transacts.run_ok (transact_ok hr) with ⟨_, _, ho⟩ | ⟨q, n, first, hnext, _⟩
        · exact hopen ho
        · cases hnext
          cases onTranscriber_self.symm.trans hidle
      · cases hidle
    | _ =>
      unfold Undisturbed
      dsimp only
      rw [hpc]
      trivial
  | deliver i id reply =>
    cases hpc : c.deliverers i with
    | claimed t candidate =>
      rw [undisturbed_delivery hpc]
      by_contra hn
      obtain ⟨hopen, hseen⟩ := not_or.mp hn
      obtain ⟨_, _, _, hidle⟩ := hi t candidate hpc (Or.inr hseen)
      dsimp only at he
      rw [hpc] at he
      rcases settle_eq he with ⟨s, next, hr, rfl⟩ | ⟨s, rfl, _⟩
      · rcases delivery_started_transacts.run_ok (transact_ok hr) with ⟨_, _, ho⟩ | ⟨hnext, _⟩
        · exact hopen ho
        · cases hnext
          cases onDeliverer_self.symm.trans hidle
      · cases hidle
    | _ =>
      unfold Undisturbed
      dsimp only
      rw [hpc]
      trivial
  | _ => trivial

/-- Work claims exclude finished work as long as no tick starts what another one has
both started and finished since it looked; that tick repeats the work. -/
theorem claims_exclude_iff (hr : Runs route (fun c input => c.Undisturbed input) initial trace c)
    {now : Int} {input : Input ι} (hs : c.step route now input = some (c', events)) :
    (c.StartsOnlyActive events ∧ c.LoserIdles input c' events) ↔ c.Undisturbed input := by
  constructor
  · exact fun h => undisturbed_of_idle hs h.2
  · intro hu
    obtain ⟨b, d, h, _, _⟩ := initial_accounted.runs hr
    exact ⟨h.starts_active hu hs, loser_idles hu hs⟩

/-- The tick about to start an attempt meets one in flight, or the last one it saw. -/
def sawLast (c : Service ι) : Input ι → Bool
  | .transcribe i _ _ => match c.transcribers i with
    | .claimed _ recording seen => c.store.transcriptionAttempts.inFlight recording.id ||
        decide ((c.store.transcriptionAttempts.lastNumber recording.id).getD 0 = seen)
    | _ => true
  | .deliver i _ _ => match c.deliverers i with
    | .claimed _ candidate => c.store.deliveryAttempts.inFlight candidate.delivery.id ||
        decide (c.store.deliveryAttempts.lastNumber candidate.delivery.id = candidate.lastAttemptNumber)
    | _ => true
  | _ => true

omit [DecidableEq ι] in
theorem undisturbed_of_sawLast {input : Input ι} (h : c.sawLast input = true) : c.Undisturbed input := by
  cases input with
  | transcribe i id reply =>
    unfold sawLast at h
    dsimp only at h
    cases hpc : c.transcribers i with
    | claimed t recording seen =>
      rw [hpc] at h
      exact (undisturbed_transcription hpc).mpr (by simpa using h)
    | _ => simp [Undisturbed, hpc]
  | deliver i id reply =>
    unfold sawLast at h
    dsimp only at h
    cases hpc : c.deliverers i with
    | claimed t candidate =>
      rw [hpc] at h
      exact (undisturbed_delivery hpc).mpr (by simpa using h)
    | _ => simp [Undisturbed, hpc]
  | _ => trivial

/-- A run given by its inputs, as long as no step is disturbed. -/
def playUndisturbed (route : Recording → RoutingDecision) (c : Service ι) :
    List (Int × Input ι) → Option (Service ι × List Event)
  | [] => some (c, [])
  | (now, input) :: rest =>
    if c.sawLast input then
      (c.step route now input).bind fun r =>
        (playUndisturbed route r.1 rest).map fun q => (q.1, r.2 ++ q.2)
    else none

theorem Runs.playUndisturbed {c₀ : Service ι} {later : List Event} {inputs : List (Int × Input ι)}
    (hr : Runs route (fun c input => c.Undisturbed input) c₀ trace c)
    (hp : c.playUndisturbed route inputs = some (c', later)) :
    Runs route (fun c input => c.Undisturbed input) c₀ (trace ++ later) c' := by
  induction inputs generalizing c trace later with
  | nil =>
    cases hp
    rwa [List.append_nil]
  | cons first rest ih =>
    obtain ⟨hsaw, hp⟩ := Option.ite_none_right_eq_some.mp hp
    obtain ⟨⟨c₁, events⟩, hs, hrest⟩ := Option.bind_eq_some_iff.mp hp
    obtain ⟨⟨last, tail⟩, ht, he⟩ := Option.map_eq_some_iff.mp hrest
    cases he
    rw [← List.append_assoc]
    exact ih (.step first.1 first.2 hr (undisturbed_of_sawLast hsaw) hs) ht

/-- Two Delivery workers pick the same candidate, and the first has called the Sink. -/
def contested : List (Int × Input Bool) :=
  (0, .recover) :: (0, .upload firstUpload) ::
    everySecond 8 1 (.transcribe true "t1" (.ok ⟨"scribe", "hello", "\x7b\x7d", none, none⟩)) ++
    everySecond 6 10 (.route true "d1") ++ everySecond 6 20 (.deliver false "a2" (.ok ())) ++
    everySecond 7 26 (.deliver true "a1" (.ok ()))

def candidateOf : Delivering.Pc → Option DeliveryCandidate
  | .claimed _ candidate => some candidate
  | _ => none

theorem claimed_of_candidateOf {pc : Delivering.Pc} {candidate : DeliveryCandidate}
    (h : candidateOf pc = some candidate) : ∃ t, pc = .claimed t candidate := by
  cases pc with
  | claimed t seen =>
    cases h
    exact ⟨t, rfl⟩
  | _ => cases h

/-- The other worker finds the attempt in flight, starts nothing and returns idle. -/
theorem claims_exclude_contested : ∃ (c c' : Service Bool) (trace : List Event)
      (candidate : DeliveryCandidate), Runs toNotes (fun c input => c.Undisturbed input) initial trace c ∧
    candidateOf (c.deliverers false) = some candidate ∧ c.DeliveryLost candidate ∧
    c.step toNotes (Duration.seconds 40) (.deliver false "a2" (.ok ())) = some (c', []) ∧
    c.StartsOnlyActive [] ∧ c'.store = c.store ∧ c'.deliverers false = .ready (some .idle) := by
  have hp : ((initial : Service Bool).playUndisturbed toNotes contested).bind (fun r =>
      (r.1.step toNotes (Duration.seconds 40) (.deliver false "a2" (.ok ()))).map fun q =>
        ((candidateOf (r.1.deliverers false)).map fun candidate =>
          r.1.store.deliveryAttempts.inFlight candidate.delivery.id, q.2)) = some (some true, []) := by
    decide +kernel
  obtain ⟨⟨c, trace⟩, hplay, hp⟩ := Option.bind_eq_some_iff.mp hp
  obtain ⟨⟨c', events⟩, hstep, hseen⟩ := Option.map_eq_some_iff.mp hp
  obtain ⟨hlooked, rfl⟩ := Prod.mk.inj hseen
  obtain ⟨candidate, hcandidate, hopen⟩ := Option.map_eq_some_iff.mp hlooked
  have hruns := Runs.start.playUndisturbed hplay
  obtain ⟨t, hpc⟩ := claimed_of_candidateOf hcandidate
  have hu : c.Undisturbed (.deliver false "a2" (.ok ())) := (undisturbed_delivery hpc).mpr (Or.inl hopen)
  obtain ⟨hstarts, hidles⟩ := (claims_exclude_iff hruns hstep).mpr hu
  obtain ⟨hstore, -, -, hidle⟩ := hidles t candidate hpc (Or.inl hopen)
  exact ⟨c, c', trace, candidate, hruns, hcandidate, Or.inl hopen, hstep, hstarts, hstore, hidle⟩

/-- Two Delivery workers: the second picks its candidate before the first delivers it. -/
def staleCandidate : List (Int × Input Bool) :=
  (0, .recover) :: (0, .upload firstUpload) ::
    everySecond 8 1 (.transcribe true "t1" (.ok ⟨"scribe", "hello", "\x7b\x7d", none, none⟩)) ++
    everySecond 6 10 (.route true "d1") ++ everySecond 6 20 (.deliver false "a2" (.ok ())) ++
    everySecond 11 26 (.deliver true "a1" (.ok ()))

/-- The second worker starts an attempt of the delivered Delivery, calls the Sink
again, cannot record the answer and takes the process down. -/
theorem delivered_work_claimed_again : ∃ (c c' last : Service Bool) (trace events later : List Event),
    Run toNotes trace c ∧ (c.store.delivery "d1").map (·.status) = some .delivered ∧
      c.step toNotes (Duration.seconds 40) (.deliver false "a2" (.ok ())) = some (c', events) ∧
      ¬ (c.StartsOnlyActive events ∧ c.LoserIdles (.deliver false "a2" (.ok ())) c' events) ∧
      c'.play toNotes (everySecond 3 41 (.deliver false "a2" (.ok ()))) = some (last, later) ∧
      .called (.delivery "d1") "a2" ∈ later ∧ last.running = false := by
  have hp : ((Service.initial : Service Bool).play toNotes staleCandidate).bind (fun r =>
      (r.1.step toNotes (Duration.seconds 40) (.deliver false "a2" (.ok ()))).bind fun q =>
        (q.1.play toNotes (everySecond 3 41 (.deliver false "a2" (.ok ())))).map fun l =>
          ((r.1.store.delivery "d1").map (·.status), q.2, l.2, l.1.running)) =
      some (some .delivered, [.started (.delivery "d1") "a2" (Duration.seconds 20)],
        [.called (.delivery "d1") "a2", .answered (.delivery "d1") "a2" true], false) := by
    decide +kernel
  obtain ⟨⟨c, trace⟩, hplay, hp⟩ := Option.bind_eq_some_iff.mp hp
  obtain ⟨⟨c', events⟩, hstep, hp⟩ := Option.bind_eq_some_iff.mp hp
  obtain ⟨⟨last, later⟩, hlater, hp⟩ := Option.map_eq_some_iff.mp hp
  simp only [Prod.mk.injEq] at hp
  obtain ⟨hst, rfl, rfl, hrun⟩ := hp
  refine ⟨c, c', last, trace, _, _, run_of_play hplay, hst, hstep, fun hx => ?_, hlater, by simp, hrun⟩
  obtain ⟨e, he, hdelivering⟩ := hx.1.2 "d1" "a2" _ (List.mem_singleton.mpr rfl)
  rw [he] at hst
  simp [hdelivering] at hst

end Service
end Telegraph
