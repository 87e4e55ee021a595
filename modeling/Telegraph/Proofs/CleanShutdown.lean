import Telegraph.Proofs.TickEdges
import Telegraph.Proofs.TicksSucceed
import Telegraph.Runtime

namespace Telegraph
open Lib Program SqliteStore Function

namespace Service
variable {c c' : Process} {route : Recording → RoutingDecision} {now : Int} {w : Work} {events : List Event}

/-- The worker is between two ticks. -/
def Between (c : Process) : Loop → Prop
  | .transcription => ∃ last, c.transcribers () = .ready last
  | .routing => ∃ last, c.routers () = .ready last
  | .delivery => ∃ last, c.deliverers () = .ready last

theorem between_of_outcome {l : Loop} {o : WorkOutcome} (h : c.outcome l = some o) : c.Between l := by
  cases l with
  | transcription =>
    unfold outcome at h
    cases hpc : c.transcribers () with
    | ready last => exact ⟨last, hpc⟩
    | _ => simp [hpc] at h
  | routing =>
    unfold outcome at h
    cases hpc : c.routers () with
    | ready last => exact ⟨last, hpc⟩
    | _ => simp [hpc] at h
  | delivery =>
    unfold outcome at h
    cases hpc : c.deliverers () with
    | ready last => exact ⟨last, hpc⟩
    | _ => simp [hpc] at h

theorem stopped_between (l : Loop) : c.stopped.Between l := by
  cases l <;> exact ⟨none, rfl⟩

theorem settle_thrown {κ : Type} (place : Process → κ → Process)
    (r : Store × Except StorageError (κ × List Event)) :
    (∃ e, thrown r.2 = some e ∧ c.settle place r = (stopped { c with store := r.1 }, [])) ∨
      ∃ next events, thrown r.2 = none ∧ c.settle place r = (place { c with store := r.1 } next, events) := by
  obtain ⟨s, e | ⟨next, events⟩⟩ := r
  · exact .inl ⟨e, rfl, rfl⟩
  · exact .inr ⟨next, events, rfl, rfl⟩

/-- The worker of `l` made a step. -/
def Goes (c c' : Process) : Loop → Prop
  | .transcription => (c.transcribers ()).Goes (c'.transcribers ())
  | .routing => (c.routers ()).Goes (c'.routers ())
  | .delivery => (c.deliverers ()).Goes (c'.deliverers ())

/-- The worker of `l` is where it was. -/
def Rests (c c' : Process) : Loop → Prop
  | .transcription => c'.transcribers () = c.transcribers ()
  | .routing => c'.routers () = c.routers ()
  | .delivery => c'.deliverers () = c.deliverers ()

theorem Rests.between {l : Loop} (h : c.Rests c' l) (hb : c.Between l) : c'.Between l := by
  cases l with
  | transcription =>
    obtain ⟨last, hl⟩ := hb
    exact ⟨last, h.trans hl⟩
  | routing =>
    obtain ⟨last, hl⟩ := hb
    exact ⟨last, h.trans hl⟩
  | delivery =>
    obtain ⟨last, hl⟩ := hb
    exact ⟨last, h.trans hl⟩

/-- A step of a worker that fails ends the process; one that does not leaves the other
workers where they were. -/
theorem work_cases (hs : c.step route now w.input = some (c', events)) :
    (∃ e, c.failure route now w = some e ∧ c'.running = false) ∨
      (c.failure route now w = none ∧ c'.running = c.running ∧ c.Goes c' w.loop ∧
        ∀ l, l ≠ w.loop → c.Rests c' l) := by
  obtain ⟨-, he⟩ := step_some hs
  cases w with
  | transcribe id answer =>
    cases hr : (Transcription.action ⟨now, id, answer⟩ (c.transcribers ())).run c.store with
    | mk s o =>
      have hf : c.failure route now (.transcribe id answer) = thrown o := by
        simp only [failure, hr]
      replace he : ({ c with clock := now } : Process).settle (onTranscriber · ()) (s, o) = (c', events) := by
        rw [← hr]
        exact he
      cases o with
      | error e =>
        cases he
        exact .inl ⟨e, hf, rfl⟩
      | ok r =>
        cases he
        refine .inr ⟨hf, rfl, Transcription.action_goes hr, fun l hl => ?_⟩
        cases l with
        | transcription => exact absurd rfl hl
        | routing => rfl
        | delivery => rfl
  | route id =>
    cases hr : (Routing.action route ⟨now, id, ()⟩ (c.routers ())).run c.store with
    | mk s o =>
      have hf : c.failure route now (.route id) = thrown o := by
        simp only [failure, hr]
      replace he : ({ c with clock := now } : Process).settle (onRouter · ()) (s, o) = (c', events) := by
        rw [← hr]
        exact he
      cases o with
      | error e =>
        cases he
        exact .inl ⟨e, hf, rfl⟩
      | ok r =>
        cases he
        refine .inr ⟨hf, rfl, Routing.action_goes hr, fun l hl => ?_⟩
        cases l with
        | transcription => rfl
        | routing => exact absurd rfl hl
        | delivery => rfl
  | deliver id answer =>
    cases hr : (Delivering.action ⟨now, id, answer⟩ (c.deliverers ())).run c.store with
    | mk s o =>
      have hf : c.failure route now (.deliver id answer) = thrown o := by
        simp only [failure, hr]
      replace he : ({ c with clock := now } : Process).settle (onDeliverer · ()) (s, o) = (c', events) := by
        rw [← hr]
        exact he
      cases o with
      | error e =>
        cases he
        exact .inl ⟨e, hf, rfl⟩
      | ok r =>
        cases he
        refine .inr ⟨hf, rfl, Delivering.action_goes hr, fun l hl => ?_⟩
        cases l with
        | transcription => rfl
        | routing => rfl
        | delivery => exact absurd rfl hl

end Service

namespace Service
variable {c c' : Process} {trace events : List Event} {route : Recording → RoutingDecision} {now : Int}
variable {input : Input Unit}

theorem step_clock (hs : c.step route now input = some (c', events)) : c'.clock = now := by
  obtain ⟨-, he⟩ := step_some hs
  cases input with
  | transcribe i id answer =>
    rcases @settle_thrown { c with clock := now } _ (onTranscriber · i) _ with ⟨_, _, hr⟩ | ⟨_, _, _, hr⟩ <;>
      cases hr.symm.trans he <;> rfl
  | route i id =>
    rcases @settle_thrown { c with clock := now } _ (onRouter · i) _ with ⟨_, _, hr⟩ | ⟨_, _, _, hr⟩ <;>
      cases hr.symm.trans he <;> rfl
  | deliver i id answer =>
    rcases @settle_thrown { c with clock := now } _ (onDeliverer · i) _ with ⟨_, _, hr⟩ | ⟨_, _, _, hr⟩ <;>
      cases hr.symm.trans he <;> rfl
  | refuse | crash =>
    cases he
    rfl
  | recover =>
    cases he
    rfl
  | _ =>
    simp only [apply, answer] at he
    split at he <;> cases he <;> rfl

/-- The inputs that are committed requests. -/
def IsRequest : Input Unit → Prop
  | .upload _ | .manualRoute _ | .manualRetryTranscription _ | .manualRetryDelivery _ => True
  | _ => False

/-- A request moves no worker. -/
theorem request_keeps (hs : c.step route now input = some (c', events)) (hi : IsRequest input) :
    c'.running = c.running ∧ c'.clock = now ∧ ∀ l, c.Rests c' l := by
  have keeps : ∀ {α : Type} {shows : α → List Event} {r : Store × Except StorageError α},
      ({ c with clock := now } : Process).answer shows r = (c', events) →
        c'.running = c.running ∧ c'.clock = now ∧ ∀ l, c.Rests c' l := by
    intro α shows r he
    obtain ⟨s, e | a⟩ := r <;> cases he <;> exact ⟨rfl, rfl, fun l => by cases l <;> rfl⟩
  obtain ⟨-, he⟩ := step_some hs
  cases input with
  | upload new => exact keeps he
  | manualRoute input => exact keeps he
  | manualRetryTranscription input => exact keeps he
  | manualRetryDelivery input => exact keeps he
  | _ => exact hi.elim

/-- A step that leaves the process down leaves every worker between two ticks. -/
theorem step_between (hs : c.step route now input = some (c', events)) (hstop : c'.running = false)
    (l : Loop) : c'.Between l := by
  obtain ⟨⟨-, -, hadmits⟩, he⟩ := step_some hs
  cases input with
  | transcribe i id answer =>
    rcases @settle_thrown { c with clock := now } _ (onTranscriber · i) _ with ⟨_, _, hr⟩ | ⟨_, _, _, hr⟩
    · cases hr.symm.trans he
      exact stopped_between l
    · cases hr.symm.trans he
      cases hstop.symm.trans hadmits
  | route i id =>
    rcases @settle_thrown { c with clock := now } _ (onRouter · i) _ with ⟨_, _, hr⟩ | ⟨_, _, _, hr⟩
    · cases hr.symm.trans he
      exact stopped_between l
    · cases hr.symm.trans he
      cases hstop.symm.trans hadmits
  | deliver i id answer =>
    rcases @settle_thrown { c with clock := now } _ (onDeliverer · i) _ with ⟨_, _, hr⟩ | ⟨_, _, _, hr⟩
    · cases hr.symm.trans he
      exact stopped_between l
    · cases hr.symm.trans he
      cases hstop.symm.trans hadmits
  | refuse | crash =>
    cases he
    exact stopped_between l
  | recover =>
    cases he
    cases hstop
  | upload new => cases (hstop.symm.trans (request_keeps hs trivial).1).trans hadmits
  | manualRoute input => cases (hstop.symm.trans (request_keeps hs trivial).1).trans hadmits.1
  | manualRetryTranscription input =>
    cases (hstop.symm.trans (request_keeps hs trivial).1).trans hadmits.1
  | manualRetryDelivery input => cases (hstop.symm.trans (request_keeps hs trivial).1).trans hadmits.1

/-- No worker of a process that is down is in a tick. -/
theorem between_of_stopped (hr : Run route trace c) (hstop : c.running = false) (l : Loop) :
    c.Between l := by
  cases hr with
  | start => cases l <;> exact ⟨none, rfl⟩
  | step now input _ _ hs => exact step_between hs hstop l

end Service

/-- No attempt is in flight and no claim is without an attempt. -/
structure Store.Settled (s : Store) : Prop where
  transcriptions : ∀ a ∈ s.transcriptionAttempts.rows, a.finishedAt ≠ none
  deliveries : ∀ a ∈ s.deliveryAttempts.rows, a.finishedAt ≠ none
  claims : ∀ r ∈ s.recordings.rows, Unstarted s r = false

namespace Service
variable {c : Process} {trace : List Event} {route : Recording → RoutingDecision}

theorem Between.no_transcription (h : c.Between .transcription) : (c.transcribers ()).claim = none := by
  obtain ⟨last, hl⟩ := h
  rw [hl]
  rfl

theorem Between.no_delivery (h : c.Between .delivery) : (c.deliverers ()).claim = none := by
  obtain ⟨last, hl⟩ := h
  rw [hl]
  rfl

/-- With every worker between two ticks there is nothing in flight. -/
theorem settled_between (hr : Run route trace c) (hrun : c.running = true) (h : ∀ l, c.Between l) :
    c.store.Settled := by
  obtain ⟨-, b, d, ha, -⟩ := hr.undisturbed
  obtain ⟨ht, hd⟩ := ha.all_finished hrun (fun _ => (h .transcription).no_transcription)
    fun _ => (h .delivery).no_delivery
  refine ⟨ht, hd, fun r hm => ?_⟩
  by_contra hu
  simp only [Unstarted, Bool.not_eq_false, Bool.and_eq_true, beq_iff_eq, List.isEmpty_iff] at hu
  obtain ⟨i, hi⟩ := ha.unstarted_claimed hrun hm hu.1 hu.2
  cases (h .transcription).no_transcription.symm.trans hi

end Service

namespace Runtime
variable {c c' : Runtime} {route : Recording → RoutingDecision} {w : Work}

/-- What a step of a tick can do: it fails and takes the process down, or it goes on,
or it ends and the loop goes where the flag and the outcome send it. -/
theorem tick_cases (h : c.tick route w = some c') :
    ∃ p events, c.service.step route c.clock w.input = some (p, events) ∧
      ((∃ e, c.service.failure route c.clock w = some e ∧ p.running = false ∧
          c' = { c with service := p, phase := .down (some (.finished (.error (.storage e)))) }) ∨
        (p.running = c.service.running ∧ c.service.Goes p w.loop ∧
          (∀ l, l ≠ w.loop → c.service.Rests p l) ∧
          ∃ pc, c' = ({ c with service := p } : Runtime).place w.loop pc ∧
            (pc = .ticking ∧ p.outcome w.loop = none ∨
              pc ≠ .ticking ∧ p.Between w.loop ∧ (c.shutdown = true ↔ pc = .returned)))) := by
  obtain ⟨⟨p, events⟩, hs, rfl⟩ := Option.map_eq_some_iff.mp h
  refine ⟨p, events, hs, ?_⟩
  rcases Service.work_cases hs with ⟨e, hf, hstop⟩ | ⟨hf, hrun, hgoes, hothers⟩
  · simp only [hf]
    exact .inl ⟨e, rfl, hstop, rfl⟩
  · simp only [hf]
    refine .inr ⟨hrun, hgoes, hothers, ?_⟩
    cases ho : p.outcome w.loop with
    | none => exact ⟨.ticking, rfl, .inl ⟨rfl, rfl⟩⟩
    | some o =>
      have hb := Service.between_of_outcome ho
      cases hd : c.shutdown with
      | true => exact ⟨.returned, rfl, .inr ⟨by simp, hb, by simp⟩⟩
      | false => cases o <;> exact ⟨_, rfl, .inr ⟨by simp, hb, by simp⟩⟩

theorem drained_iff : c.drained = true ↔ ∀ l, c.loops l = .returned := by
  simp only [drained, List.all_cons, List.all_nil, Bool.and_true, Bool.and_eq_true, beq_iff_eq]
  refine ⟨fun h l => ?_, fun h => ⟨h _, h _, h _⟩⟩
  cases l with
  | transcription => exact h.1
  | routing => exact h.2.1
  | delivery => exact h.2.2

/-- What every run of the process keeps. -/
structure Sound (route : Recording → RoutingDecision) (c : Runtime) : Prop where
  run : ∃ trace, Service.Run route trace c.service
  clock : c.service.clock ≤ c.clock
  running : c.service.running = c.up
  between : ∀ l, c.loops l ≠ .ticking → c.service.Between l
  clean : c.phase = .down (some (.finished (.ok ()))) → c.service.store.Settled

theorem initial_sound : initial.Sound route :=
  ⟨⟨[], .start⟩, Int.le_refl _, rfl, fun l _ => by cases l <;> exact ⟨none, rfl⟩, fun h => by cases h⟩

theorem Sound.passes (h : c.Sound route) {now : Int} (hle : c.clock ≤ now) :
    ({ c with clock := now } : Runtime).Sound route :=
  ⟨h.run, Int.le_trans h.clock hle, h.running, h.between, h.clean⟩

/-- The process goes down; what it was told to finish, it has. -/
theorem Sound.down (h : c.Sound route) (hy : Timestamp.InYears c.clock) {last : Option Exit}
    (hc : last = some (.finished (.ok ())) → c.service.store.Settled) : (c.down last).Sound route := by
  obtain ⟨trace, hr⟩ := h.run
  have hs : c.service.step route c.clock .crash =
      some (Service.stopped { c.service with clock := c.clock }, []) := if_pos ⟨h.clock, hy, trivial⟩
  refine ⟨⟨_, .step _ _ hr trivial hs⟩, Int.le_refl _, rfl, fun l _ => Service.stopped_between l, ?_⟩
  intro he
  exact hc (Phase.down.inj he)

theorem Sound.request (h : c.Sound route) {input : Input Unit} (hs : c.request route input = some c')
    (hw : ∀ p events, c.service.step route c.clock input = some (p, events) →
      p.running = c.service.running ∧ p.clock = c.clock ∧ ∀ l, c.service.Rests p l) :
    c'.Sound route := by
  obtain ⟨hup, hs⟩ := Option.ite_none_right_eq_some.mp hs
  obtain ⟨⟨p, events⟩, hstep, rfl⟩ := Option.map_eq_some_iff.mp hs
  obtain ⟨hrun, hclock, hb⟩ := hw p events hstep
  obtain ⟨trace, hr⟩ := h.run
  refine ⟨⟨_, .step _ _ hr trivial hstep⟩, Int.le_of_eq hclock, hrun.trans h.running,
    fun l hl => (hb l).between (h.between l hl), fun hp => ?_⟩
  simp [up, show c.phase = _ from hp] at hup

theorem Sound.place (h : c.Sound route) {l : Loop} {pc : LoopPc} (hb : pc ≠ .ticking → c.service.Between l) :
    (c.place l pc).Sound route := by
  refine ⟨h.run, h.clock, h.running, fun k hk => ?_, h.clean⟩
  by_cases hkl : k = l
  · subst k
    exact hb (by simpa only [Runtime.place, update_self] using hk)
  · exact h.between k (by simpa only [Runtime.place, update_of_ne hkl] using hk)

theorem Sound.tick (h : c.Sound route) (hup : c.up = true) (hs : c.tick route w = some c') :
    c'.Sound route := by
  obtain ⟨p, events, hstep, hc⟩ := tick_cases hs
  obtain ⟨trace, hr⟩ := h.run
  have hrun : Service.Run route (trace ++ events) p := .step _ _ hr trivial hstep
  have hclock : p.clock = c.clock := Service.step_clock hstep
  rcases hc with ⟨e, -, hstop, rfl⟩ | ⟨hrunning, -, hothers, pc, rfl, hpc⟩
  · refine ⟨⟨_, hrun⟩, Int.le_of_eq hclock, hstop, fun l _ => ?_, fun hp => by cases hp⟩
    exact Service.between_of_stopped hrun hstop l
  · refine ⟨⟨_, hrun⟩, Int.le_of_eq hclock, hrunning.trans h.running, fun l hl => ?_, fun hp => ?_⟩
    · by_cases hlw : l = w.loop
      · subst l
        rcases hpc with ⟨rfl, -⟩ | ⟨-, hb, -⟩
        · simp [Runtime.place] at hl
        · exact hb
      · exact (hothers l hlw).between (h.between l (by simpa only [Runtime.place, update_of_ne hlw] using hl))
    · simp [up, show c.phase = _ from hp] at hup

/-- A poll of a loop goes on with its tick or begins one, or moves the loop alone. -/
theorem poll_cases (hs : c.poll route w = some c') :
    (c.tick route w = some c' ∧ (c.loops w.loop = .ticking ∨ c.loops w.loop = .top ∧ c.shutdown = false)) ∨
      ∃ pc, c' = c.place w.loop pc ∧ (c.loops w.loop = .top ∧ c.shutdown = true ∧ pc = .returned ∨
        (∃ since, c.loops w.loop = .waiting since) ∧ pc = .top) := by
  unfold Runtime.poll at hs
  cases hl : c.loops w.loop with
  | top =>
    simp only [hl] at hs
    cases hd : c.shutdown with
    | true =>
      simp only [hd, if_true] at hs
      cases hs
      exact .inr ⟨_, rfl, .inl ⟨rfl, rfl, rfl⟩⟩
    | false =>
      simp only [hd, Bool.false_eq_true, if_false] at hs
      exact .inl ⟨hs, .inr ⟨rfl, rfl⟩⟩
  | ticking =>
    simp only [hl] at hs
    exact .inl ⟨hs, .inl rfl⟩
  | waiting since =>
    simp only [hl] at hs
    obtain ⟨-, hs⟩ := Option.ite_none_right_eq_some.mp hs
    cases hs
    exact .inr ⟨_, rfl, .inr ⟨⟨since, rfl⟩, rfl⟩⟩
  | returned =>
    simp only [hl] at hs
    cases hs

theorem Sound.poll (h : c.Sound route) (hup : c.up = true) (hs : c.poll route w = some c') :
    c'.Sound route := by
  rcases poll_cases hs with ⟨hs, -⟩ | ⟨pc, rfl, hl⟩
  · exact h.tick hup hs
  · refine h.place fun _ => h.between w.loop ?_
    rcases hl with ⟨hl, -⟩ | ⟨⟨since, hl⟩, -⟩ <;> simp [hl]

/-- A refusal in a tick takes the process down. -/
theorem refuse_cases {l : Loop} (hs : c.refuse route l = some c') :
    c.loops l = .ticking ∧ ∃ p events, c.service.step route c.clock (.refuse l ()) = some (p, events) ∧
      p.running = false ∧ c' = { c with
        service := p
        phase := .down (some (.finished (.error (.storage (.database .busy))))) } := by
  obtain ⟨hl, hs⟩ := Option.ite_none_right_eq_some.mp hs
  obtain ⟨⟨p, events⟩, hstep, rfl⟩ := Option.map_eq_some_iff.mp hs
  refine ⟨hl, p, events, hstep, ?_, rfl⟩
  obtain ⟨-, he⟩ := Service.step_some hstep
  cases he
  rfl

theorem Sound.refuse (h : c.Sound route) {l : Loop} (hs : c.refuse route l = some c') :
    c'.Sound route := by
  obtain ⟨-, p, events, hstep, hstop, rfl⟩ := refuse_cases hs
  obtain ⟨trace, hr⟩ := h.run
  refine ⟨⟨_, .step _ _ hr trivial hstep⟩, Int.le_of_eq (Service.step_clock hstep), hstop,
    fun l _ => ?_, fun hp => by cases hp⟩
  exact Service.step_between hstep hstop l

theorem Sound.startUp (h : c.Sound route) (hy : Timestamp.InYears c.clock) (hdown : c.up = false)
    {s : Startup} (hs : c.startUp route s = some c') : c'.Sound route := by
  have hstopped : c.service.running = false := h.running.trans hdown
  obtain ⟨trace, hr⟩ := h.run
  have hb := Service.between_of_stopped hr hstopped
  unfold Runtime.startUp at hs
  cases ho : s.opened with
  | error e =>
    simp only [ho] at hs
    cases hs
    exact ⟨⟨trace, hr⟩, h.clock, hstopped, fun l _ => hb l, fun hp => by cases hp⟩
  | ok u =>
    simp only [ho] at hs
    obtain ⟨⟨p, events⟩, hstep, he⟩ := Option.map_eq_some_iff.mp hs
    have hrun : Service.Run route (trace ++ events) p := .step _ _ hr trivial hstep
    obtain ⟨-, hrec⟩ := Service.step_some hstep
    cases hp : s.prepared with
    | error e =>
      simp only [hp] at he
      cases he
      cases hrec
      refine ⟨⟨_, .step c.clock .crash hrun trivial (if_pos ⟨Int.le_refl _, hy, trivial⟩)⟩, Int.le_refl _,
        rfl, fun l _ => Service.stopped_between l, fun hp => by cases hp⟩
    | ok u =>
      simp only [hp] at he
      cases he
      cases hrec
      refine ⟨⟨_, hrun⟩, Int.le_refl _, rfl, fun l _ => ?_, fun hp => by cases hp⟩
      cases l with
      | transcription => exact hb .transcription
      | routing => exact hb .routing
      | delivery => exact hb .delivery

theorem Sound.step (h : c.Sound route) {now : Int} {what : Happening}
    (hs : c.step route (now, what) = some c') : c'.Sound route := by
  obtain ⟨⟨hle, hy⟩, hs⟩ := Option.ite_none_right_eq_some.mp hs
  have h := h.passes hle
  generalize hc : ({ c with clock := now } : Runtime) = d at h hs
  replace hy : Timestamp.InYears d.clock := by
    rw [← hc]
    exact hy
  clear hc
  cases what with
  | start s =>
    obtain ⟨hup, hs⟩ := Option.ite_none_left_eq_some.mp hs
    exact h.startUp hy (Bool.eq_false_iff.mpr hup) hs
  | poll w =>
    obtain ⟨hup, hs⟩ := Option.ite_none_right_eq_some.mp hs
    exact h.poll hup hs
  | refused l =>
    obtain ⟨-, hs⟩ := Option.ite_none_right_eq_some.mp hs
    exact h.refuse hs
  | upload new => exact h.request hs fun _ _ hstep => Service.request_keeps hstep trivial
  | manualRoute input => exact h.request hs fun _ _ hstep => Service.request_keeps hstep trivial
  | manualRetryTranscription input =>
    exact h.request hs fun _ _ hstep => Service.request_keeps hstep trivial
  | manualRetryDelivery input => exact h.request hs fun _ _ hstep => Service.request_keeps hstep trivial
  | served =>
    obtain ⟨-, hs⟩ := Option.ite_none_right_eq_some.mp hs
    cases hs
    exact ⟨h.run, h.clock, h.running, h.between, h.clean⟩
  | serverFails e =>
    obtain ⟨-, hs⟩ := Option.ite_none_right_eq_some.mp hs
    cases hs
    exact h.down hy fun he => by cases he
  | signal =>
    simp only [advance] at hs
    cases hp : d.phase with
    | serving =>
      simp only [hp] at hs
      cases hs
      refine ⟨h.run, h.clock, h.running.trans ?_, h.between, fun he => by cases he⟩
      simp [up, hp]
    | _ =>
      simp only [hp] at hs
      cases hs
  | joined =>
    obtain ⟨hall, hs⟩ := Option.ite_none_right_eq_some.mp hs
    cases hs
    simp only [Bool.and_eq_true] at hall
    obtain ⟨⟨hup, -⟩, hdrained⟩ := hall
    refine h.down hy fun _ => ?_
    obtain ⟨trace, hr⟩ := h.run
    refine Service.settled_between hr (h.running.trans hup) fun l => h.between l ?_
    simp [drained_iff.mp hdrained l]
  | graceElapsed =>
    simp only [advance] at hs
    cases hp : d.phase with
    | stopping deadline =>
      simp only [hp] at hs
      obtain ⟨-, hs⟩ := Option.ite_none_right_eq_some.mp hs
      cases hs
      exact h.down hy fun he => by cases he
    | _ =>
      simp only [hp] at hs
      cases hs
  | kill =>
    obtain ⟨-, hs⟩ := Option.ite_none_right_eq_some.mp hs
    cases hs
    exact h.down hy fun he => by cases he

theorem Runs.sound {turns : List (Turn Runtime (Int × Happening))} (hr : Runs route turns c) :
    c.Sound route :=
  hr.keeps initial_sound fun _ _ _ h hs => h.step hs

/-- A process that has shut down by itself leaves nothing half done: whenever the next
one starts, its recovery finds nothing to do. -/
theorem clean_shutdown {turns : List (Turn Runtime (Int × Happening))} (hr : Runs route turns c)
    (hexit : c.phase = .down (some (.finished (.ok ())))) (now : Int) :
    (∀ a ∈ c.service.store.transcriptionAttempts.rows, a.finishedAt ≠ none) ∧
      (∀ a ∈ c.service.store.deliveryAttempts.rows, a.finishedAt ≠ none) ∧
      ∃ report, (recoverAbandonedAttempts now).run c.service.store = (c.service.store, .ok report) ∧
        report.hasChanges = false := by
  have h := hr.sound.clean hexit
  exact ⟨h.transcriptions, h.deliveries, recover_again h.transcriptions h.deliveries h.claims now⟩

/-- A start with everything in place. -/
def goodStartup : Startup :=
  ⟨.ok (), .ok (), fun _ => some "key", "SONIOX_API_KEY", [], "127.0.0.1:8080", .ok ()⟩

def transcribing : Happening := .poll (.transcribe "t1" (.ok ⟨"scribe", "hello", "\x7b\x7d", none, none⟩))

/-- A signal while an attempt is in flight. -/
def signalledInTick : List (Int × Happening) :=
  [(0, .start goodStartup), (0, .upload firstUpload)] ++ List.replicate 4 (1, transcribing) ++
    [(2, .signal)] ++ List.replicate 4 (3, transcribing) ++
    [(4, .poll (.route "d1")), (4, .poll (.deliver "a1" (.ok ()))), (5, .served), (5, .joined)]

theorem clean_shutdown_in_tick : ∃ turns c, Runs Service.toNotes turns c ∧
    c.phase = .down (some (.finished (.ok ()))) ∧ c.service.store.transcripts.rows.length = 1 ∧
    ∃ report, (recoverAbandonedAttempts 9).run c.service.store = (c.service.store, .ok report) ∧
      report.hasChanges = false := by
  have hp : (History.play (step Service.toNotes) initial signalledInTick).map
      (fun r => (r.2.phase, r.2.service.store.transcripts.rows.length)) =
        some (.down (some (.finished (.ok ()))), 1) := by
    decide +kernel
  obtain ⟨⟨turns, c⟩, hplay, he⟩ := Option.map_eq_some_iff.mp hp
  obtain ⟨hexit, hrows⟩ := Prod.mk.inj he
  have hr : Runs Service.toNotes turns c := History.of_play hplay
  exact ⟨turns, c, hr, hexit, hrows, (clean_shutdown hr hexit 9).2.2⟩

end Runtime
end Telegraph
