import Telegraph.Proofs.CleanShutdown

namespace Telegraph
open Lib Program SqliteStore Function

namespace Service

/-- The integration may still be called in the tick of `l`. -/
def early (c : Process) : Loop → Bool
  | .transcription => (c.transcribers ()).early
  | .routing => false
  | .delivery => (c.deliverers ()).early

/-- The next step of `l` calls the integration. -/
def callsNext (c : Process) : Loop → Bool
  | .transcription => (c.transcribers ()).callsNext
  | .routing => false
  | .delivery => (c.deliverers ()).callsNext

def rank (c : Process) : Loop → Nat × Nat
  | .transcription => (c.transcribers ()).rank
  | .routing => (c.routers ()).rank
  | .delivery => (c.deliverers ()).rank

variable {c c' : Process} {l : Loop}

theorem Rests.early (h : c.Rests c' l) : c'.early l = c.early l := by
  cases l with
  | transcription => exact congrArg Transcription.Pc.early h
  | routing => rfl
  | delivery => exact congrArg Delivering.Pc.early h

theorem Rests.rank (h : c.Rests c' l) : c'.rank l = c.rank l := by
  cases l with
  | transcription => exact congrArg Transcription.Pc.rank h
  | routing => exact congrArg Routing.Pc.rank h
  | delivery => exact congrArg Delivering.Pc.rank h

/-- A step that does not end the tick brings it nearer to its end. -/
theorem Goes.nearer (h : c.Goes c' l) (ho : c'.outcome l = none) : Nearer (c'.rank l) (c.rank l) := by
  cases l with
  | transcription =>
    rcases Transcription.Pc.Goes.nearer h with hn | ⟨o, hr⟩
    · exact hn
    · simp [outcome, hr] at ho
  | routing =>
    rcases Routing.Pc.Goes.nearer h with hn | ⟨o, hr⟩
    · exact hn
    · simp [outcome, hr] at ho
  | delivery =>
    rcases Delivering.Pc.Goes.nearer h with hn | ⟨o, hr⟩
    · exact hn
    · simp [outcome, hr] at ho

theorem Goes.late (h : c.Goes c' l) (ho : c'.outcome l = none) :
    (c'.early l).toNat + (c.callsNext l).toNat ≤ (c.early l).toNat := by
  cases l with
  | transcription =>
    rcases Transcription.Pc.Goes.late h with ⟨o, hr⟩ | hn
    · simp [outcome, hr] at ho
    · exact hn
  | routing => exact Nat.le_refl _
  | delivery =>
    rcases Delivering.Pc.Goes.late h with ⟨o, hr⟩ | hn
    · simp [outcome, hr] at ho
    · exact hn

theorem callsNext_le_early : (c.callsNext l).toNat ≤ (c.early l).toNat := by
  cases l with
  | transcription =>
    unfold callsNext early
    cases c.transcribers () <;> simp [Transcription.Pc.callsNext, Transcription.Pc.early]
  | routing => exact Nat.le_refl _
  | delivery =>
    unfold callsNext early
    cases c.deliverers () <;> simp [Delivering.Pc.callsNext, Delivering.Pc.early]

end Service

namespace Runtime
variable {c c' : Runtime} {route : Recording → RoutingDecision} {now : Int} {what : Happening}
variable {turns earlier later : List (Turn Runtime (Int × Happening))}

/-- What is neither a start nor a signal leaves the flag alone and brings nothing up. -/
theorem step_flag (hs : c.step route (now, what) = some c') (hstart : what.isStart = false)
    (hsignal : what ≠ .signal) : c'.shutdown = c.shutdown ∧ (c'.up = true → c.up = true) := by
  obtain ⟨-, hs⟩ := Option.ite_none_right_eq_some.mp hs
  have request : ∀ {input : Input Unit}, ({ c with clock := now } : Runtime).request route input = some c' →
      c'.shutdown = c.shutdown ∧ (c'.up = true → c.up = true) := by
    intro input hs
    obtain ⟨-, hs⟩ := Option.ite_none_right_eq_some.mp hs
    obtain ⟨p, -, rfl⟩ := Option.map_eq_some_iff.mp hs
    exact ⟨rfl, id⟩
  cases what with
  | start s => cases hstart
  | poll w =>
    obtain ⟨hup, hs⟩ := Option.ite_none_right_eq_some.mp hs
    refine ⟨?_, fun _ => hup⟩
    rcases poll_cases hs with ⟨hs, -⟩ | ⟨pc, rfl, -⟩
    · obtain ⟨p, events, -, ⟨e, -, -, rfl⟩ | ⟨-, -, -, pc, rfl, -⟩⟩ := tick_cases hs <;> rfl
    · rfl
  | refused l =>
    obtain ⟨hup, hs⟩ := Option.ite_none_right_eq_some.mp hs
    obtain ⟨-, p, events, -, -, rfl⟩ := refuse_cases hs
    exact ⟨rfl, fun _ => hup⟩
  | upload new => exact request hs
  | manualRoute input => exact request hs
  | manualRetryTranscription input => exact request hs
  | manualRetryDelivery input => exact request hs
  | served =>
    obtain ⟨-, hs⟩ := Option.ite_none_right_eq_some.mp hs
    cases hs
    exact ⟨rfl, id⟩
  | serverFails e =>
    obtain ⟨-, hs⟩ := Option.ite_none_right_eq_some.mp hs
    cases hs
    exact ⟨rfl, fun h => by cases h⟩
  | signal => exact absurd rfl hsignal
  | joined =>
    obtain ⟨-, hs⟩ := Option.ite_none_right_eq_some.mp hs
    cases hs
    exact ⟨rfl, fun h => by cases h⟩
  | graceElapsed =>
    simp only [advance] at hs
    cases hp : c.phase with
    | stopping deadline =>
      simp only [hp] at hs
      obtain ⟨-, hs⟩ := Option.ite_none_right_eq_some.mp hs
      cases hs
      exact ⟨rfl, fun h => by cases h⟩
    | _ =>
      simp only [hp] at hs
      cases hs
  | kill =>
    obtain ⟨-, hs⟩ := Option.ite_none_right_eq_some.mp hs
    cases hs
    exact ⟨rfl, fun h => by cases h⟩

/-- A shutdown is under way as far as the loops can tell. -/
structure Obedient (c : Runtime) : Prop where
  stopping : ∀ deadline, c.phase = .stopping deadline → c.shutdown = true
  returned : c.up = true → ∀ l, c.loops l = .returned → c.shutdown = true

theorem initial_obedient : initial.Obedient :=
  ⟨fun _ h => (by cases h), fun h => by cases h⟩

theorem down_obedient {last : Option Exit} : (c.down last).Obedient :=
  ⟨fun _ h => (by cases h), fun h => by cases h⟩

theorem Obedient.place (h : c.Obedient) {l : Loop} {pc : LoopPc} (hp : pc = .returned → c.shutdown = true) :
    (c.place l pc).Obedient := by
  refine ⟨h.stopping, fun hup k hk => ?_⟩
  by_cases hkl : k = l
  · subst k
    exact hp (by simpa only [Runtime.place, update_self] using hk)
  · exact h.returned hup k (by simpa only [Runtime.place, update_of_ne hkl] using hk)

theorem Obedient.poll (h : c.Obedient) {w : Work} (hs : c.poll route w = some c') : c'.Obedient := by
  rcases poll_cases hs with ⟨hs, -⟩ | ⟨pc, rfl, hl⟩
  · obtain ⟨p, events, -, ⟨e, -, -, rfl⟩ | ⟨-, -, -, pc, rfl, hpc⟩⟩ := tick_cases hs
    · exact ⟨fun _ he => (by cases he), fun hup => by cases hup⟩
    · have hserved : ({ c with service := p } : Runtime).Obedient := ⟨h.stopping, h.returned⟩
      refine hserved.place fun hret => ?_
      rcases hpc with ⟨rfl, -⟩ | ⟨-, -, hflag⟩
      · cases hret
      · exact hflag.mpr hret
  · refine h.place fun hret => ?_
    rcases hl with ⟨-, hflag, -⟩ | ⟨-, rfl⟩
    · exact hflag
    · cases hret

theorem Obedient.step (h : c.Obedient) (hs : c.step route (now, what) = some c') : c'.Obedient := by
  obtain ⟨-, hs⟩ := Option.ite_none_right_eq_some.mp hs
  have request : ∀ {input : Input Unit}, ({ c with clock := now } : Runtime).request route input = some c' →
      c'.Obedient := by
    intro input hs
    obtain ⟨-, hs⟩ := Option.ite_none_right_eq_some.mp hs
    obtain ⟨p, -, rfl⟩ := Option.map_eq_some_iff.mp hs
    exact ⟨h.stopping, h.returned⟩
  cases what with
  | start s =>
    obtain ⟨-, hs⟩ := Option.ite_none_left_eq_some.mp hs
    unfold Runtime.startUp at hs
    cases ho : s.opened with
    | error e =>
      simp only [ho] at hs
      cases hs
      exact ⟨fun _ he => (by cases he), fun hup => by cases hup⟩
    | ok u =>
      simp only [ho] at hs
      obtain ⟨⟨p, events⟩, -, he⟩ := Option.map_eq_some_iff.mp hs
      cases hp : s.prepared with
      | error e =>
        simp only [hp] at he
        cases he
        exact down_obedient
      | ok u =>
        simp only [hp] at he
        cases he
        exact ⟨fun _ he => (by cases he), fun _ _ hl => by cases hl⟩
  | poll w =>
    obtain ⟨-, hs⟩ := Option.ite_none_right_eq_some.mp hs
    have hnow : ({ c with clock := now } : Runtime).Obedient := ⟨h.stopping, h.returned⟩
    exact hnow.poll hs
  | refused l =>
    obtain ⟨-, hs⟩ := Option.ite_none_right_eq_some.mp hs
    obtain ⟨-, p, events, -, -, rfl⟩ := refuse_cases hs
    exact ⟨fun _ he => (by cases he), fun hup => by cases hup⟩
  | upload new => exact request hs
  | manualRoute input => exact request hs
  | manualRetryTranscription input => exact request hs
  | manualRetryDelivery input => exact request hs
  | served =>
    obtain ⟨-, hs⟩ := Option.ite_none_right_eq_some.mp hs
    cases hs
    exact ⟨h.stopping, h.returned⟩
  | signal =>
    simp only [advance] at hs
    cases hp : c.phase with
    | serving =>
      simp only [hp] at hs
      cases hs
      exact ⟨fun _ _ => rfl, fun _ _ _ => rfl⟩
    | _ =>
      simp only [hp] at hs
      cases hs
  | graceElapsed =>
    simp only [advance] at hs
    cases hp : c.phase with
    | stopping deadline =>
      simp only [hp] at hs
      obtain ⟨-, hs⟩ := Option.ite_none_right_eq_some.mp hs
      cases hs
      exact down_obedient
    | _ =>
      simp only [hp] at hs
      cases hs
  | serverFails e =>
    obtain ⟨-, hs⟩ := Option.ite_none_right_eq_some.mp hs
    cases hs
    exact down_obedient
  | joined =>
    obtain ⟨-, hs⟩ := Option.ite_none_right_eq_some.mp hs
    cases hs
    exact down_obedient
  | kill =>
    obtain ⟨-, hs⟩ := Option.ite_none_right_eq_some.mp hs
    cases hs
    exact down_obedient

/-- A signal has arrived since the last start. -/
def Signalled (turns : List (Turn Runtime (Int × Happening))) : Prop :=
  ∃ earlier u later, turns = earlier ++ u :: later ∧ u.what.2 = .signal ∧
    ∀ v ∈ later, v.what.2.isStart = false

theorem Signalled.append (h : Signalled turns) {t : Turn Runtime (Int × Happening)}
    (ht : t.what.2.isStart = false) : Signalled (turns ++ [t]) := by
  obtain ⟨earlier, u, later, rfl, hu, hlater⟩ := h
  refine ⟨earlier, u, later ++ [t], by simp, hu, fun v hv => ?_⟩
  rcases List.mem_append.mp hv with hv | hv
  · exact hlater v hv
  · rw [List.mem_singleton.mp hv]
    exact ht

/-- Who starts the process starts it with the flag down. -/
theorem start_flag {s : Startup} (hs : c.step route (now, .start s) = some c') (hup : c'.up = true) :
    c'.shutdown = false := by
  obtain ⟨-, hs⟩ := Option.ite_none_right_eq_some.mp hs
  obtain ⟨-, hs⟩ := Option.ite_none_left_eq_some.mp hs
  unfold Runtime.startUp at hs
  cases ho : s.opened with
  | error e =>
    simp only [ho] at hs
    cases hs
    cases hup
  | ok u =>
    simp only [ho] at hs
    obtain ⟨⟨p, events⟩, -, he⟩ := Option.map_eq_some_iff.mp hs
    cases hp : s.prepared with
    | error e =>
      simp only [hp] at he
      cases he
      cases hup
    | ok u =>
      simp only [hp] at he
      cases he
      rfl

theorem signal_flag (hs : c.step route (now, .signal) = some c') : c'.shutdown = true := by
  obtain ⟨-, hs⟩ := Option.ite_none_right_eq_some.mp hs
  simp only [advance] at hs
  cases hp : c.phase with
  | serving =>
    simp only [hp] at hs
    cases hs
    rfl
  | _ =>
    simp only [hp] at hs
    cases hs

/-- The flag is only ever set by a signal. -/
theorem Runs.signalled (hr : Runs route turns c) (hup : c.up = true) (hflag : c.shutdown = true) :
    Signalled turns := by
  induction hr with
  | start => cases hup
  | @turn turns s s' l _ hs ih =>
    obtain ⟨now, what⟩ := l
    by_cases hstart : what.isStart = true
    · cases what with
      | start st => cases (start_flag hs hup).symm.trans hflag
      | _ => cases hstart
    · rw [Bool.not_eq_true] at hstart
      by_cases hsignal : what = .signal
      · exact ⟨turns, ⟨s, (now, what), s'⟩, [], rfl, hsignal, fun v hv => by cases hv⟩
      · obtain ⟨hsame, hwas⟩ := step_flag hs hstart hsignal
        exact (ih (hwas hup) (hsame ▸ hflag)).append hstart

/-- What may take the running process down. -/
def Ends (c : Runtime) (now : Int) : Happening → Prop
  | .joined => c.served = true ∧ c.drained = true
  | .graceElapsed => ∃ deadline, c.phase = .stopping deadline ∧ deadline ≤ now
  | .kill => True
  | .serverFails _ => True
  | .refused l => c.loops l = .ticking ∧ c.service.readsFirst l () = true
  | .poll w => c.service.Reuses w.input
  | _ => False

/-- A poll that goes down drew an identifier that is taken. -/
theorem poll_reuses {w : Work} (h : c.Sound route) (hs : c.step route (now, .poll w) = some c')
    (hup : c.up = true) (hdown : c'.up = false) : c.service.Reuses w.input := by
  obtain ⟨-, hs⟩ := Option.ite_none_right_eq_some.mp hs
  obtain ⟨-, hs⟩ := Option.ite_none_right_eq_some.mp hs
  rcases poll_cases hs with ⟨hs, -⟩ | ⟨pc, rfl, -⟩
  · obtain ⟨p, events, hstep, ⟨e, -, hstop, rfl⟩ | ⟨-, -, -, pc, rfl, -⟩⟩ := tick_cases hs
    · obtain ⟨trace, hrun⟩ := h.run
      obtain ⟨-, b, d, ha, -⟩ := hrun.undisturbed
      rcases ((Service.Runs.informed hrun).step ha hstep).2 (h.running.trans hup) with
        hr | hr | ⟨l, i, hr, -⟩ | hr
      · cases hstop.symm.trans hr
      · cases w <;> cases hr
      · cases w <;> cases hr
      · exact hr
    · cases hdown.symm.trans hup
  · cases hdown.symm.trans hup

theorem ends_of_down (h : c.Sound route) (hs : c.step route (now, what) = some c') (hup : c.up = true)
    (hdown : c'.up = false) : c.Ends now what := by
  have hstep := hs
  obtain ⟨-, hs⟩ := Option.ite_none_right_eq_some.mp hs
  have request : ∀ {input : Input Unit}, ({ c with clock := now } : Runtime).request route input = some c' →
      False := by
    intro input hs
    obtain ⟨-, hs⟩ := Option.ite_none_right_eq_some.mp hs
    obtain ⟨p, -, rfl⟩ := Option.map_eq_some_iff.mp hs
    cases hdown.symm.trans hup
  cases what with
  | start s =>
    obtain ⟨hno, -⟩ := Option.ite_none_left_eq_some.mp hs
    exact absurd hup hno
  | poll w => exact poll_reuses h hstep hup hdown
  | refused l =>
    obtain ⟨-, hs⟩ := Option.ite_none_right_eq_some.mp hs
    obtain ⟨hl, p, events, hserves, -, -⟩ := refuse_cases hs
    obtain ⟨⟨-, -, hadmits⟩, -⟩ := Service.step_some hserves
    exact ⟨hl, hadmits.2⟩
  | upload new => exact (request hs).elim
  | manualRoute input => exact (request hs).elim
  | manualRetryTranscription input => exact (request hs).elim
  | manualRetryDelivery input => exact (request hs).elim
  | served =>
    obtain ⟨-, hs⟩ := Option.ite_none_right_eq_some.mp hs
    cases hs
    cases hdown.symm.trans hup
  | serverFails e => trivial
  | signal =>
    simp only [advance] at hs
    cases hp : c.phase with
    | serving =>
      simp only [hp] at hs
      cases hs
      cases hdown
    | _ =>
      simp only [hp] at hs
      cases hs
  | joined =>
    obtain ⟨hall, -⟩ := Option.ite_none_right_eq_some.mp hs
    simp only [Bool.and_eq_true] at hall
    exact ⟨hall.1.2, hall.2⟩
  | graceElapsed =>
    simp only [advance] at hs
    cases hp : c.phase with
    | stopping deadline =>
      simp only [hp] at hs
      exact ⟨deadline, hp, (Option.ite_none_right_eq_some.mp hs).1⟩
    | _ =>
      simp only [hp] at hs
      cases hs
  | kill => trivial

/-- The process ends only when it is told to: by a signal, unless it is killed, its
server fails, the database refuses a worker's transaction, or a worker draws an identifier
that is taken. -/
theorem exits_when_told (hr : Runs route turns c) (hs : c.step route (now, what) = some c')
    (hup : c.up = true) (hdown : c'.up = false) :
    Signalled turns ∨ what = .kill ∨ (∃ e, what = .serverFails e) ∨
      (∃ l, what = .refused l ∧ c.loops l = .ticking ∧ c.service.readsFirst l () = true) ∨
      ∃ w, what = .poll w ∧ c.service.Reuses w.input := by
  have hobeys : c.Obedient := hr.keeps initial_obedient fun _ _ _ h hs => h.step hs
  have hends := ends_of_down hr.sound hs hup hdown
  cases what with
  | joined =>
    have hret := drained_iff.mp hends.2 .routing
    exact .inl (hr.signalled hup (hobeys.returned hup .routing hret))
  | graceElapsed =>
    obtain ⟨deadline, hp, -⟩ := hends
    exact .inl (hr.signalled hup (hobeys.stopping deadline hp))
  | kill => exact .inr (.inl rfl)
  | serverFails e => exact .inr (.inr (.inl ⟨e, rfl⟩))
  | refused l => exact .inr (.inr (.inr (.inl ⟨l, rfl, hends⟩)))
  | poll w => exact .inr (.inr (.inr (.inr ⟨w, rfl, hends⟩)))
  | _ => exact hends.elim

/-- `signalledInTick` up to where the process is about to end. -/
theorem exits_after_signal : ∃ turns c c', Runs Service.toNotes turns c ∧
    c.step Service.toNotes (5, .joined) = some c' ∧ c'.up = false ∧ Signalled turns := by
  have hp : (History.play (step Service.toNotes) initial signalledInTick.dropLast).bind
      (fun r => (r.2.step Service.toNotes (5, .joined)).map fun c' => (r.2.up, c'.up)) = some (true, false) := by
    decide +kernel
  obtain ⟨⟨turns, c⟩, hplay, hstep⟩ := Option.bind_eq_some_iff.mp hp
  obtain ⟨c', hs, he⟩ := Option.map_eq_some_iff.mp hstep
  obtain ⟨hup, hdown⟩ := Prod.mk.inj he
  have hr : Runs Service.toNotes turns c := History.of_play hplay
  refine ⟨turns, c, c', hr, hs, hdown, ?_⟩
  rcases exits_when_told hr hs hup hdown with h | h | ⟨e, h⟩ | ⟨l, h, -⟩ | ⟨w, h, -⟩
  · exact h
  · cases h
  · cases h
  · cases h
  · cases h

/-- Besides a start and a poll, nothing moves a loop or a worker that is left running. -/
theorem beside_rests (hs : c.step route (now, what) = some c') (hstart : what.isStart = false)
    (hpoll : ∀ w, what ≠ .poll w) :
    c'.loops = c.loops ∧ (c.shutdown = true → c'.shutdown = true) ∧
      (c'.up = true → c.up = true ∧ ∀ l, c.service.Rests c'.service l) := by
  obtain ⟨-, hs⟩ := Option.ite_none_right_eq_some.mp hs
  have hrests : ∀ l, c.service.Rests c.service l := fun l => by cases l <;> rfl
  have request : ∀ {input : Input Unit}, ({ c with clock := now } : Runtime).request route input = some c' →
      Service.IsRequest input →
      c'.loops = c.loops ∧ (c.shutdown = true → c'.shutdown = true) ∧
        (c'.up = true → c.up = true ∧ ∀ l, c.service.Rests c'.service l) := by
    intro input hs hi
    obtain ⟨-, hs⟩ := Option.ite_none_right_eq_some.mp hs
    obtain ⟨⟨p, events⟩, hstep, rfl⟩ := Option.map_eq_some_iff.mp hs
    exact ⟨rfl, id, fun hup => ⟨hup, (Service.request_keeps hstep hi).2.2⟩⟩
  cases what with
  | start s => cases hstart
  | poll w => exact absurd rfl (hpoll w)
  | refused l =>
    obtain ⟨-, hs⟩ := Option.ite_none_right_eq_some.mp hs
    obtain ⟨-, p, events, -, -, rfl⟩ := refuse_cases hs
    exact ⟨rfl, id, fun h => by cases h⟩
  | upload new => exact request hs trivial
  | manualRoute input => exact request hs trivial
  | manualRetryTranscription input => exact request hs trivial
  | manualRetryDelivery input => exact request hs trivial
  | served =>
    obtain ⟨-, hs⟩ := Option.ite_none_right_eq_some.mp hs
    cases hs
    exact ⟨rfl, id, fun hup => ⟨hup, hrests⟩⟩
  | signal =>
    simp only [advance] at hs
    cases hp : c.phase with
    | serving =>
      simp only [hp] at hs
      cases hs
      exact ⟨rfl, fun _ => rfl, fun _ => ⟨by simp [up, hp], hrests⟩⟩
    | _ =>
      simp only [hp] at hs
      cases hs
  | graceElapsed =>
    simp only [advance] at hs
    cases hp : c.phase with
    | stopping deadline =>
      simp only [hp] at hs
      obtain ⟨-, hs⟩ := Option.ite_none_right_eq_some.mp hs
      cases hs
      exact ⟨rfl, id, fun h => by cases h⟩
    | _ =>
      simp only [hp] at hs
      cases hs
  | _ =>
    obtain ⟨-, hs⟩ := Option.ite_none_right_eq_some.mp hs
    cases hs
    exact ⟨rfl, id, fun h => by cases h⟩

/-- What a poll can do once the flag is set. -/
theorem poll_stopping {w : Work} (hs : c.step route (now, .poll w) = some c') (hflag : c.shutdown = true) :
    c'.shutdown = true ∧ c.up = true ∧ (c'.up = false ∧ c'.loops = c.loops ∨
      (∀ l, l ≠ w.loop → c'.loops l = c.loops l ∧ c.service.Rests c'.service l) ∧
        (c.loops w.loop = .ticking ∧ c.service.Goes c'.service w.loop ∧
            (c'.loops w.loop = .ticking ∧ c'.service.outcome w.loop = none ∨ c'.loops w.loop = .returned) ∨
          c.loops w.loop = .top ∧ c'.loops w.loop = .returned ∨
          (∃ since, c.loops w.loop = .waiting since) ∧ c'.loops w.loop = .top)) := by
  obtain ⟨-, hs⟩ := Option.ite_none_right_eq_some.mp hs
  obtain ⟨hup, hs⟩ := Option.ite_none_right_eq_some.mp hs
  rcases poll_cases hs with ⟨hs, hl | ⟨-, hno⟩⟩ | ⟨pc, rfl, hl⟩
  · obtain ⟨p, events, -, ⟨e, -, -, rfl⟩ | ⟨-, hgoes, hothers, pc, rfl, hpc⟩⟩ := tick_cases hs
    · exact ⟨hflag, hup, .inl ⟨rfl, rfl⟩⟩
    · refine ⟨hflag, hup, .inr ⟨fun l hne => ⟨update_of_ne hne .., hothers l hne⟩, .inl ⟨hl, hgoes, ?_⟩⟩⟩
      rcases hpc with ⟨rfl, ho⟩ | ⟨-, -, hiff⟩
      · exact .inl ⟨update_self .., ho⟩
      · exact .inr ((update_self ..).trans (hiff.mp hflag))
  · cases hflag.symm.trans hno
  · refine ⟨hflag, hup, .inr ⟨fun l hne => ⟨update_of_ne hne .., by cases l <;> rfl⟩, .inr ?_⟩⟩
    rcases hl with ⟨htop, -, rfl⟩ | ⟨hwait, rfl⟩
    · exact .inl ⟨htop, update_self ..⟩
    · exact .inr ⟨hwait, update_self ..⟩

/-- The calls of the integration that the tick under way in `l` may still make. -/
def ahead (c : Runtime) (l : Loop) : Nat :=
  if c.up = true ∧ c.loops l = .ticking then (c.service.early l).toNat else 0

/-- A turn in which the worker of `l` calls its integration. -/
def calls (l : Loop) (t : Turn Runtime (Int × Happening)) : Bool :=
  match t.what.2 with
  | .poll w => w.loop == l && t.before.loops l == .ticking && t.before.service.callsNext l
  | _ => false

theorem ahead_le_one {l : Loop} : c.ahead l ≤ 1 := by
  unfold ahead
  split
  · exact Bool.toNat_le _
  · exact Nat.zero_le _

theorem ahead_rests {l : Loop} (hloops : c'.loops l = c.loops l)
    (hup : c'.up = true → c.up = true ∧ c.service.Rests c'.service l) : c'.ahead l ≤ c.ahead l := by
  unfold ahead
  rw [hloops]
  split
  · rename_i h
    obtain ⟨hwas, hrests⟩ := hup h.1
    rw [if_pos ⟨hwas, h.2⟩, hrests.early]
  · exact Nat.zero_le _

/-- Once the flag is set no tick begins, and a call is one that was ahead. -/
theorem step_stopping (hs : c.step route (now, what) = some c') (hflag : c.shutdown = true)
    (hstart : what.isStart = false) (l : Loop) :
    c'.shutdown = true ∧ (c'.loops l = .ticking → c.loops l = .ticking) ∧
      c'.ahead l + (calls l ⟨c, (now, what), c'⟩).toNat ≤ c.ahead l := by
  by_cases hpoll : ∃ w, what = .poll w
  · obtain ⟨w, rfl⟩ := hpoll
    obtain ⟨hstill, hup, hc⟩ := poll_stopping hs hflag
    by_cases hl : l = w.loop
    · subst l
      have hcalls : (calls w.loop ⟨c, (now, .poll w), c'⟩).toNat ≤ c.ahead w.loop := by
        by_cases ht : c.loops w.loop = .ticking
        · simpa [calls, ahead, ht, hup] using Service.callsNext_le_early
        · simp [calls, beq_eq_false_iff_ne.mpr ht]
      rcases hc with ⟨hdown, hloops⟩ | ⟨-, ⟨ht, hgoes, ⟨ht', ho⟩ | hret⟩ | ⟨-, hret⟩ | ⟨-, htop⟩⟩
      · exact ⟨hstill, fun h => by rwa [hloops] at h, by simpa [ahead, hdown] using hcalls⟩
      · refine ⟨hstill, fun _ => ht, ?_⟩
        have hlate := hgoes.late ho
        by_cases hup' : c'.up = true
        · simpa [calls, ahead, ht, ht', hup, hup'] using hlate
        · simpa [ahead, hup'] using hcalls
      · exact ⟨hstill, fun _ => ht, by simpa [ahead, hret] using hcalls⟩
      · exact ⟨hstill, fun h => by simp [hret] at h, by simpa [ahead, hret] using hcalls⟩
      · exact ⟨hstill, fun h => by simp [htop] at h, by simpa [ahead, htop] using hcalls⟩
    · have hcalls : calls l ⟨c, (now, .poll w), c'⟩ = false := by
        simp [calls, Ne.symm hl]
      rw [hcalls]
      rcases hc with ⟨hdown, hloops⟩ | ⟨hothers, -⟩
      · refine ⟨hstill, fun h => by rwa [hloops] at h, ?_⟩
        exact ahead_rests (congrFun hloops l) fun h => by simp [hdown] at h
      · obtain ⟨hloop, hrests⟩ := hothers l hl
        exact ⟨hstill, fun h => by rwa [hloop] at h, ahead_rests hloop fun _ => ⟨hup, hrests⟩⟩
  · have hno : ∀ w, what ≠ .poll w := fun w hw => hpoll ⟨w, hw⟩
    obtain ⟨hloops, hstill, hup⟩ := beside_rests hs hstart hno
    have hcalls : calls l ⟨c, (now, what), c'⟩ = false := by
      cases what <;> first | rfl | exact absurd rfl (hno _)
    refine ⟨hstill hflag, fun h => by rwa [hloops] at h, ?_⟩
    rw [hcalls]
    exact ahead_rests (congrFun hloops l) fun h => ⟨(hup h).1, (hup h).2 l⟩

theorem stopping_run {s : Runtime} (hr : History (fun c l c' => c.step route l = some c') s later c)
    (hflag : s.shutdown = true) (hlater : ∀ v ∈ later, v.what.2.isStart = false) (l : Loop) :
    c.shutdown = true ∧ c.ahead l + later.countP (calls l) ≤ s.ahead l := by
  induction hr with
  | start => exact ⟨hflag, Nat.le_refl _⟩
  | @turn later d d' at_ hr hs ih =>
    obtain ⟨hstill, hle⟩ := ih fun v hv => hlater v (List.mem_append_left _ hv)
    have hstart := hlater ⟨d, at_, d'⟩ (List.mem_append_right _ (List.mem_singleton_self _))
    obtain ⟨hstill', -, hle'⟩ := step_stopping hs hstill hstart l
    refine ⟨hstill', ?_⟩
    rw [List.countP_append, List.countP_singleton]
    cases hc : calls l ⟨d, at_, d'⟩ <;> simp [hc] at hle' ⊢ <;> omega

/-- From a signal on no worker begins a tick, and each calls its integration at most
once more: to finish what it had begun. -/
theorem after_signal {u : Turn Runtime (Int × Happening)} (hr : Runs route (earlier ++ u :: later) c)
    (hu : u.what.2 = .signal) (hlater : ∀ v ∈ later, v.what.2.isStart = false) (l : Loop) :
    (∀ v ∈ later, v.after.loops l = .ticking → v.before.loops l = .ticking) ∧
      later.countP (calls l) ≤ 1 := by
  have hflag : u.after.shutdown = true := by
    have hs := hr.step_of_mem (List.mem_append_right _ (List.mem_cons_self ..))
    rw [show u.what = (u.what.1, .signal) from Prod.ext rfl hu] at hs
    exact signal_flag hs
  have hsince := hr.since rfl
  refine ⟨fun v hv => ?_, ?_⟩
  · obtain ⟨before, after, rfl⟩ := List.append_of_mem hv
    have hno : ∀ v ∈ before, v.what.2.isStart = false := fun v hv => hlater v (List.mem_append_left _ hv)
    obtain ⟨hstill, -⟩ := stopping_run (hsince.upTo rfl) hflag hno l
    exact (step_stopping (hsince.step_of_mem hv) hstill (hlater v hv) l).2.1
  · have hle := (stopping_run hsince hflag hlater l).2
    have hone : u.after.ahead l ≤ 1 := ahead_le_one
    omega

/-- In `signalledInTick` that one call is made. -/
theorem one_call_after_signal : ∃ (earlier later : List (Turn Runtime (Int × Happening)))
    (u : Turn Runtime (Int × Happening)) (c : Runtime), Runs Service.toNotes (earlier ++ u :: later) c ∧
      u.what.2 = .signal ∧ later.countP (calls .transcription) = 1 := by
  have hp : (History.play (step Service.toNotes) initial (signalledInTick.take 6)).bind (fun r =>
      (r.2.step Service.toNotes (2, .signal)).bind fun d =>
        (History.play (step Service.toNotes) d (signalledInTick.drop 7)).map fun q =>
          (q.1.all fun v => !v.what.2.isStart, decide (0 < q.1.countP (calls .transcription)))) =
      some (true, true) := by
    decide +kernel
  obtain ⟨⟨earlier, s⟩, hfirst, hp⟩ := Option.bind_eq_some_iff.mp hp
  obtain ⟨d, hs, hp⟩ := Option.bind_eq_some_iff.mp hp
  obtain ⟨⟨later, c⟩, hrest, he⟩ := Option.map_eq_some_iff.mp hp
  obtain ⟨hlater, hcalled⟩ := Prod.mk.inj he
  have hr : Runs Service.toNotes (earlier ++ ⟨s, (2, .signal), d⟩ :: later) c := by
    have hplayed := History.play_from (.turn (2, .signal) (History.of_play hfirst) hs) hrest
    rwa [List.append_assoc] at hplayed
  have hno : ∀ v ∈ later, v.what.2.isStart = false := by simpa using hlater
  have hone := (after_signal hr rfl hno .transcription).2
  exact ⟨earlier, later, _, c, hr, rfl, Nat.le_antisymm hone (of_decide_eq_true hcalled)⟩

/-- How far a loop that obeys the flag is from its return. -/
def far (c : Runtime) (l : Loop) : Nat × Nat × Nat :=
  match c.loops l with
  | .returned => (0, 0, 0)
  | .top => (1, 0, 0)
  | .waiting _ => (2, 0, 0)
  | .ticking => (3, c.service.rank l)

abbrev Closer : Nat × Nat × Nat → Nat × Nat × Nat → Prop := Prod.Lex (· < ·) Nearer

theorem far_rests {l : Loop} (hloop : c'.loops l = c.loops l) (hrests : c.service.Rests c'.service l) :
    c'.far l = c.far l := by
  unfold far
  rw [hloop, hrests.rank]

theorem poll_closer {w : Work} (hs : c.step route (now, .poll w) = some c') (hflag : c.shutdown = true) :
    c'.up = false ∨ Closer (c'.far w.loop) (c.far w.loop) ∧ ∀ l, l ≠ w.loop → c'.far l = c.far l := by
  obtain ⟨-, -, ⟨hdown, -⟩ | ⟨hothers, hc⟩⟩ := poll_stopping hs hflag
  · exact .inl hdown
  · refine .inr ⟨?_, fun l hl => far_rests (hothers l hl).1 (hothers l hl).2⟩
    unfold far
    rcases hc with ⟨ht, hgoes, ⟨ht', ho⟩ | hret⟩ | ⟨htop, hret⟩ | ⟨⟨since, hwait⟩, htop⟩
    · rw [ht, ht']
      exact .right _ (hgoes.nearer ho)
    · rw [ht, hret]
      exact .left _ _ (by decide)
    · rw [htop, hret]
      exact .left _ _ (by decide)
    · rw [hwait, htop]
      exact .left _ _ (by decide)

/-- All three loops together: a poll brings one of them closer. -/
def allFar (c : Runtime) : (Nat × Nat × Nat) × (Nat × Nat × Nat) × (Nat × Nat × Nat) :=
  (c.far .transcription, c.far .routing, c.far .delivery)

abbrev AnyCloser : (Nat × Nat × Nat) × (Nat × Nat × Nat) × (Nat × Nat × Nat) →
    (Nat × Nat × Nat) × (Nat × Nat × Nat) × (Nat × Nat × Nat) → Prop :=
  Prod.GameAdd Closer (Prod.GameAdd Closer Closer)

theorem closer_wf : WellFounded Closer := WellFounded.prod_lex Nat.lt_wfRel.wf nearer_wf

theorem anyCloser_wf : WellFounded AnyCloser :=
  closer_wf.prod_gameAdd (closer_wf.prod_gameAdd closer_wf)

theorem anyCloser {l : Loop} (h : Closer (c'.far l) (c.far l)) (ho : ∀ k, k ≠ l → c'.far k = c.far k) :
    AnyCloser c'.allFar c.allFar := by
  unfold allFar
  cases l with
  | transcription =>
    rw [ho .routing (by decide), ho .delivery (by decide)]
    exact .fst h
  | routing =>
    rw [ho .transcription (by decide), ho .delivery (by decide)]
    exact .snd (.fst h)
  | delivery =>
    rw [ho .transcription (by decide), ho .routing (by decide)]
    exact .snd (.snd h)

/-- Anything but a start and a poll. -/
def Beside (route : Recording → RoutingDecision) (c c' : Runtime) : Prop :=
  ∃ now what, c.step route (now, what) = some c' ∧ what.isStart = false ∧ ∀ w, what ≠ .poll w

/-- A loop is polled while the flag is set, after whatever came first. -/
def PolledStopping (route : Recording → RoutingDecision) (c' c : Runtime) : Prop :=
  c.shutdown = true ∧
    ∃ d now w, Relation.ReflTransGen (Beside route) c d ∧ d.step route (now, .poll w) = some c'

theorem besides_far (h : Relation.ReflTransGen (Beside route) c c') (hflag : c.shutdown = true) :
    c'.shutdown = true ∧ (c'.up = true → c.up = true ∧ c'.allFar = c.allFar) := by
  induction h with
  | refl => exact ⟨hflag, fun hup => ⟨hup, rfl⟩⟩
  | tail _ hb ih =>
    obtain ⟨now, what, hs, hstart, hpoll⟩ := hb
    obtain ⟨hloops, hkeeps, hrests⟩ := beside_rests hs hstart hpoll
    refine ⟨hkeeps ih.1, fun hup => ?_⟩
    obtain ⟨hwas, hrest⟩ := hrests hup
    obtain ⟨hfirst, hfar⟩ := ih.2 hwas
    refine ⟨hfirst, Eq.trans ?_ hfar⟩
    have same : ∀ l, _ := fun l => far_rests (congrFun hloops l) (hrest l)
    simp only [allFar, same]

theorem polledStopping_wf : WellFounded (PolledStopping route) := by
  refine ⟨fun c => ?_⟩
  induction c using (InvImage.wf allFar anyCloser_wf).induction with
  | _ c ih =>
    refine ⟨_, fun c' hpolled => ?_⟩
    obtain ⟨hflag, d, now, w, hbeside, hs⟩ := hpolled
    obtain ⟨hstill, hfar⟩ := besides_far hbeside hflag
    have hup : d.up = true := (Option.ite_none_right_eq_some.mp (Option.ite_none_right_eq_some.mp hs).2).1
    rcases poll_closer hs hstill with hdown | ⟨hcloser, hothers⟩
    · refine ⟨_, fun c'' ⟨hflag', d', now', w', hbeside', hs'⟩ => ?_⟩
      have hup' : d'.up = true := (Option.ite_none_right_eq_some.mp (Option.ite_none_right_eq_some.mp hs').2).1
      cases hdown.symm.trans ((besides_far hbeside' hflag').2 hup').1
    · refine ih c' ?_
      change AnyCloser c'.allFar c.allFar
      rw [← (hfar hup).2]
      exact anyCloser hcloser hothers

theorem poll_none {w : Work} (h : c.Sound route) (hle : c.clock ≤ now) (hy : Timestamp.InYears now)
    (hup : c.up = true) (hflag : c.shutdown = true) :
    c.step route (now, .poll w) = none ↔ c.loops w.loop = .returned := by
  have hticks : ({ c with clock := now } : Runtime).tick route w ≠ none := by
    have hstep : c.service.step route now w.input ≠ none := by
      unfold Service.step
      rw [if_pos]
      · simp
      · refine ⟨Int.le_trans h.clock hle, hy, ?_⟩
        cases w <;> exact h.running.trans hup
    simpa [tick] using hstep
  have hadvance : c.step route (now, .poll w) = ({ c with clock := now } : Runtime).poll route w := by
    unfold step
    rw [if_pos ⟨hle, hy⟩]
    exact if_pos hup
  rw [hadvance]
  unfold poll
  cases hl : c.loops w.loop with
  | top => simp [hflag]
  | ticking => simpa using hticks
  | waiting since => simp [hflag]
  | returned => simp

/-- Once a signal has come, no schedule goes on polling the loops for ever, whatever
else happens meanwhile; while the process is up none is at its end before every loop is
back, and what takes it down is one of its ends. -/
theorem shutdown_drains (hr : Runs route turns c) (hup : c.up = true) (hflag : c.shutdown = true)
    (hle : c.clock ≤ now) (hy : Timestamp.InYears now) :
    Acc (PolledStopping route) c ∧
      ((∀ w, c.step route (now, .poll w) = none) ↔ c.drained = true) ∧
      ∀ what c', c.step route (now, what) = some c' → c'.up = false → c.Ends now what := by
  refine ⟨polledStopping_wf.apply c, ?_, fun what c' hs hdown => ends_of_down hr.sound hs hup hdown⟩
  have hnone : ∀ w, c.step route (now, .poll w) = none ↔ c.loops w.loop = .returned :=
    fun w => poll_none hr.sound hle hy hup hflag
  rw [drained_iff]
  refine ⟨fun h l => ?_, fun h w => (hnone w).mpr (h w.loop)⟩
  cases l with
  | transcription => exact (hnone (.transcribe "" (.error (.terminal "" "")))).mp (h _)
  | routing => exact (hnone (.route "")).mp (h _)
  | delivery => exact (hnone (.deliver "" (.ok ()))).mp (h _)

/-- Right after the signal of `signalledInTick` there is work to finish. -/
theorem drains_after_signal : ∃ turns c, Runs Service.toNotes turns c ∧ c.drained = false ∧
    Acc (PolledStopping Service.toNotes) c ∧ ∃ w, c.step Service.toNotes (3, .poll w) ≠ none := by
  have hp : (History.play (step Service.toNotes) initial (signalledInTick.take 7)).map
      (fun r => (r.2.up, r.2.shutdown, r.2.drained, decide (r.2.clock ≤ 3))) =
        some (true, true, false, true) := by
    decide +kernel
  obtain ⟨⟨turns, c⟩, hplay, he⟩ := Option.map_eq_some_iff.mp hp
  simp only [Prod.mk.injEq, decide_eq_true_eq] at he
  obtain ⟨hup, hflag, hbusy, hle⟩ := he
  have hr : Runs Service.toNotes turns c := History.of_play hplay
  obtain ⟨hacc, hdone, -⟩ := shutdown_drains hr hup hflag hle (by decide)
  refine ⟨turns, c, hr, hbusy, hacc, ?_⟩
  by_contra hnone
  cases hbusy.symm.trans (hdone.mp fun w => not_not.mp (not_exists.mp hnone w))

end Runtime
end Telegraph
