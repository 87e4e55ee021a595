import Mathlib.Data.List.SplitLengths
import Telegraph.Proofs.DueInTime
import Telegraph.Proofs.IdleTicks
import Telegraph.Proofs.NoLivelock

namespace Telegraph
open Lib Program Lib.Retry SqliteStore Function

namespace Service
variable {c c' c₀ : Process} {trace events : List Event} {route : Recording → RoutingDecision}
  {turns : List (Turn Process (Int × Input Unit))} {now t₀ : Int} {input : Input Unit} {s : Store}

/-- The loop is between two ticks of the running process. -/
def resting (c : Process) : Loop → Bool
  | .transcription => match c.transcribers () with
    | .ready _ => c.running
    | _ => false
  | .routing => match c.routers () with
    | .ready _ => c.running
    | _ => false
  | .delivery => match c.deliverers () with
    | .ready _ => c.running
    | _ => false

/-- In these turns the loop begins a tick, at `since` or later, and comes to its end. -/
def ticks (l : Loop) (since : Int) : List (Turn Process (Int × Input Unit)) → Bool
  | [] => false
  | t :: later => (resting t.before l && !resting t.after l && decide (since ≤ t.after.clock) &&
      later.any fun u => resting u.after l) || ticks l since later

/-- A round: every loop goes through a tick that begins once the longest backoff has passed
since the round began. -/
def fullRound (round : List (Turn Process (Int × Input Unit))) : Bool :=
  round.head?.any fun first => [Loop.transcription, .routing, .delivery].all fun l =>
    ticks l (first.before.clock + longestBackoff) round

theorem ticks_cases {l : Loop} {since : Int} (h : ticks l since turns = true) :
    ∃ earlier t mid u later, turns = earlier ++ t :: (mid ++ u :: later) ∧ resting t.before l = true ∧
      resting t.after l = false ∧ since ≤ t.after.clock ∧ resting u.after l = true := by
  induction turns with
  | nil => cases h
  | cons t rest ih =>
    simp only [ticks, Bool.or_eq_true, Bool.and_eq_true, Bool.not_eq_true', decide_eq_true_eq,
      List.any_eq_true] at h
    rcases h with ⟨⟨⟨hb, ha⟩, hle⟩, u, hu, hru⟩ | h
    · obtain ⟨mid, later, rfl⟩ := List.append_of_mem hu
      exact ⟨[], t, mid, u, later, rfl, hb, ha, hle, hru⟩
    · obtain ⟨earlier, t', mid, u, later, rfl, hrest⟩ := ih h
      exact ⟨t :: earlier, t', mid, u, later, rfl, hrest⟩

/-- What the loops have found, all of them in ticks that change nothing. -/
structure Scanning (s : Store) (t₀ : Int) (c : Process) (l : Loop) : Prop where
  late : t₀ ≤ c.clock
  finds : c.running = true → match l with
    | .transcription => (c.transcribers ()).Scans s t₀
    | .routing => (c.routers ()).Scans s
    | .delivery => (c.deliverers ()).Scans s t₀

/-- The loop has nothing to do. -/
def NothingFor (s : Store) : Loop → Prop
  | .transcription => s.Transcribed
  | .routing => s.Routed
  | .delivery => s.Delivered

/-- A tick that changed nothing and is over found nothing to do. -/
theorem Scanning.over {l : Loop} (h : Scanning s t₀ c l) (hend : resting c l = true) : NothingFor s l := by
  obtain ⟨-, hfinds⟩ := h
  cases l with
  | transcription =>
    simp only [resting] at hend
    cases hpc : c.transcribers () with
    | ready last =>
      rw [hpc] at hfinds hend
      exact hfinds hend
    | _ => simp [hpc] at hend
  | routing =>
    simp only [resting] at hend
    cases hpc : c.routers () with
    | ready last =>
      rw [hpc] at hfinds hend
      exact hfinds hend
    | _ => simp [hpc] at hend
  | delivery =>
    simp only [resting] at hend
    cases hpc : c.deliverers () with
    | ready last =>
      rw [hpc] at hfinds hend
      exact hfinds hend
    | _ => simp [hpc] at hend

theorem running_of_worker (hs : c.step route now input = some (c', events)) (hw : input.byWorker = true) :
    c.running = true := by
  have ha := (step_some hs).1.2.2
  cases input <;> first | exact ha | cases hw

/-- What is listed when nobody holds anything is in nobody's hands, and due late enough. -/
theorem Accounted.ripe {b : Board Unit String} {d : Board Unit Int} (h : c.Accounted trace b d)
    (hb : b.EndedBy) (hd : d.EndedBy) (ht : c.clock + longestBackoff ≤ t₀) :
    c.store.TranscriptionRipe t₀ ∧ c.store.DeliveryRipe t₀ := by
  refine ⟨⟨fun row hm recording t hle => h.transcription_ripe hb hm (ht.trans hle), fun row hm => ?_⟩,
    ⟨fun row hm e he recording transcript t hle => h.delivery_ripe hd hm he (ht.trans hle),
      fun row hm => ?_⟩⟩
  · exact (Ledger.closed_iff rfl).mp (Store.mem_transcriptionRetryRows h.transcription_ledgers hm).2.1
  · exact (Ledger.closed_iff rfl).mp (Store.mem_deliveryCandidateRows h.delivery_ledgers hm).2.1

/-- A step that changes nothing leaves every loop scanning. -/
theorem Scanning.step {l : Loop} (h : Scanning s t₀ c l) (hr : Run route trace c)
    (hs : c.step route now input = some (c', events)) (hw : input.byWorker = true) (hstore : c.store = s)
    (hstore' : c'.store = s) (hidle : ∀ e ∈ events, e.isMove = false) (ht : s.TranscriptionRipe t₀)
    (hd : s.DeliveryRipe t₀) : Scanning s t₀ c' l := by
  subst hstore
  have hrun := running_of_worker hs hw
  have hscan := h.finds hrun
  have hle := (step_some hs).1.1
  have hnow : t₀ ≤ now := h.late.trans hle
  refine ⟨(step_clock hs) ▸ hnow, fun hrun' => ?_⟩
  obtain ⟨-, b, d, ha, -, -⟩ := hr.undisturbed
  have hknown := (Runs.informed hr).deliverers ()
  obtain ⟨-, he⟩ := step_some hs
  unfold apply at he
  cases input with
  | transcribe i id reply =>
    rcases @settle_parts { c with clock := now } _ _ _ _ _ he with rfl | ⟨next, hok, rfl⟩
    · cases hrun'
    · cases l with
      | transcription =>
        have hpc : (update c.transcribers i next) () = next := update_self ..
        simp only [onTranscriber, hpc]
        have hstep : (Transcription.action ⟨now, id, reply⟩ (c.transcribers i)).run c.store =
            (c.store, .ok (next, events)) := Prod.ext hstore' hok
        refine Transcription.action_scans hscan hstep hidle hnow ht fun hn r hm hst => ?_
        refine (ha.transcribing_kept hrun hm hst).resolve_right ?_
        rintro ⟨j, hj⟩
        cases hn.symm.trans hj
      | routing => exact hscan
      | delivery => exact hscan
  | route i id =>
    rcases @settle_parts { c with clock := now } _ _ _ _ _ he with rfl | ⟨next, hok, rfl⟩
    · cases hrun'
    · cases l with
      | transcription => exact hscan
      | routing =>
        have hpc : (update c.routers i next) () = next := update_self ..
        simp only [onRouter, hpc]
        have hstep : (Routing.action route ⟨now, id, ()⟩ (c.routers i)).run c.store =
            (c.store, .ok (next, events)) := Prod.ext hstore' hok
        exact Routing.action_scans hscan hstep
      | delivery => exact hscan
  | deliver i id reply =>
    rcases @settle_parts { c with clock := now } _ _ _ _ _ he with rfl | ⟨next, hok, rfl⟩
    · cases hrun'
    · cases l with
      | transcription => exact hscan
      | routing => exact hscan
      | delivery =>
        have hpc : (update c.deliverers i next) () = next := update_self ..
        simp only [onDeliverer, hpc]
        have hstep : (Delivering.action ⟨now, id, reply⟩ (c.deliverers i)).run c.store =
            (c.store, .ok (next, events)) := Prod.ext hstore' hok
        refine Delivering.action_scans hscan hstep hidle hnow hd hknown fun hn r hm hst => ?_
        refine (ha.delivering_kept hrun hm hst).resolve_right ?_
        rintro ⟨e, j, -, hj⟩
        cases hn.symm.trans hj
  | _ => cases hw

/-- The step that begins a tick. -/
theorem scanning_of_woken {l : Loop} (hs : c.step route now input = some (c', events))
    (hw : input.byWorker = true) (hb : resting c l = true) (ha : resting c' l = false)
    (hle : t₀ ≤ c'.clock) : Scanning s t₀ c' l := by
  refine ⟨hle, fun hrun' => ?_⟩
  have hnow : t₀ ≤ now := step_clock hs ▸ hle
  obtain ⟨-, he⟩ := step_some hs
  unfold apply at he
  cases input with
  | transcribe i id reply =>
    rcases @settle_parts { c with clock := now } _ _ _ _ _ he with rfl | ⟨next, hok, rfl⟩
    · cases hrun'
    · cases l with
      | transcription =>
        have hpc : (update c.transcribers i next) () = next := update_self ..
        simp only [onTranscriber, hpc]
        cases hpc' : c.transcribers () with
        | ready last =>
          rw [show c.transcribers i = .ready last from hpc'] at hok
          cases hok
          exact hnow
        | _ => simp [resting, hpc'] at hb
      | routing => exact absurd (show resting c .routing = false from ha) (by simp [hb])
      | delivery => exact absurd (show resting c .delivery = false from ha) (by simp [hb])
  | route i id =>
    rcases @settle_parts { c with clock := now } _ _ _ _ _ he with rfl | ⟨next, hok, rfl⟩
    · cases hrun'
    · cases l with
      | transcription => exact absurd (show resting c .transcription = false from ha) (by simp [hb])
      | routing =>
        have hpc : (update c.routers i next) () = next := update_self ..
        simp only [onRouter, hpc]
        cases hpc' : c.routers () with
        | ready last =>
          rw [show c.routers i = .ready last from hpc'] at hok
          cases hok
          trivial
        | _ => simp [resting, hpc'] at hb
      | delivery => exact absurd (show resting c .delivery = false from ha) (by simp [hb])
  | deliver i id reply =>
    rcases @settle_parts { c with clock := now } _ _ _ _ _ he with rfl | ⟨next, hok, rfl⟩
    · cases hrun'
    · cases l with
      | transcription => exact absurd (show resting c .transcription = false from ha) (by simp [hb])
      | routing => exact absurd (show resting c .routing = false from ha) (by simp [hb])
      | delivery =>
        have hpc : (update c.deliverers i next) () = next := update_self ..
        simp only [onDeliverer, hpc]
        cases hpc' : c.deliverers () with
        | ready last =>
          rw [show c.deliverers i = .ready last from hpc'] at hok
          cases hok
          exact hnow
        | _ => simp [resting, hpc'] at hb
  | _ => cases hw

namespace Stretch

/-- A part of a stretch is a stretch. -/
theorem append {mid : List (Turn Process (Int × Input Unit))} (h : Stretch route c₀ (turns ++ mid) c) :
    ∃ c₁, Stretch route c₀ turns c₁ ∧ Stretch route c₁ mid c := by
  obtain ⟨c₁, h₁, h₂⟩ := h.run.split
  exact ⟨c₁, ⟨h₁, fun t ht => h.byWorker t (List.mem_append_left _ ht)⟩, h₂,
    fun t ht => h.byWorker t (List.mem_append_right _ ht)⟩

/-- In an idle stretch the database stays as it is. -/
theorem store_eq (h : Stretch route c₀ turns c) (hb : ∀ t ∈ turns, busy route t = false) :
    c.store = c₀.store := by
  obtain ⟨hrun, hw⟩ := h
  induction hrun with
  | start => rfl
  | @turn turns s s' l _ hstep ih =>
    have hlast := store_of_idle (t := ⟨s, l, s'⟩) hstep (hw _ (by simp)) (hb _ (by simp))
    exact hlast.trans (ih (fun t ht => hb t (List.mem_append_left _ ht)) fun t ht =>
      hw t (List.mem_append_left _ ht))

/-- A loop that scans through an idle stretch still does at its end. -/
theorem scanning {l : Loop} (h : Stretch route c₀ turns c) (hr : Run route trace c₀)
    (hb : ∀ t ∈ turns, busy route t = false) (hs : Scanning c₀.store t₀ c₀ l)
    (ht : c₀.store.TranscriptionRipe t₀) (hd : c₀.store.DeliveryRipe t₀) : Scanning c₀.store t₀ c l := by
  obtain ⟨hrun, hw⟩ := h
  induction hrun with
  | start => exact hs
  | @turn turns s s' l' hrun hstep ih =>
    have hprev : Stretch route c₀ turns s := ⟨hrun, fun t ht => hw t (List.mem_append_left _ ht)⟩
    have hidle : ∀ t ∈ turns, busy route t = false := fun t ht => hb t (List.mem_append_left _ ht)
    have hshown := step_shown (t := ⟨s, l', s'⟩) hstep
    have hstore := hprev.store_eq hidle
    have hsame := store_of_idle (t := ⟨s, l', s'⟩) hstep (hw _ (by simp)) (hb _ (by simp))
    refine (ih hidle hprev.byWorker).step (hprev.shows hr) hshown (hw _ (by simp)) hstore
      (hsame.trans hstore) (fun e he => ?_) ht hd
    have hquiet := hb ⟨s, l', s'⟩ (by simp)
    simp only [busy, Bool.or_eq_false_iff, List.any_eq_false] at hquiet
    simpa using hquiet.1 e he

/-- A loop whose whole tick found everything due, and changed nothing, has nothing to do. -/
theorem nothing_left {l : Loop} (h : Stretch route c₀ turns c) (hr : Run route trace c₀)
    (hb : ∀ t ∈ turns, busy route t = false) (ht : ticks l (c₀.clock + longestBackoff) turns = true) :
    NothingFor c₀.store l := by
  obtain ⟨earlier, t, mid, u, later, rfl, hrest, hwake, hle, hend⟩ := ticks_cases ht
  obtain ⟨b, d, ha, -, -, heb, hed⟩ := Runs.endedBy hr
  obtain ⟨hript, hriped⟩ := ha.ripe heb hed (le_refl (c₀.clock + longestBackoff))
  have hmem : t ∈ earlier ++ t :: (mid ++ u :: later) := by simp
  have hstep := step_shown (h.run.step_of_mem hmem)
  have hw := h.byWorker t hmem
  have hstart := h.upTo rfl
  have hbefore : t.before.store = c₀.store := hstart.store_eq fun v hv => hb v (by simp [hv])
  have hafter : t.after.store = c₀.store :=
    (store_of_idle (h.run.step_of_mem hmem) hw (hb t hmem)).trans hbefore
  have hrun : Run route (trace ++ earlier.flatMap (shown route) ++ shown route t) t.after :=
    .step t.what.1 t.what.2 (hstart.shows hr) trivial hstep
  -- The tick begins at `t` with nothing found and is over at `u`; in between the database stands still.
  have hscan : Scanning t.after.store (c₀.clock + longestBackoff) t.after l := by
    rw [hafter]
    exact scanning_of_woken hstep hw hrest hwake hle
  have hrest' : Stretch route t.after (mid ++ [u]) u.after := by
    have hsince := h.since rfl
    rw [show mid ++ u :: later = (mid ++ [u]) ++ later by simp] at hsince
    obtain ⟨c₁, h₁, -⟩ := hsince.append
    exact h₁.run.last ▸ h₁
  have hfinal := hrest'.scanning hrun (fun v hv => hb v (by
    rcases List.mem_append.mp hv with hv | hv
    · simp [hv]
    · simp [List.mem_singleton.mp hv])) hscan (hafter ▸ hript) (hafter ▸ hriped)
  rw [hafter] at hfinal
  exact hfinal.over hend

end Stretch

/-- A round that gets nothing done began with nothing to do. -/
theorem Stretch.settled {round : List (Turn Process (Int × Input Unit))}
    (h : Stretch route c₀ round c) (hr : Run route trace c₀) (hb : ∀ t ∈ round, busy route t = false)
    (hf : fullRound round = true) (x : String) :
    c₀.store.distance x = 0 := by
  cases round with
  | nil => cases hf
  | cons first rest =>
    have hfirst : first.before = c₀ := by
      obtain ⟨hnone, -⟩ := h.upTo (show first :: rest = [] ++ first :: rest from rfl)
      generalize he : ([] : List (Turn Process (Int × Input Unit))) = earlier at hnone
      cases hnone with
      | start => rfl
      | turn l _ _ => simp at he
    simp only [fullRound, List.head?_cons, Option.any_some, List.all_eq_true, hfirst] at hf
    have htranscribed : c₀.store.Transcribed := h.nothing_left hr hb (hf .transcription (by simp))
    have hrouted : c₀.store.Routed := h.nothing_left hr hb (hf .routing (by simp))
    have hdelivered : c₀.store.Delivered := h.nothing_left hr hb (hf .delivery (by simp))
    cases hrec : c₀.store.recording x with
    | none => simp [Store.distance, Store.statusOf, hrec]
    | some r =>
      have hmem := (Table.find_mem hrec).1
      obtain ⟨hreceived, htranscribing⟩ := htranscribed r hmem
      have hrouting := hrouted r hmem
      have hdelivering := hdelivered r hmem
      rw [Store.distance_eq hrec]
      cases hst : r.status <;> simp_all [RecordingStatus.distance]

theorem RecordingStatus.rests {status : RecordingStatus} (h : status.distance = 0) :
    status.Parked ∨ status = .delivered := by
  cases status <;> simp_all [RecordingStatus.distance, RecordingStatus.Parked]

/-- The Pipeline comes to rest: after enough rounds of the worker loops, whatever the integrations
answer, every Recording is delivered or waits for the Operator. -/
theorem comes_to_rest {rounds : List (List (Turn Process (Int × Input Unit)))} {x : String}
    {r : RecordingRow} (hr : Run route trace c₀) (h : Stretch route c₀ rounds.flatten c)
    (hfull : ∀ round ∈ rounds, fullRound round = true)
    (hlong : 42 * c₀.store.recordings.rows.length < rounds.length) (hx : c₀.store.recording x = some r) :
    ∃ r', c.store.recording x = some r' ∧ (r'.status.Parked ∨ r'.status = .delivered) := by
  -- Some round gets nothing done, and from then on nobody gets further from its rest again.
  obtain ⟨round, hround, hquiet⟩ := quiet_round (h.busy_bounded hr) hlong
  obtain ⟨earlier, later, rfl⟩ := List.append_of_mem hround
  have hends : c.store.distance x = 0 := by
    rw [List.flatten_append, List.flatten_cons] at h
    obtain ⟨c₁, hbefore, hafter⟩ := h.append
    obtain ⟨c₂, hthis, -⟩ := hafter.append
    have hzero := hthis.settled (hbefore.shows hr) hquiet (hfull round hround) x
    exact Nat.le_zero.mp (hzero ▸ hafter.nears x)
  have hmem : x ∈ c.store.recordings.rows.map (·.id) := by
    rw [h.sameIds, ← Store.recording_id hx]
    exact List.mem_map_of_mem (Table.find_mem hx).1
  cases hrec : c.store.recording x with
  | none =>
    obtain ⟨r', hr', hid⟩ := List.mem_map.mp hmem
    exact absurd hid (by simpa using List.find?_eq_none.mp hrec r' hr')
  | some r' => exact ⟨r', rfl, RecordingStatus.rests (Store.distance_eq hrec ▸ hends)⟩

/-- One round every six hours: in the first the Recording is transcribed, routed and delivered, in
the others there is nothing to do. -/
def restfulRounds : List (Int × Input Unit) :=
  List.replicate 8 (Duration.hours 6, .transcribe () "t1"
      (.ok ⟨"scribe", "hello", "\x7b\x7d", none, none⟩)) ++
    List.replicate 8 (Duration.hours 6, .route () "d1") ++
    List.replicate 11 (Duration.hours 6, .deliver () "a1" (.ok ())) ++
    (List.range 42).flatMap fun k =>
      List.replicate 4 (Duration.hours (6 * (k + 2)), .transcribe () "t2"
          (.error (.retryable "503" "busy"))) ++
        List.replicate 2 (Duration.hours (6 * (k + 2)), .route () "d2") ++
        List.replicate 3 (Duration.hours (6 * (k + 2)), .deliver () "a2" (.ok ()))

theorem first_comes_to_rest :
    ∃ c₀ c trace, ∃ rounds : List (List (Turn Process (Int × Input Unit))), ∃ r, Run toNotes trace c₀ ∧
      Stretch toNotes c₀ rounds.flatten c ∧
      42 * c₀.store.recordings.rows.length < rounds.length ∧
      (∀ round ∈ rounds, fullRound round = true) ∧ c₀.store.recording firstUpload.id = some r ∧
      ∃ r', c.store.recording firstUpload.id = some r' ∧
        (r'.status.Parked ∨ r'.status = .delivered) := by
  have hp : (initial.play toNotes [(0, .recover), (0, .upload firstUpload)]).bind (fun q =>
      (History.play (next toNotes) q.1 restfulRounds).bind fun p =>
        (q.1.store.recording firstUpload.id).map fun _ => (q.1.store.recordings.rows.length, p.1.length,
          p.1.all fun t => t.what.2.byWorker,
          ((27 :: List.replicate 42 9).splitLengths p.1).all fullRound)) = some (1, 405, true, true) := by
    decide +kernel
  obtain ⟨⟨c₀, trace⟩, hplay, hp⟩ := Option.bind_eq_some_iff.mp hp
  obtain ⟨⟨turns, c⟩, hturns, hp⟩ := Option.bind_eq_some_iff.mp hp
  obtain ⟨r, hr, he⟩ := Option.map_eq_some_iff.mp hp
  replace hr : c₀.store.recording firstUpload.id = some r := hr
  simp only [Prod.mk.injEq, List.all_eq_true] at he
  obtain ⟨hone, hlen, hworkers, hfull⟩ := he
  have hflat : ((27 :: List.replicate 42 9).splitLengths turns).flatten = turns :=
    List.flatten_splitLengths _ _ (by simp [hlen])
  have hrun : Run toNotes trace c₀ := run_of_play hplay
  have hstretch : Stretch toNotes c₀ ((27 :: List.replicate 42 9).splitLengths turns).flatten c := by
    rw [hflat]
    exact ⟨History.of_play hturns, hworkers⟩
  have hlong : 42 * c₀.store.recordings.rows.length <
      ((27 :: List.replicate 42 9).splitLengths turns).length := by
    rw [hone, List.length_splitLengths]
    decide
  exact ⟨c₀, c, trace, _, r, hrun, hstretch, hlong, hfull, hr,
    comes_to_rest hrun hstretch hfull hlong hr⟩

end Service
end Telegraph
