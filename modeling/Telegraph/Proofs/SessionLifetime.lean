import Telegraph.Proofs.SessionRows
import Telegraph.SessionCalls

namespace Telegraph
open Lib Function Tokens SessionTable AuthService

/-- The same session later on: its deadline of 14 days is fixed, and a revoked row is frozen. -/
structure OperatorSession.Continues (s s' : OperatorSession) : Prop where
  createdAt : s'.createdAt = s.createdAt
  absoluteExpiresAt : s'.absoluteExpiresAt = s.absoluteExpiresAt
  frozen : s.revokedAt ≠ none → s' = s

namespace OperatorSession.Continues
variable {s s' s'' : OperatorSession}

theorem refl : Continues s s := ⟨rfl, rfl, fun _ => rfl⟩

theorem trans (h : Continues s s') (h' : Continues s' s'') : Continues s s'' where
  createdAt := h'.createdAt.trans h.createdAt
  absoluteExpiresAt := h'.absoluteExpiresAt.trans h.absoluteExpiresAt
  frozen hr := by
    have he := h.frozen hr
    rw [← he] at hr
    exact (h'.frozen hr).trans he

end OperatorSession.Continues

namespace SessionCall
variable {sha256 : Bytes → Bytes} {t t' : SessionTable} {c c' : SessionCall}

/-- What one statement can do, with everything it checked. -/
inductive Moves (sha256 : Bytes → Bytes) (t : SessionTable) : SessionCall → SessionTable → SessionCall → Prop where
  | starts {username : String} {entropy : Bytes} {now : Int} {t' : SessionTable} {session : StartedSession}
      (after : ∀ key, t'.getSession key = (t.getSession key).or
        (if hashToken sha256 (generateToken entropy) == key then
          some (newSession sha256 username (generateToken entropy) now).row else none)) :
      Moves sha256 t (startSession username entropy now) t' (started (.ok session))
  | startRefused {username : String} {entropy : Bytes} {now : Int} {e : StorageError} :
      Moves sha256 t (startSession username entropy now) t (started (.error e))
  | reads {token : String} {now : Int} {session : OperatorSession}
      (found : t.getSession (hashToken sha256 token) = some session)
      (active : evaluateSession session now = .active) :
      Moves sha256 t (authenticate token now) t (refreshing token session now)
  | unread {token : String} {now : Int} :
      Moves sha256 t (authenticate token now) t (authenticated none)
  | refreshes {token : String} {session s : OperatorSession} {now : Int} {t' : SessionTable}
      {auth : AuthenticatedSession}
      (found : t.getSession (hashToken sha256 token) = some s) (unrevoked : s.revokedAt = none)
      (after : ∀ key, t'.getSession key = (t.getSession key).map fun s =>
        if live (hashToken sha256 token) s then s.touched now (refreshedIdle session now) else s) :
      Moves sha256 t (refreshing token session now) t' (authenticated (some auth))
  | refreshLost {token : String} {session : OperatorSession} {now : Int} :
      Moves sha256 t (refreshing token session now) t (authenticated none)
  | revokes {hash : String} {at_ : Int} {t' : SessionTable} {found : Bool}
      (after : ∀ key, t'.getSession key = (t.getSession key).map fun s =>
        if live hash s then s.revoked at_ else s) :
      Moves sha256 t (revokeSession hash at_) t' (revoked found)

theorem advance_moves (h : c.advance sha256 t = some (t', c')) : Moves sha256 t c t' c' := by
  cases c with
  | startSession username entropy now =>
    cases hs : AuthService.startSession sha256 username entropy now t with
    | ok r =>
      simp only [advance, hs, Option.some.injEq, Prod.mk.injEq] at h
      obtain ⟨rfl, rfl⟩ := h
      exact .starts fun key => getSession_createSession (startSession_ok hs)
    | error e =>
      simp only [advance, hs, Option.some.injEq, Prod.mk.injEq] at h
      obtain ⟨rfl, rfl⟩ := h
      exact .startRefused
  | authenticate token now =>
    cases hs : findActive sha256 token now t with
    | some session =>
      simp only [advance, hs, Option.some.injEq, Prod.mk.injEq] at h
      obtain ⟨rfl, rfl⟩ := h
      obtain ⟨found, active⟩ := findActive_some.mp hs
      exact .reads found active
    | none =>
      simp only [advance, hs, Option.some.injEq, Prod.mk.injEq] at h
      obtain ⟨rfl, rfl⟩ := h
      exact .unread
  | refreshing token session now =>
    simp only [advance, Option.some.injEq, Prod.mk.injEq] at h
    obtain ⟨rfl, rfl⟩ := h
    by_cases hlive : ∃ s, t.getSession (hashToken sha256 token) = some s ∧ s.revokedAt = none
    · obtain ⟨s, found, unrevoked⟩ := hlive
      rw [refresh_some found unrevoked, refresh_fst]
      exact .refreshes found unrevoked fun key => getSession_touchSession
    · rw [refresh_lost fun s hs hn => hlive ⟨s, hs, hn⟩]
      exact .refreshLost
  | revokeSession hash at_ =>
    simp only [advance, Option.some.injEq, Prod.mk.injEq] at h
    obtain ⟨rfl, rfl⟩ := h
    exact .revokes fun key => getSession_revokeSession
  | started result => cases h
  | authenticated result => cases h
  | revoked found => cases h

/-- Every session goes on through a statement of any call. -/
theorem Moves.continues {key : String} {s : OperatorSession} (h : Moves sha256 t c t' c')
    (hs : t.getSession key = some s) : ∃ s', t'.getSession key = some s' ∧ s.Continues s' := by
  cases h with
  | starts after => exact ⟨s, by rw [after, hs, Option.some_or], .refl⟩
  | startRefused => exact ⟨s, hs, .refl⟩
  | reads => exact ⟨s, hs, .refl⟩
  | unread => exact ⟨s, hs, .refl⟩
  | refreshLost => exact ⟨s, hs, .refl⟩
  | @refreshes token session _ now _ _ _ _ after =>
    refine ⟨_, by rw [after, hs, Option.map_some], ?_⟩
    split
    next hl => exact ⟨rfl, rfl, fun hr => absurd (live_iff.mp hl).2 hr⟩
    next => exact .refl
  | @revokes hash at_ _ _ after =>
    refine ⟨_, by rw [after, hs, Option.map_some], ?_⟩
    split
    next hl => exact ⟨rfl, rfl, fun hr => absurd (live_iff.mp hl).2 hr⟩
    next => exact .refl

theorem Moves.not_new (h : Moves sha256 t c t' c') : ¬ c'.IsNew := by
  cases h <;> exact id

end SessionCall

namespace Visits
variable {ι : Type} {sha256 : Bytes → Bytes}

/-- This turn is the successful end of an `authenticate` at `now` of the session of `hash`. -/
def Succeeds (sha256 : Bytes → Bytes) (v₀ : Visits ι) (hash : String) (now : Int)
    (u : Turn (Visits ι) ι) : Prop :=
  ∃ token auth, v₀.calls u.what = .authenticate token now ∧ hashToken sha256 token = hash ∧
    u.after.calls u.what = .authenticated (some auth)

/-- This turn is the `start_session` at `now` that made the session of `hash`. -/
def Starts (sha256 : Bytes → Bytes) (v₀ : Visits ι) (hash : String) (now : Int)
    (u : Turn (Visits ι) ι) : Prop :=
  ∃ username entropy started, v₀.calls u.what = .startSession username entropy now ∧
    hashToken sha256 (generateToken entropy) = hash ∧ u.after.calls u.what = .started (.ok started)

/-- What a row shows of the run so far. -/
structure Sound (sha256 : Bytes → Bytes) (v₀ : Visits ι) (turns : List (Turn (Visits ι) ι)) (hash : String)
    (s : OperatorSession) : Prop where
  idle_le : s.idleExpiresAt ≤ s.absoluteExpiresAt
  absolute : s.absoluteExpiresAt = s.createdAt + absoluteTtl
  started : ∃ u ∈ turns, Starts sha256 v₀ hash s.createdAt u
  idle : s.idleExpiresAt ≤ s.createdAt + idleTtl ∨
    ∃ u ∈ turns, ∃ now, Succeeds sha256 v₀ hash now u ∧ s.idleExpiresAt ≤ now + idleTtl

variable {v₀ v v' : Visits ι} {turns : List (Turn (Visits ι) ι)} {hash : String} {s : OperatorSession}

theorem Sound.later (h : Sound sha256 v₀ turns hash s) (u : Turn (Visits ι) ι) :
    Sound sha256 v₀ (turns ++ [u]) hash s where
  idle_le := h.idle_le
  absolute := h.absolute
  started := by
    obtain ⟨w, hw, hs⟩ := h.started
    exact ⟨w, List.mem_append_left _ hw, hs⟩
  idle := by
    rcases h.idle with hi | ⟨w, hw, now, hs⟩
    · exact .inl hi
    · exact .inr ⟨w, List.mem_append_left _ hw, now, hs⟩

/-- Every row is sound, and what a suspended `authenticate` read was sound and is continued. -/
structure Kept (sha256 : Bytes → Bytes) (v₀ : Visits ι) (turns : List (Turn (Visits ι) ι)) (v : Visits ι) :
    Prop where
  rows : ∀ hash s, v.sessions.getSession hash = some s → Sound sha256 v₀ turns hash s
  fresh : ∀ i, (v.calls i).IsNew → v₀.calls i = v.calls i
  reads : ∀ i token session now, v.calls i = .refreshing token session now →
    v₀.calls i = .authenticate token now ∧ evaluateSession session now = .active ∧
      Sound sha256 v₀ turns (hashToken sha256 token) session ∧
      ∃ s, v.sessions.getSession (hashToken sha256 token) = some s ∧ session.Continues s

/-- The row a successful refresh leaves is justified by that refresh. -/
theorem Sound.touched {session : OperatorSession} {now : Int} {u : Turn (Visits ι) ι}
    (h : Sound sha256 v₀ turns hash s) (stale : session.Continues s) (hu : Succeeds sha256 v₀ hash now u) :
    Sound sha256 v₀ (turns ++ [u]) hash (s.touched now (refreshedIdle session now)) where
  idle_le := by
    have hfixed := stale.absoluteExpiresAt
    change min (now + idleTtl) session.absoluteExpiresAt ≤ s.absoluteExpiresAt
    omega
  absolute := h.absolute
  started := (h.later u).started
  idle := by
    refine .inr ⟨u, by simp, now, hu, ?_⟩
    change min (now + idleTtl) session.absoluteExpiresAt ≤ now + idleTtl
    omega

theorem Sound.revoked (h : Sound sha256 v₀ turns hash s) (at_ : Int) :
    Sound sha256 v₀ turns hash (s.revoked at_) :=
  ⟨h.idle_le, h.absolute, h.started, h.idle⟩

theorem Sound.newSession {username : String} {entropy : Bytes} {now : Int} {u : Turn (Visits ι) ι}
    (hu : Starts sha256 v₀ hash now u) : Sound sha256 v₀ (turns ++ [u]) hash
      (AuthService.newSession sha256 username (generateToken entropy) now).row where
  idle_le := by
    change now + idleTtl ≤ now + absoluteTtl
    have hlt : idleTtl ≤ absoluteTtl := by decide
    omega
  absolute := rfl
  started := ⟨u, by simp, hu⟩
  idle := .inl le_rfl

theorem Kept.reads_step {i : ι} {t : SessionTable} {c : SessionCall} (hk : Kept sha256 v₀ turns v)
    (hm : SessionCall.Moves sha256 v.sessions (v.calls i) t c) {token : String} {session : OperatorSession}
    {now : Int} (hc : c = .refreshing token session now) :
    v₀.calls i = .authenticate token now ∧ evaluateSession session now = .active ∧
      Sound sha256 v₀ turns (hashToken sha256 token) session ∧
      t.getSession (hashToken sha256 token) = some session := by
  generalize hbefore : v.calls i = c₀ at hm
  cases hm with
  | reads found active =>
    cases hc
    refine ⟨?_, active, hk.rows _ _ found, found⟩
    rw [hk.fresh i (by rw [hbefore]; trivial), hbefore]
  | starts | startRefused | unread | refreshes | refreshLost | revokes => cases hc

section Steps
variable [DecidableEq ι]

theorem step_moves {i : ι} (h : v.step sha256 i = some v') :
    ∃ t c, SessionCall.Moves sha256 v.sessions (v.calls i) t c ∧ v' = ⟨t, update v.calls i c⟩ := by
  obtain ⟨⟨t, c⟩, hr, rfl⟩ := Option.map_eq_some_iff.mp h
  exact ⟨t, c, SessionCall.advance_moves hr, rfl⟩

theorem Kept.sound_step {i : ι} {t : SessionTable} {c : SessionCall} (hk : Kept sha256 v₀ turns v)
    (hm : SessionCall.Moves sha256 v.sessions (v.calls i) t c) (hs : t.getSession hash = some s) :
    Sound sha256 v₀ (turns ++ [⟨v, i, ⟨t, update v.calls i c⟩⟩]) hash s := by
  generalize hc : v.calls i = c₀ at hm
  cases hm with
  | starts after =>
    rw [after] at hs
    rcases Option.or_eq_some_iff.mp hs with hold | ⟨-, hnew⟩
    · exact (hk.rows hash s hold).later _
    · split at hnew
      next hhash =>
        cases hnew
        have horigin := (hk.fresh i (by rw [hc]; trivial)).trans hc
        exact Sound.newSession ⟨_, _, _, horigin, beq_iff_eq.mp hhash, update_self ..⟩
      next => cases hnew
  | startRefused => exact (hk.rows hash s hs).later _
  | reads => exact (hk.rows hash s hs).later _
  | unread => exact (hk.rows hash s hs).later _
  | refreshLost => exact (hk.rows hash s hs).later _
  | refreshes found unrevoked after =>
    rw [after] at hs
    obtain ⟨r, hr, he⟩ := Option.map_eq_some_iff.mp hs
    split at he
    next hlive =>
      cases he
      obtain ⟨horigin, -, -, s', hs', stale⟩ := hk.reads i _ _ _ hc
      have hhash := (live_iff.mp hlive).1.symm.trans (sessionHash_eq hr)
      rw [hhash, hr] at hs'
      cases hs'
      exact (hk.rows hash r hr).touched stale ⟨_, _, horigin, hhash, update_self ..⟩
    next =>
      cases he
      exact (hk.rows hash _ hr).later _
  | revokes after =>
    rw [after] at hs
    obtain ⟨r, hr, he⟩ := Option.map_eq_some_iff.mp hs
    split at he
    next =>
      cases he
      exact ((hk.rows hash r hr).revoked _).later _
    next =>
      cases he
      exact (hk.rows hash _ hr).later _

theorem Kept.step {i : ι} (hk : Kept sha256 v₀ turns v) (h : v.step sha256 i = some v') :
    Kept sha256 v₀ (turns ++ [⟨v, i, v'⟩]) v' := by
  obtain ⟨t, c, hm, rfl⟩ := step_moves h
  refine ⟨fun hash s hs => hk.sound_step hm hs, ?_, ?_⟩
  · intro j hj
    dsimp only at hj ⊢
    by_cases hji : j = i
    · subst hji
      rw [update_self] at hj
      exact absurd hj hm.not_new
    · rw [update_of_ne hji] at hj ⊢
      exact hk.fresh j hj
  · intro j token session now hj
    dsimp only at hj ⊢
    by_cases hji : j = i
    · subst hji
      rw [update_self] at hj
      obtain ⟨horigin, active, hsound, found⟩ := hk.reads_step hm hj
      exact ⟨horigin, active, hsound.later _, session, found, .refl⟩
    · rw [update_of_ne hji] at hj
      obtain ⟨horigin, active, hsound, s, found, hcont⟩ := hk.reads j token session now hj
      obtain ⟨s', found', hcont'⟩ := hm.continues found
      exact ⟨horigin, active, hsound.later _, s', found', hcont.trans hcont'⟩

theorem kept (h₀ : v₀.AtStart) (h : Runs sha256 v₀ turns v) : Kept sha256 v₀ turns v := by
  induction h with
  | start =>
    refine ⟨?_, fun _ _ => rfl, ?_⟩
    · intro hash s hs
      rw [h₀.1] at hs
      cases hs
    · intro i token session now hc
      have hnew := h₀.2 i
      rw [hc] at hnew
      exact hnew.elim
  | turn i _ hstep ih => exact ih.step hstep

/-- Along a run every session goes on. -/
theorem continues (h : Runs sha256 v turns v') (hs : v.sessions.getSession hash = some s) :
    ∃ s', v'.sessions.getSession hash = some s' ∧ s.Continues s' := by
  induction h with
  | start => exact ⟨s, hs, .refl⟩
  | turn i _ hstep ih =>
    obtain ⟨r, hr, hcont⟩ := ih
    obtain ⟨t, c, hm, rfl⟩ := step_moves hstep
    obtain ⟨s', hs', hcont'⟩ := hm.continues hr
    exact ⟨s', hs', hcont.trans hcont'⟩

/-- From the start of any turn on, every session goes on to the end of the run. -/
theorem continues_from (h : Runs sha256 v₀ turns v) {t : Turn (Visits ι) ι} (ht : t ∈ turns)
    (hs : t.before.sessions.getSession hash = some s) :
    ∃ s', v.sessions.getSession hash = some s' ∧ s.Continues s' := by
  obtain ⟨_, c, hm, hafter⟩ := step_moves (h.step_of_mem ht)
  obtain ⟨r, hr, hcont⟩ := hm.continues hs
  obtain ⟨earlier, later, he⟩ := List.append_of_mem ht
  have hr' : t.after.sessions.getSession hash = some r := by
    rw [hafter]
    exact hr
  obtain ⟨s', hs', hcont'⟩ := continues (h.since he) hr'
  exact ⟨s', hs', hcont.trans hcont'⟩

/-- An update after the revocation finds no live row. -/
theorem none_after_revocation (h : Runs sha256 v₀ turns v) {earlier later : List (Turn (Visits ι) ι)}
    {t u : Turn (Visits ι) ι} (he : turns = earlier ++ t :: later) (hu : u ∈ earlier) {token : String}
    {session : OperatorSession} {now : Int} (hc : t.before.calls t.what = .refreshing token session now)
    (hs : u.after.sessions.getSession (hashToken sha256 token) = some s) (hrevoked : s.revokedAt ≠ none) :
    t.after.calls t.what = .authenticated none := by
  obtain ⟨_, c, hm, hafter⟩ := step_moves (h.step_of_mem (he ▸ by simp : t ∈ turns))
  obtain ⟨before, between, hsplit⟩ := List.append_of_mem hu
  obtain ⟨r, hr, hcont⟩ := continues ((h.upTo he).since hsplit) hs
  rw [hafter]
  dsimp only
  rw [update_self]
  generalize hc' : t.before.calls t.what = c₀ at hm
  cases hm with
  | refreshes found unrevoked after =>
    cases hc.symm.trans hc'
    rw [hr] at found
    cases found
    rw [hcont.frozen hrevoked] at unrevoked
    exact absurd unrevoked hrevoked
  | refreshLost => rfl
  | starts | startRefused | reads | unread | revokes => cases hc.symm.trans hc'

/-- What a successful `authenticate` read was in time. -/
theorem succeeds_in_time (h₀ : v₀.AtStart) (h : Runs sha256 v₀ turns v)
    {earlier later : List (Turn (Visits ι) ι)} {t : Turn (Visits ι) ι} (he : turns = earlier ++ t :: later)
    {token : String} {now : Int} {auth : AuthenticatedSession}
    (horigin : v₀.calls t.what = .authenticate token now)
    (hresult : t.after.calls t.what = .authenticated (some auth)) :
    ∃ s, t.before.sessions.getSession (hashToken sha256 token) = some s ∧
      (∃ u ∈ earlier, Starts sha256 v₀ (hashToken sha256 token) s.createdAt u) ∧
      now < s.createdAt + absoluteTtl ∧
      (now < s.createdAt + idleTtl ∨ ∃ u ∈ earlier, ∃ prior,
        Succeeds sha256 v₀ (hashToken sha256 token) prior u ∧ now < prior + idleTtl) := by
  have hk := kept h₀ (h.upTo he)
  obtain ⟨_, c, hm, hafter⟩ := step_moves (h.step_of_mem (he ▸ by simp : t ∈ turns))
  rw [hafter] at hresult
  dsimp only at hresult
  rw [update_self] at hresult
  generalize hc : t.before.calls t.what = c₀ at hm
  cases hm with
  | refreshes found unrevoked after =>
    obtain ⟨horigin', active, hsound, s, hs, hcont⟩ := hk.reads _ _ _ _ hc
    cases horigin.symm.trans horigin'
    obtain ⟨-, hidle, habsolute⟩ := evaluateSession_active.mp active
    have hfixed := hsound.absolute
    refine ⟨s, hs, hcont.createdAt ▸ hsound.started, ?_, ?_⟩
    · rw [hcont.createdAt]
      omega
    · rw [hcont.createdAt]
      rcases hsound.idle with hi | ⟨u, hu, prior, hsucc, hi⟩
      · exact .inl (by omega)
      · exact .inr ⟨u, hu, prior, hsucc, by omega⟩
  | starts | startRefused | reads | unread | refreshLost | revokes => cases hresult

end Steps
end Visits

/-- What a run of calls keeps of every session. -/
structure SessionLifetimes {ι : Type} (sha256 : Bytes → Bytes) (v₀ : Visits ι) (turns : List (Turn (Visits ι) ι))
    (v : Visits ι) : Prop where
  revoked_stays : ∀ t ∈ turns, ∀ hash s at_, t.before.sessions.getSession hash = some s →
    s.revokedAt = some at_ → ∃ s', v.sessions.getSession hash = some s' ∧ s'.revokedAt = some at_
  none_after_revocation : ∀ earlier t later, turns = earlier ++ t :: later → ∀ token session now,
    t.before.calls t.what = .refreshing token session now →
    (∃ u ∈ earlier, ∃ s, u.after.sessions.getSession (hashToken sha256 token) = some s ∧
      s.revokedAt ≠ none) → t.after.calls t.what = .authenticated none
  deadlines : ∀ s ∈ v.sessions.rows, s.idleExpiresAt ≤ s.absoluteExpiresAt ∧
    s.absoluteExpiresAt = s.createdAt + Duration.days 14
  absolute_fixed : ∀ t ∈ turns, ∀ hash s, t.before.sessions.getSession hash = some s →
    ∃ s', v.sessions.getSession hash = some s' ∧ s'.createdAt = s.createdAt ∧
      s'.absoluteExpiresAt = s.absoluteExpiresAt
  in_time : ∀ earlier t later, turns = earlier ++ t :: later → ∀ token now auth,
    v₀.calls t.what = .authenticate token now → t.after.calls t.what = .authenticated (some auth) →
    ∃ s, t.before.sessions.getSession (hashToken sha256 token) = some s ∧
      (∃ u ∈ earlier, Visits.Starts sha256 v₀ (hashToken sha256 token) s.createdAt u) ∧
      now < s.createdAt + Duration.days 14 ∧
      (now < s.createdAt + Duration.days 7 ∨ ∃ u ∈ earlier, ∃ prior,
        Visits.Succeeds sha256 v₀ (hashToken sha256 token) prior u ∧ now < prior + Duration.days 7)

/-- However the statements of the calls interleave, and whatever the clocks say. -/
theorem session_lifetimes {ι : Type} [DecidableEq ι] {sha256 : Bytes → Bytes} {v₀ v : Visits ι}
    {turns : List (Turn (Visits ι) ι)} (h₀ : v₀.AtStart) (h : Visits.Runs sha256 v₀ turns v) :
    SessionLifetimes sha256 v₀ turns v where
  revoked_stays t ht hash s at_ hs hr := by
    obtain ⟨s', hs', hcont⟩ := Visits.continues_from h ht hs
    have hsame := hcont.frozen (by rw [hr]; exact Option.some_ne_none _)
    exact ⟨s', hs', hsame ▸ hr⟩
  none_after_revocation := by
    intro earlier t later he token session now hc hrevoked
    obtain ⟨u, hu, s, hs, hr⟩ := hrevoked
    exact Visits.none_after_revocation h he hu hc hs hr
  deadlines s hs := by
    have hsound := (Visits.kept h₀ h).rows s.sessionHash s (getSession_of_mem hs)
    exact ⟨hsound.idle_le, hsound.absolute⟩
  absolute_fixed t ht hash s hs := by
    obtain ⟨s', hs', hcont⟩ := Visits.continues_from h ht hs
    exact ⟨s', hs', hcont.createdAt, hcont.absoluteExpiresAt⟩
  in_time := by
    intro earlier t later he token now auth horigin hresult
    exact Visits.succeeds_in_time h₀ h he horigin hresult

/-- A session, two requests that present it, and its logout. -/
def loggedOut : Visits (Fin 4) where
  sessions := Table.empty
  calls i := match i with
    | 0 => .startSession "operator" (List.replicate 32 0) 0
    | 1 => .authenticate zeroToken 5
    | 2 => .authenticate zeroToken 10
    | 3 => .revokeSession (hashToken (digestFrom zeroDigests) zeroToken) 12

/-- The second request reads the session before the logout and refreshes it after. -/
theorem logged_out_in_between : ∃ turns v, Visits.Runs (digestFrom zeroDigests) loggedOut turns v ∧
    (v.calls 1 matches .authenticated (some _)) = true ∧
    (v.calls 2 matches .authenticated none) = true ∧
    SessionLifetimes (digestFrom zeroDigests) loggedOut turns v := by
  have hp : (History.play (Visits.step (digestFrom zeroDigests)) loggedOut [0, 1, 1, 2, 3, 2]).map
      (fun r => (r.2.calls 1 matches .authenticated (some _), r.2.calls 2 matches .authenticated none)) =
        some (true, true) := by
    decide +kernel
  obtain ⟨⟨turns, v⟩, hrun, he⟩ := Option.map_eq_some_iff.mp hp
  obtain ⟨hfirst, hsecond⟩ := Prod.mk.inj he
  have h := History.of_play hrun
  have h₀ : loggedOut.AtStart := by
    refine ⟨rfl, fun i => ?_⟩
    match i with
    | 0 | 1 | 2 | 3 => trivial
  exact ⟨turns, v, h, hfirst, hsecond, session_lifetimes h₀ h⟩

end Telegraph
