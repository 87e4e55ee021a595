import Telegraph.Proofs.AuditTrail
import Telegraph.Proofs.LoginThrottling
import Telegraph.Proofs.MonitorGuards
import Telegraph.Proofs.SessionLifetime
import Telegraph.Site

namespace Telegraph
open Lib Function Tokens SessionTable AuthService

namespace Monitor
variable {sha256 : Bytes → Bytes} {config : AppConfig} {m : MonitorState} {request : MonitorRequest}

/-- A handler, with what it does once it has its session. -/
def withSession (go : MonitorState → AuthenticatedSession → MonitorState × Reply) :
    MonitorState × Except Reply AuthenticatedSession → MonitorState × Reply
  | (m', .error reply) => (m', reply)
  | (m', .ok auth) => go m' auth

theorem guarded_eq {φ : Type} {parse : List (String × String) → Option φ} {csrfToken : φ → String} {now : Int}
    {action : MonitorState → AuthenticatedSession → φ → MonitorState × Reply} :
    guarded sha256 parse csrfToken m request now action =
      if (request.form.bind parse).isSome then
        withSession (fun m' auth =>
          if (request.form.bind parse).any fun form => Csrf.validate sha256 auth.session (csrfToken form) then
            (request.form.bind parse).elim (m', .rejected) (action m' auth)
          else (m', forbidden)) (requireSession sha256 m request.headers now)
      else (m, .rejected) := by
  unfold guarded
  cases request.form.bind parse with
  | none => rfl
  | some form => cases requireSession sha256 m request.headers now with
    | mk m' r => cases r <;> rfl

/-- A handler looks at the form, requires the session, tests the CSRF token, and acts. -/
theorem handle_eq {supply : MonitorSupply} : handle sha256 config m request supply =
    if extracts request then
      withSession (fun m' auth =>
        if admits sha256 auth.session request then act config supply m' auth request else (m', forbidden))
        (requireSession sha256 m request.headers supply.now)
    else (m, .rejected) := by
  unfold handle extracts admits act
  cases request.route with
  | recordingList status =>
    simp only [recordingList, if_true]
    cases requireSession sha256 m request.headers supply.now with
    | mk m' r => cases r <;> rfl
  | recordingDetail id =>
    simp only [recordingDetail, if_true]
    cases requireSession sha256 m request.headers supply.now with
    | mk m' r => cases r <;> rfl
  | logout => exact guarded_eq
  | manualRoute id => exact guarded_eq
  | retryTranscription id => exact guarded_eq
  | retryDelivery id => exact guarded_eq

/-- Acting, a request to the monitor leaves the store as it was or is one operation of the
Operator of its session. -/
theorem act_store {read : MonitorSupply} {found : AuthenticatedSession} :
    (act config read m found request).1.store = m.store ∨ request.route.isPost = true ∧
      ∃ (asked : Input Unit) (x : String) (status : RecordingStatus) (op : Operation),
        asked.asks = some (x, status, op) ∧ (act config read m found request).1.store = op.apply m.store ∧
        ∀ e ∈ op.audit, e.actorId = some found.session.operatorUsername := by
  unfold act
  cases request.route with
  | recordingList status => exact .inl rfl
  | recordingDetail id =>
    dsimp only
    split <;> exact .inl rfl
  | logout =>
    dsimp only
    cases request.form.bind parseCsrfForm <;> exact .inl rfl
  | manualRoute id =>
    dsimp only
    cases request.form.bind parseManualRouteForm with
    | none => exact .inl rfl
    | some form =>
      simp only [Option.elim, manualRoute]
      split
      · refine .inr ⟨rfl, .manualRoute ⟨id, form.sink, read.firstId, read.secondId, read.later,
          read.later + Retry.deliveryWindow, some found.session.operatorUsername⟩, _, _, _, rfl, rfl, ?_⟩
        simp [Operation.audit]
      · exact .inl rfl
  | retryTranscription id =>
    dsimp only
    cases request.form.bind parseCsrfForm with
    | none => exact .inl rfl
    | some form =>
      refine .inr ⟨rfl, .manualRetryTranscription ⟨id, read.firstId, read.later,
        some found.session.operatorUsername⟩, _, _, _, rfl, rfl, ?_⟩
      simp [Operation.audit]
  | retryDelivery id =>
    dsimp only
    cases request.form.bind parseCsrfForm with
    | none => exact .inl rfl
    | some form =>
      refine .inr ⟨rfl, .manualRetryDelivery ⟨id, read.firstId, read.later, read.later + Retry.deliveryWindow,
        some found.session.operatorUsername⟩, _, _, _, rfl, rfl, ?_⟩
      simp [Operation.audit]

/-- The CSRF token of an admitted POST is its own field. -/
theorem admits_csrf {session : OperatorSession} (h : admits sha256 session request = true)
    (hp : request.route.isPost = true) : ∃ field, request.csrfField = some field ∧
      hashToken sha256 (trim field) = session.csrfTokenHash := by
  have token : ∀ {φ : Type} (parse : List (String × String) → Option φ) (csrfToken : φ → String),
      (∀ form f, parse form = some f → formField form "csrf_token" = some (csrfToken f)) →
      ((request.form.bind parse).any fun form => Csrf.validate sha256 session (csrfToken form)) = true →
      ∃ field, request.csrfField = some field ∧ hashToken sha256 (trim field) = session.csrfTokenHash := by
    intro φ parse csrfToken hparse hany
    obtain ⟨f, hf, hv⟩ := (Option.any_eq_true _ _).mp hany
    obtain ⟨form, hform, hparsed⟩ := Option.bind_eq_some_iff.mp hf
    refine ⟨csrfToken f, ?_, (Csrf.validate_iff.mp hv).2⟩
    unfold MonitorRequest.csrfField
    rw [hform]
    exact hparse form f hparsed
  unfold admits at h
  cases hr : request.route with
  | recordingList status => rw [hr] at hp; cases hp
  | recordingDetail id => rw [hr] at hp; cases hp
  | manualRoute id =>
    rw [hr] at h
    exact token _ _ (fun _ _ => parseManualRouteForm_field) h
  | logout | retryTranscription | retryDelivery =>
    rw [hr] at h
    exact token _ _ (fun _ _ => parseCsrfForm_field) h

end Monitor

namespace Visit
variable {sha256 : Bytes → Bytes} {config : AppConfig} {auth : AuthService} {t : MonitorTables}
variable {request : MonitorRequest}

/-- A step of one request, with nobody else about. -/
def Goes (sha256 : Bytes → Bytes) (config : AppConfig) (auth : AuthService)
    (s s' : MonitorTables × Visit) : Prop :=
  ∃ supply, s.2.advance sha256 config auth supply s.1 = some s'

theorem act_later {supply : MonitorSupply} {m : MonitorState} {found : AuthenticatedSession} :
    Monitor.act config ⟨supply.later, supply.later, supply.firstId, supply.secondId⟩ m found request =
      Monitor.act config supply m found request := by
  unfold Monitor.act
  cases request.route <;> rfl

/-- What comes after `require_session`. -/
theorem alone_admitted (supply : MonitorSupply) (found : AuthenticatedSession) :
    Relation.ReflTransGen (Goes sha256 config auth) (t, .admitted request found)
      (let r := if Monitor.admits sha256 found.session request then
          Monitor.act config supply ⟨t.store, t.sessions⟩ found request else (⟨t.store, t.sessions⟩, Monitor.forbidden)
       (⟨r.1.store, t.failures, r.1.sessions⟩, .answered r.2)) := by
  dsimp only
  by_cases ha : Monitor.admits sha256 found.session request = true
  · rw [if_pos ha]
    refine .head ⟨⟨supply.later, supply.firstId, supply.secondId, []⟩, by simp only [advance, ha, if_true]; rfl⟩ ?_
    refine .single ⟨⟨supply.later, "", "", []⟩, ?_⟩
    simp only [advance, act_later]
  · rw [if_neg ha]
    exact .single ⟨⟨supply.later, "", "", []⟩, by simp only [advance, if_neg ha]⟩

/-- A request left alone does what its handler does. -/
theorem alone (supply : MonitorSupply) : Relation.ReflTransGen (Goes sha256 config auth) (t, .arrived request)
    (let r := Monitor.handle sha256 config ⟨t.store, t.sessions⟩ request supply
     (⟨r.1.store, t.failures, r.1.sessions⟩, .answered r.2)) := by
  dsimp only
  rw [Monitor.handle_eq]
  by_cases hx : Monitor.extracts request = true
  swap
  · rw [if_neg hx]
    exact .single ⟨⟨supply.now, "", "", []⟩, by simp only [advance, if_neg hx]⟩
  rw [if_pos hx]
  unfold Monitor.requireSession
  cases hc : Cookies.readSessionCookie request.headers with
  | none => exact .single ⟨⟨supply.now, "", "", []⟩, by simp only [advance, hx, if_true, hc, Monitor.withSession]⟩
  | some token =>
    refine .head ⟨⟨supply.now, "", "", []⟩, by simp only [advance, hx, if_true, hc]; rfl⟩ ?_
    simp only [authenticate]
    cases hs : findActive sha256 token supply.now t.sessions with
    | none =>
      refine .single ⟨⟨supply.now, "", "", []⟩, ?_⟩
      simp only [advance, SessionCall.advance, hs, Option.map_some, inward, Monitor.withSession]
    | some session =>
      refine .head ⟨⟨supply.now, "", "", []⟩, by
        simp only [advance, SessionCall.advance, hs, Option.map_some]; rfl⟩ ?_
      simp only [inward]
      cases hr : refresh sha256 token session supply.now t.sessions with
      | mk sessions result =>
        cases result with
        | none =>
          refine .single ⟨⟨supply.now, "", "", []⟩, ?_⟩
          simp only [advance, SessionCall.advance, hr, Option.map_some, inward, Monitor.withSession]
        | some found =>
          refine .head ⟨⟨supply.now, "", "", []⟩, by
            simp only [advance, SessionCall.advance, hr, Option.map_some]; rfl⟩ ?_
          simp only [inward, Monitor.withSession]
          exact @alone_admitted sha256 config auth { t with sessions := sessions } request supply found

end Visit

namespace Site
variable {ι : Type}

/-- A login at `at_`, with the password of the configured Operator, made this token. -/
def LoggedIn (auth : AuthService) (turns : List (Turn (Site ι) (SiteInput ι))) (token : String) (at_ : Int) : Prop :=
  ∃ u ∈ turns, ∃ i supply form, u.what = .visit i supply ∧ u.before.visits i = .login (.starting form at_) ∧
    form.username = auth.username ∧ auth.verifyCredentials form.username form.password = .ok true ∧
    token = generateToken supply.entropy

/-- The session of a login. -/
structure Genuine (sha256 : Bytes → Bytes) (auth : AuthService) (turns : List (Turn (Site ι) (SiteInput ι)))
    (token : String) (s : OperatorSession) : Prop where
  hash : s.sessionHash = hashToken sha256 token
  csrf : s.csrfTokenHash = hashToken sha256 (deriveCsrf sha256 token)
  operator : s.operatorUsername = auth.username
  deadline : s.absoluteExpiresAt = s.createdAt + absoluteTtl
  login : LoggedIn auth turns token s.createdAt

/-- The cookie of the request is the token of the session, which was refreshed for it: in
time, and before it was revoked. -/
structure Presents (sha256 : Bytes → Bytes) (auth : AuthService) (turns : List (Turn (Site ι) (SiteInput ι)))
    (request : MonitorRequest) (token : String) (now : Int) (session : OperatorSession) : Prop where
  cookie : Cookies.readSessionCookie request.headers = some token
  genuine : Genuine sha256 auth turns token session
  inTime : now < session.absoluteExpiresAt
  refreshed : ∃ r ∈ turns, ∃ i supply stale, r.what = .visit i supply ∧
    r.before.visits i = .authenticating request (.refreshing token stale now) ∧
    ∃ s, r.before.sessions.getSession (hashToken sha256 token) = some s ∧ s.revokedAt = none

/-- What a request relies on. -/
def Holds (sha256 : Bytes → Bytes) (auth : AuthService) (turns : List (Turn (Site ι) (SiteInput ι))) : Visit → Prop
  | .login (.starting form _) =>
    form.username = auth.username ∧ auth.verifyCredentials form.username form.password = .ok true
  | .login _ | .loginPage _ | .shown _ | .arrived _ | .answered _ => True
  | .showing (.authenticate _ _) | .showing (.refreshing _ _ _) => True
  | .showing _ => False
  | .authenticating request (.authenticate token _) => Cookies.readSessionCookie request.headers = some token
  | .authenticating request (.refreshing token session now) =>
    Cookies.readSessionCookie request.headers = some token ∧ Genuine sha256 auth turns token session ∧
      now < session.absoluteExpiresAt
  | .authenticating _ _ => False
  | .admitted request found => ∃ token now, Presents sha256 auth turns request token now found.session
  | .acting request found _ => (∃ token now, Presents sha256 auth turns request token now found.session) ∧
    Monitor.admits sha256 found.session request = true

/-- Every session is that of a login, and every request has what it relies on. -/
structure Kept (sha256 : Bytes → Bytes) (auth : AuthService) (turns : List (Turn (Site ι) (SiteInput ι)))
    (c : Site ι) : Prop where
  rows : ∀ s ∈ c.sessions.rows, ∃ token, Genuine sha256 auth turns token s
  visits : ∀ i, Holds sha256 auth turns (c.visits i)

section Later
variable {sha256 : Bytes → Bytes} {auth : AuthService} {turns more : List (Turn (Site ι) (SiteInput ι))}
variable {token : String} {s : OperatorSession} {request : MonitorRequest} {now : Int} {visit : Visit}
variable {sessions : SessionTable}

theorem LoggedIn.later {at_ : Int} (h : LoggedIn auth turns token at_) : LoggedIn auth (turns ++ more) token at_ := by
  obtain ⟨u, hu, hlogin⟩ := h
  exact ⟨u, List.mem_append_left _ hu, hlogin⟩

theorem Genuine.later (h : Genuine sha256 auth turns token s) : Genuine sha256 auth (turns ++ more) token s :=
  { h with login := h.login.later }

theorem Presents.later (h : Presents sha256 auth turns request token now s) :
    Presents sha256 auth (turns ++ more) request token now s := by
  obtain ⟨r, hr, hrefreshed⟩ := h.refreshed
  exact ⟨h.cookie, h.genuine.later, h.inTime, r, List.mem_append_left _ hr, hrefreshed⟩

theorem Holds.later (h : Holds sha256 auth turns visit) : Holds sha256 auth (turns ++ more) visit := by
  cases visit with
  | login request => cases request <;> exact h
  | showing call => cases call <;> exact h
  | authenticating request call =>
    cases call with
    | refreshing token session now => exact ⟨h.1, h.2.1.later, h.2.2⟩
    | _ => exact h
  | admitted request found =>
    obtain ⟨token, now, hp⟩ := h
    exact ⟨token, now, hp.later⟩
  | acting request found supply =>
    obtain ⟨⟨token, now, hp⟩, ha⟩ := h
    exact ⟨⟨token, now, hp.later⟩, ha⟩
  | _ => trivial

/-- A refresh or a revocation leaves the session that of its login. -/
theorem rows_update {p : OperatorSession → Bool} {f : OperatorSession → OperatorSession}
    {hk : Table.KeepsKeys OperatorSession.clash f} (h : ∀ s ∈ sessions.rows, ∃ token, Genuine sha256 auth turns token s)
    (hf : ∀ s, (f s).sessionHash = s.sessionHash ∧ (f s).csrfTokenHash = s.csrfTokenHash ∧
      (f s).operatorUsername = s.operatorUsername ∧ (f s).absoluteExpiresAt = s.absoluteExpiresAt ∧
      (f s).createdAt = s.createdAt) :
    ∀ s ∈ (sessions.update p f hk).rows, ∃ token, Genuine sha256 auth turns token s := by
  intro s hs
  obtain ⟨r, hr, rfl⟩ := Table.mem_update.mp hs
  obtain ⟨token, hg⟩ := h r hr
  split
  · obtain ⟨h₁, h₂, h₃, h₄, h₅⟩ := hf r
    exact ⟨token, h₁.trans hg.hash, h₂.trans hg.csrf, h₃.trans hg.operator,
      h₄.trans (hg.deadline.trans (congrArg (· + absoluteTtl) h₅.symm)), h₅ ▸ hg.login⟩
  · exact ⟨token, hg⟩

end Later

section Moves
variable {sha256 : Bytes → Bytes} {config : AppConfig} {auth : AuthService} {supply : VisitSupply}
variable {turns : List (Turn (Site ι) (SiteInput ι))} {u : Turn (Site ι) (SiteInput ι)} {i : ι}
variable {t t' : MonitorTables} {v v' : Visit} {sessions sessions' : SessionTable}

theorem username_of_verified {username password : String} (h : auth.verifyCredentials username password = .ok true) :
    username = auth.username := by
  unfold AuthService.verifyCredentials at h
  split at h
  · cases h
  · next hn => exact not_not.mp hn

/-- The rows after a refresh. -/
theorem rows_refresh {token : String} {session : OperatorSession} {now : Int}
    (h : ∀ s ∈ sessions.rows, ∃ token, Genuine sha256 auth turns token s) :
    ∀ s ∈ (refresh sha256 token session now sessions).1.rows, ∃ token, Genuine sha256 auth turns token s := by
  rw [refresh_fst]
  exact @rows_update _ _ _ _ _ _ _ (OperatorSession.touched_keeps _ _) h fun _ => ⟨rfl, rfl, rfl, rfl, rfl⟩

/-- Of a login, the step that makes the session. -/
theorem rows_login {request request' : LoginRequest} {supply : LoginSupply} {failures failures' : LoginFailureTable}
    (h : ∀ s ∈ sessions.rows, ∃ token, Genuine sha256 auth turns token s)
    (hs : request.advance sha256 auth supply ⟨failures, sessions⟩ = some (⟨failures', sessions'⟩, request'))
    (hl : ∀ form now, request = .starting form now → LoggedIn auth turns (generateToken supply.entropy) now) :
    (∀ s ∈ sessions'.rows, ∃ token, Genuine sha256 auth turns token s) ∧
      Holds sha256 auth turns (.login request') := by
  cases request with
  | arrived form =>
    cases hs
    exact ⟨h, trivial⟩
  | counting form now =>
    simp only [LoginRequest.advance] at hs
    split at hs <;> cases hs <;> exact ⟨h, trivial⟩
  | sleeping form now duration =>
    cases hs
    exact ⟨h, trivial⟩
  | verifying form now =>
    simp only [LoginRequest.advance] at hs
    split at hs
    · next hv =>
      cases hs
      exact ⟨h, username_of_verified hv, hv⟩
    · cases hs
      exact ⟨h, trivial⟩
    · cases hs
      exact ⟨h, trivial⟩
  | recording form now =>
    simp only [LoginRequest.advance] at hs
    split at hs <;> cases hs <;> exact ⟨h, trivial⟩
  | starting form now =>
    simp only [LoginRequest.advance] at hs
    split at hs
    · next started hstart =>
      cases hs
      refine ⟨fun s hin => ?_, trivial⟩
      rw [createSession_ok (startSession_ok hstart)] at hin
      rcases List.mem_append.mp hin with hold | hnew
      · exact h s hold
      · rw [List.mem_singleton.mp hnew]
        exact ⟨_, rfl, rfl, rfl, rfl, hl form now rfl⟩
    · cases hs
      exact ⟨h, trivial⟩
  | clearing form started =>
    cases hs
    exact ⟨h, trivial⟩
  | answered reply => cases hs

/-- Acting, a request at most revokes a session. -/
theorem rows_act {m : MonitorState} {found : AuthenticatedSession} {request : MonitorRequest} {read : MonitorSupply}
    (h : ∀ s ∈ m.sessions.rows, ∃ token, Genuine sha256 auth turns token s) :
    ∀ s ∈ (Monitor.act config read m found request).1.sessions.rows, ∃ token, Genuine sha256 auth turns token s := by
  unfold Monitor.act
  cases request.route with
  | recordingList status => exact h
  | recordingDetail id =>
    dsimp only
    split <;> exact h
  | logout =>
    dsimp only
    cases request.form.bind Monitor.parseCsrfForm with
    | none => exact h
    | some form =>
      exact @rows_update _ _ _ _ _ _ _ (OperatorSession.revoked_keeps _) h fun _ => ⟨rfl, rfl, rfl, rfl, rfl⟩
  | manualRoute id =>
    dsimp only
    cases request.form.bind Monitor.parseManualRouteForm with
    | none => exact h
    | some form =>
      simp only [Option.elim, Monitor.manualRoute]
      split <;> exact h
  | retryTranscription id =>
    dsimp only
    cases request.form.bind Monitor.parseCsrfForm <;> exact h
  | retryDelivery id =>
    dsimp only
    cases request.form.bind Monitor.parseCsrfForm <;> exact h

/-- Only a request that acts touches the store. -/
theorem advance_store (hs : v.advance sha256 config auth supply t = some (t', v'))
    (hv : ∀ request found read, v ≠ .acting request found read) : t'.store = t.store := by
  cases v with
  | login | showing | authenticating =>
    obtain ⟨r, -, he⟩ := Option.map_eq_some_iff.mp hs
    cases he
    rfl
  | loginPage headers =>
    simp only [Visit.advance] at hs
    split at hs <;> cases hs <;> rfl
  | arrived request =>
    simp only [Visit.advance] at hs
    split at hs
    · split at hs <;> cases hs <;> rfl
    · cases hs
      rfl
  | admitted request found =>
    simp only [Visit.advance] at hs
    split at hs <;> cases hs <;> rfl
  | acting request found read => exact absurd rfl (hv request found read)
  | shown | answered => cases hs

/-- A step of a request keeps the sessions, and leaves the request with what it goes on with. -/
theorem advance_kept (inj : Injective sha256)
    (h : ∀ s ∈ t.sessions.rows, ∃ token, Genuine sha256 auth turns token s) (hv : Holds sha256 auth turns v)
    (hs : v.advance sha256 config auth supply t = some (t', v')) (hwhat : u.what = .visit i supply)
    (hvisit : u.before.visits i = v) (hsessions : u.before.sessions = t.sessions) :
    (∀ s ∈ t'.sessions.rows, ∃ token, Genuine sha256 auth (turns ++ [u]) token s) ∧
      Holds sha256 auth (turns ++ [u]) v' := by
  have hu : u ∈ turns ++ [u] := List.mem_append_right _ (List.mem_singleton.mpr rfl)
  replace h : ∀ s ∈ t.sessions.rows, ∃ token, Genuine sha256 auth (turns ++ [u]) token s := by
    intro s hin
    obtain ⟨token, hg⟩ := h s hin
    exact ⟨token, hg.later⟩
  cases v with
  | login request =>
    obtain ⟨⟨⟨failures, sessions⟩, request'⟩, hr, he⟩ := Option.map_eq_some_iff.mp hs
    cases he
    refine rows_login h hr ?_
    rintro form now rfl
    exact ⟨u, hu, i, supply, form, hwhat, hvisit, hv.1, hv.2, rfl⟩
  | loginPage headers =>
    simp only [Visit.advance] at hs
    split at hs <;> cases hs <;> exact ⟨h, trivial⟩
  | showing call =>
    obtain ⟨⟨sessions, call'⟩, hr, he⟩ := Option.map_eq_some_iff.mp hs
    cases he
    cases call with
    | authenticate token now =>
      simp only [SessionCall.advance] at hr
      split at hr <;> cases hr <;> exact ⟨h, trivial⟩
    | refreshing token session now =>
      simp only [SessionCall.advance] at hr
      cases hr
      exact ⟨rows_refresh h, trivial⟩
    | _ => exact hv.elim
  | shown redirected => cases hs
  | arrived request =>
    simp only [Visit.advance] at hs
    split at hs
    · split at hs
      · cases hs
        exact ⟨h, trivial⟩
      · next token hc =>
        cases hs
        exact ⟨h, hc⟩
    · cases hs
      exact ⟨h, trivial⟩
  | authenticating request call =>
    obtain ⟨⟨sessions, call'⟩, hr, he⟩ := Option.map_eq_some_iff.mp hs
    cases he
    cases call with
    | authenticate token now =>
      simp only [SessionCall.advance] at hr
      split at hr
      · next session hfound =>
        cases hr
        obtain ⟨hget, hactive⟩ := findActive_some.mp hfound
        obtain ⟨token', hg⟩ := h session (Table.find_mem hget).1
        obtain rfl : token = token' := hashToken_inj inj ((sessionHash_eq hget).symm.trans hg.hash)
        exact ⟨h, hv, hg, (evaluateSession_active.mp hactive).2.2⟩
      · cases hr
        exact ⟨h, trivial⟩
    | refreshing token session now =>
      simp only [SessionCall.advance] at hr
      cases hr
      refine ⟨rows_refresh h, ?_⟩
      by_cases hlive : ∃ s, t.sessions.getSession (hashToken sha256 token) = some s ∧ s.revokedAt = none
      · obtain ⟨s, hget, hn⟩ := hlive
        obtain ⟨hcookie, hg, htime⟩ := hv
        rw [refresh_some hget hn]
        refine ⟨token, now, hcookie, ?_, htime, u, hu, i, supply, session, hwhat, hvisit, s, ?_, hn⟩
        · have hlater : Genuine sha256 auth (turns ++ [u]) token session := hg.later
          exact ⟨hlater.hash, hlater.csrf, hlater.operator, hlater.deadline, hlater.login⟩
        · rw [hsessions]
          exact hget
      · rw [refresh_lost fun s hget hn => hlive ⟨s, hget, hn⟩]
        trivial
    | _ => exact hv.elim
  | admitted request found =>
    obtain ⟨token, now, hp⟩ := hv
    simp only [Visit.advance] at hs
    split at hs
    · next ha =>
      cases hs
      exact ⟨h, ⟨token, now, hp.later⟩, ha⟩
    · cases hs
      exact ⟨h, trivial⟩
  | acting request found read =>
    simp only [Visit.advance] at hs
    cases hs
    exact ⟨@rows_act _ _ _ _ _ ⟨t.store, t.sessions⟩ _ _ _ h, trivial⟩
  | answered reply => cases hs

end Moves

section Runs
variable [DecidableEq ι] {sha256 : Bytes → Bytes} {config : AppConfig} {auth : AuthService}
variable {visitors : Visitors ι} {route : Recording → RoutingDecision} {c c' : Site ι} {input : SiteInput ι}
variable {turns : List (Turn (Site ι) (SiteInput ι))}

/-- A step is one of a request, or one of the service in which nothing is asked. -/
theorem step_cases (hs : c.step sha256 config auth visitors route input = some c') :
    (∃ i supply t' v', input = .visit i supply ∧
      (c.visits i).advance sha256 config auth supply c.tables = some (t', v') ∧ c'.process.store = t'.store ∧
      c'.sessions = t'.sessions ∧ c'.visits = update c.visits i v') ∨
    ∃ now asked p events, input = .serve now asked ∧ asked.asks = none ∧
      c.process.step route now asked = some (p, events) ∧ c'.process = p ∧ c'.sessions = c.sessions ∧
      c'.visits = c.visits := by
  cases input with
  | visit i supply =>
    simp only [step, Option.ite_none_right_eq_some, Option.map_eq_some_iff] at hs
    obtain ⟨-, ⟨t', v'⟩, ha, rfl⟩ := hs
    exact .inl ⟨i, supply, t', v', rfl, ha, rfl, rfl, rfl⟩
  | serve now asked =>
    simp only [step, Option.ite_none_right_eq_some, Option.map_eq_some_iff, Option.isNone_iff_eq_none] at hs
    obtain ⟨hn, ⟨p, events⟩, hp, rfl⟩ := hs
    exact .inr ⟨now, asked, p, events, rfl, hn, hp, rfl, rfl, rfl⟩

theorem run_kept (inj : Injective sha256) (h : Runs sha256 config auth visitors route turns c) :
    Kept sha256 auth turns c := by
  induction h with
  | start =>
    refine ⟨fun s hs => absurd hs List.not_mem_nil, fun i => ?_⟩
    change Holds sha256 auth [] (visitors.arrival i).visit
    cases visitors.arrival i <;> trivial
  | @turn turns c c' input _ hs ih =>
    rcases step_cases hs with ⟨i, supply, t', v', rfl, ha, -, hsessions, hvisits⟩ |
      ⟨now, asked, p, events, rfl, -, -, -, hsessions, hvisits⟩
    · obtain ⟨hrows, hv⟩ := @advance_kept _ _ _ _ _ _ ⟨c, .visit i supply, c'⟩ i _ _ _ _ inj ih.rows
        (ih.visits i) ha rfl rfl rfl
      refine ⟨hsessions ▸ hrows, fun j => ?_⟩
      rw [hvisits]
      by_cases hj : j = i
      · subst hj
        rw [update_self]
        exact hv
      · rw [update_of_ne hj]
        exact (ih.visits j).later
    · refine ⟨fun s hin => ?_, fun j => ?_⟩
      · obtain ⟨token, hg⟩ := ih.rows s (hsessions ▸ hin)
        exact ⟨token, hg.later⟩
      · rw [hvisits]
        exact (ih.visits j).later

/-- A POST with the cookie of a login, made with the Operator's password less than 14 days
before; whose session was not revoked yet when it was refreshed for the request; and with
the CSRF token of that session. -/
def Authorized (sha256 : Bytes → Bytes) (auth : AuthService) (turns : List (Turn (Site ι) (SiteInput ι)))
    (request : MonitorRequest) : Prop :=
  request.route.isPost = true ∧ ∃ token at_ now, Cookies.readSessionCookie request.headers = some token ∧
    LoggedIn auth turns token at_ ∧ now < at_ + absoluteTtl ∧
    (∃ r ∈ turns, ∃ i supply stale, r.what = .visit i supply ∧
      r.before.visits i = .authenticating request (.refreshing token stale now) ∧
      ∃ s, r.before.sessions.getSession (hashToken sha256 token) = some s ∧ s.revokedAt = none) ∧
    ∃ field, request.csrfField = some field ∧ trim field = deriveCsrf sha256 token

omit [DecidableEq ι] in
theorem authorized_of_acting (inj : Injective sha256) {request : MonitorRequest} {found : AuthenticatedSession}
    {read : MonitorSupply} (h : Holds sha256 auth turns (.acting request found read))
    (hp : request.route.isPost = true) : Authorized sha256 auth turns request := by
  obtain ⟨⟨token, now, hpresents⟩, hadmits⟩ := h
  obtain ⟨field, hfield, hcsrf⟩ := Monitor.admits_csrf hadmits hp
  have hg := hpresents.genuine
  exact ⟨hp, token, _, now, hpresents.cookie, hg.login, hg.deadline ▸ hpresents.inTime, hpresents.refreshed, field,
    hfield, hashToken_inj inj (hcsrf.trans hg.csrf)⟩

/-- A step that logs something, or moves a parked Recording, is an authorized request's, and
what it logs names the configured Operator. -/
theorem step_authorized (inj : Injective sha256) (h : Kept sha256 auth turns c)
    (hs : c.step sha256 config auth visitors route input = some c') :
    c.process.store.Parks c'.process.store ∨
      ∃ i request found read supply, input = .visit i supply ∧ c.visits i = .acting request found read ∧
        Authorized sha256 auth turns request ∧
        ∃ more, c'.process.store.auditEvents.rows = c.process.store.auditEvents.rows ++ more ∧
          ∀ e ∈ more, e.actorId = some auth.username := by
  rcases step_cases hs with ⟨i, supply, t', v', rfl, ha, hstore, -, -⟩ |
    ⟨now, asked, p, events, rfl, hasked, hp, rfl, -, -⟩
  · have quiet : t'.store = c.process.store → c.process.store.Parks c'.process.store := fun he => by
      rw [hstore, he]
      exact Store.parks_refl _
    have hv := h.visits i
    cases hvisit : c.visits i with
    | acting request found read =>
      rw [hvisit] at ha hv
      simp only [Visit.advance] at ha
      cases ha
      rcases @Monitor.act_store config ⟨c.process.store, c.sessions⟩ request read found with
        he | ⟨hpost, asked, x, status, op, hasks, he, hactor⟩
      · exact .inl (quiet he)
      · rcases Input.asks_released hasks c.process.store with hsame | hr
        · exact .inl (quiet (he.trans hsame))
        · refine .inr ⟨i, request, found, read, supply, rfl, hvisit, authorized_of_acting inj hv hpost, op.audit, ?_, ?_⟩
          · exact (congrArg (·.auditEvents.rows) (hstore.trans he)).trans hr.auditEvents
          · obtain ⟨⟨token, now, hpresents⟩, -⟩ := hv
            exact fun e hin => (hactor e hin).trans (congrArg some hpresents.genuine.operator)
    | _ =>
      rw [hvisit] at ha
      exact .inl (quiet (advance_store ha (by simp)))
  · exact .inl (Service.step_parks hp hasked)

/-- Whatever requests come and however their statements fall among each other, the workers
and the restarts: a Recording leaves the Backlog or a failed state, and anything is
logged, only by an authorized request, and the log names the configured Operator only. -/
theorem operator_authority (inj : Injective sha256) (h : Runs sha256 config auth visitors route turns c) :
    (∀ e ∈ c.process.store.auditEvents.rows, e.actorId = some auth.username) ∧
      ∀ input c', c.step sha256 config auth visitors route input = some c' →
        ¬ c.process.store.Parks c'.process.store →
        ∃ i request found read supply, input = .visit i supply ∧ c.visits i = .acting request found read ∧
          Authorized sha256 auth turns request := by
  refine ⟨?_, fun input c' hs hn => ?_⟩
  · induction h with
    | start => exact fun e he => absurd he List.not_mem_nil
    | turn input hr hs ih =>
      rcases step_authorized inj (run_kept inj hr) hs with
        hparks | ⟨i, request, found, read, supply, -, -, -, more, he, hm⟩
      · rw [hparks.auditEvents]
        exact ih
      · rw [he]
        exact fun e hin => (List.mem_append.mp hin).elim (ih e) (hm e)
  · rcases step_authorized inj (run_kept inj h) hs with hparks | ⟨i, request, found, read, supply, hi, hv, ha, -⟩
    · exact absurd hparks hn
    · exact ⟨i, request, found, read, supply, hi, hv, ha⟩

end Runs

section Sample

/-- The Operator logs in and retries a failed Transcription. -/
def operatorVisits : Visitors Bool where
  arrival b := if b then
      .request ⟨.retryTranscription firstUpload.id, Monitor.withCookie,
        some [("csrf_token", deriveCsrf (digestFrom zeroDigests) zeroToken)]⟩
    else .login ⟨"operator", "secret"⟩
  reaches _ := 1

def visitedAt (i : Bool) : SiteInput Bool := .visit i ⟨Duration.seconds 20, "e1", "e2", List.replicate 32 0⟩

def failedThenVisited : List (SiteInput Bool) :=
  (Monitor.failedUpload.map fun q => .serve q.1 q.2) ++
    List.replicate 5 (visitedAt false) ++ List.replicate 4 (visitedAt true)

abbrev sampleStep : Site Bool → SiteInput Bool → Option (Site Bool) :=
  step (digestFrom zeroDigests) ⟨⟨4096⟩, [], []⟩ operatorAccount operatorVisits Service.toNotes

theorem retry_authorized : ∃ turns c c',
    Runs (digestFrom zeroDigests) ⟨⟨4096⟩, [], []⟩ operatorAccount operatorVisits Service.toNotes turns c ∧
    sampleStep c (visitedAt true) = some c' ∧ c'.process.store.auditEvents.rows.length = 1 ∧
    ∃ i request found read supply, visitedAt true = .visit i supply ∧ c.visits i = .acting request found read ∧
      Authorized (digestFrom zeroDigests) operatorAccount turns request := by
  have hp : (History.play sampleStep (initial operatorVisits) failedThenVisited).bind (fun p =>
      (sampleStep p.2 (visitedAt true)).map fun c' =>
        (p.2.process.store.auditEvents.rows.length, c'.process.store.auditEvents.rows.length)) = some (0, 1) := by
    decide +kernel
  obtain ⟨⟨turns, c⟩, hplay, hp⟩ := Option.bind_eq_some_iff.mp hp
  obtain ⟨c', hs, hlen⟩ := Option.map_eq_some_iff.mp hp
  simp only [Prod.mk.injEq] at hlen
  refine ⟨turns, c, c', History.of_play hplay, hs, hlen.2, ?_⟩
  refine (operator_authority zeroDigests_inj (History.of_play hplay)).2 _ _ hs fun hparks => ?_
  rw [hparks.auditEvents] at hlen
  omega

end Sample
end Site
end Telegraph
