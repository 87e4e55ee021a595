import Telegraph.Monitor
import Telegraph.Proofs.SessionRows
import Telegraph.Proofs.Spelling

namespace Telegraph
open Lib Function

namespace Tokens
variable {sha256 : Bytes → Bytes} {a b : String}

theorem asBytes_inj (h : asBytes a = asBytes b) : a = b := by
  unfold asBytes at h
  rw [String.toUTF8_eq_toByteArray, String.toUTF8_eq_toByteArray] at h
  exact String.toByteArray_inj.mp (ByteArray.ext (Array.toList_inj.mp h))

theorem hashToken_inj (inj : Injective sha256) (h : hashToken sha256 a = hashToken sha256 b) :
    a = b :=
  asBytes_inj (inj (Hex.text_inj h))

/-- No two sessions share a CSRF token. -/
theorem deriveCsrf_inj (inj : Injective sha256) (h : deriveCsrf sha256 a = deriveCsrf sha256 b) :
    a = b :=
  asBytes_inj (List.append_cancel_right (inj (Hex.text_inj h)))

end Tokens

namespace Csrf
open Tokens
variable {sha256 : Bytes → Bytes} {a b : Bytes}

theorem fold_difference (l : List (UInt8 × UInt8)) (d : UInt8) :
    l.foldl (fun diff p => diff ||| (p.1 ^^^ p.2)) d = 0 ↔ d = 0 ∧ ∀ p ∈ l, p.1 = p.2 := by
  induction l generalizing d with
  | nil => simp
  | cons p l ih =>
    rw [List.foldl_cons, ih, UInt8.or_eq_zero_iff, UInt8.xor_eq_zero_iff]
    simp [and_assoc]

/-- The accumulating comparison tells exactly whether the bytes are the same. -/
theorem constantTimeEq_iff : constantTimeEq a b = true ↔ a = b := by
  unfold constantTimeEq
  by_cases hl : a.length = b.length
  · rw [if_neg (not_not.mpr hl), beq_iff_eq, difference, fold_difference]
    simp only [true_and]
    induction a generalizing b with
    | nil =>
      cases b with
      | nil => simp
      | cons y b => simp at hl
    | cons x a ih =>
      cases b with
      | nil => simp at hl
      | cons y b =>
        rw [List.zip_cons_cons, List.forall_mem_cons, ih (by simpa using hl), List.cons.injEq]
  · rw [if_pos hl]
    constructor
    · intro h
      cases h
    · exact fun h => absurd (congrArg List.length h) hl

theorem validate_iff {session : OperatorSession} {submitted : String} :
    validate sha256 session submitted = true ↔
      trim submitted ≠ "" ∧ hashToken sha256 (trim submitted) = session.csrfTokenHash := by
  unfold validate
  by_cases he : (trim submitted).isEmpty = true
  · rw [if_pos he]
    rw [String.isEmpty_iff] at he
    simp [he]
  · rw [if_neg he, constantTimeEq_iff]
    rw [String.isEmpty_iff] at he
    exact ⟨fun h => ⟨he, asBytes_inj h⟩, fun h => congrArg asBytes h.2⟩

end Csrf

namespace SessionTable
open Tokens AuthService
variable {sha256 : Bytes → Bytes} {t t' : SessionTable}

/-- Each session is one that `start_session` made for some token. -/
def Issued (sha256 : Bytes → Bytes) (t : SessionTable) : Prop :=
  ∀ s ∈ t.rows, ∃ token, s.sessionHash = hashToken sha256 token ∧
    s.csrfTokenHash = hashToken sha256 (deriveCsrf sha256 token)

theorem issued_empty : Issued sha256 Table.empty := fun s hs => by cases hs

theorem issued_update {p : OperatorSession → Bool} {f : OperatorSession → OperatorSession}
    {h : Table.KeepsKeys OperatorSession.clash f} (ht : Issued sha256 t)
    (hf : ∀ s, (f s).sessionHash = s.sessionHash ∧ (f s).csrfTokenHash = s.csrfTokenHash) :
    Issued sha256 (t.update p f h) := by
  intro s hs
  obtain ⟨r, hr, rfl⟩ := Table.mem_update.mp hs
  obtain ⟨token, h₁, h₂⟩ := ht r hr
  split
  · exact ⟨token, (hf r).1.trans h₁, (hf r).2.trans h₂⟩
  · exact ⟨token, h₁, h₂⟩

theorem issued_revokeSession {sessionHash : String} {at_ : Int} (ht : Issued sha256 t) :
    Issued sha256 (t.revokeSession sessionHash at_).1 :=
  @issued_update sha256 t (live sessionHash) (·.revoked at_) (fun _ _ => ⟨rfl, rfl⟩) ht fun _ =>
    ⟨rfl, rfl⟩

theorem issued_startSession {username : String} {entropy : Bytes} {now : Int}
    {started : StartedSession} (ht : Issued sha256 t)
    (h : startSession sha256 username entropy now t = .ok (t', started)) : Issued sha256 t' := by
  intro s hs
  rw [createSession_ok (startSession_ok h)] at hs
  rcases List.mem_append.mp hs with hs | hs
  · exact ht s hs
  · rw [List.mem_singleton.mp hs]
    exact ⟨generateToken entropy, rfl, rfl⟩

/-- The session of a token in an issued table carries that token's CSRF hash. -/
theorem Issued.csrf (ht : Issued sha256 t) (inj : Injective sha256) {token : String}
    {session : OperatorSession} (hs : t.getSession (hashToken sha256 token) = some session) :
    session.csrfTokenHash = hashToken sha256 (deriveCsrf sha256 token) := by
  obtain ⟨hm, hq⟩ := Table.find_mem hs
  obtain ⟨other, h₁, h₂⟩ := ht session hm
  have hsame : token = other := hashToken_inj inj ((beq_iff_eq.mp hq).symm.trans h₁)
  rw [hsame]
  exact h₂

/-- A refresh of the row of `token`: its last use and idle deadline move, nothing else. -/
def Refreshes (sha256 : Bytes → Bytes) (token : Option String) (s s' : OperatorSession) : Prop :=
  s' = s ∨ (∃ x, token = some x ∧ s.sessionHash = hashToken sha256 x) ∧
    ∃ lastSeenAt idleExpiresAt, s' = s.touched lastSeenAt idleExpiresAt

theorem Refreshes.keeps {token : Option String} {s s' : OperatorSession}
    (h : Refreshes sha256 token s s') :
    s'.sessionHash = s.sessionHash ∧ s'.csrfTokenHash = s.csrfTokenHash ∧ s'.revokedAt = s.revokedAt := by
  rcases h with rfl | ⟨-, a, b, rfl⟩
  · exact ⟨rfl, rfl, rfl⟩
  · exact ⟨rfl, rfl, rfl⟩

theorem touchSession_rows {token : String} {lastSeenAt idleExpiresAt : Int} :
    List.Forall₂ (Refreshes sha256 (some token)) t.rows
      (t.touchSession (hashToken sha256 token) lastSeenAt idleExpiresAt).1.rows := by
  change List.Forall₂ _ t.rows (t.rows.map _)
  refine List.forall₂_map_right_iff.mpr (List.forall₂_same.mpr ?_)
  intro s _
  by_cases hl : live (hashToken sha256 token) s = true
  · rw [if_pos hl]
    exact .inr ⟨⟨token, rfl, beq_iff_eq.mp (Bool.and_eq_true_iff.mp hl).1⟩, _, _, rfl⟩
  · rw [if_neg hl]
    exact .inl rfl

theorem authenticate_rows {token : String} {now : Int} :
    List.Forall₂ (Refreshes sha256 (some token)) t.rows (authenticate sha256 token now t).1.rows := by
  unfold authenticate
  split
  · exact List.forall₂_same.mpr fun s _ => .inl rfl
  · rw [refresh_fst]
    exact touchSession_rows

theorem authenticate_some {token : String} {now : Int} {auth : AuthenticatedSession}
    (h : (authenticate sha256 token now t).2 = some auth) :
    ∃ session, findActive sha256 token now t = some session ∧
      auth = ⟨session.touched now (refreshedIdle session now), deriveCsrf sha256 token⟩ := by
  unfold authenticate at h
  split at h
  · cases h
  next session hs =>
    obtain ⟨hfound, hactive⟩ := findActive_some.mp hs
    rw [refresh_some hfound (evaluateSession_active.mp hactive).1] at h
    exact ⟨session, hs, (Option.some.inj h).symm⟩

end SessionTable

open Tokens SessionTable AuthService

/-- The `csrf_token` a request submits. -/
def MonitorRequest.csrfField (request : MonitorRequest) : Option String :=
  request.form.bind (Monitor.formField · "csrf_token")

namespace Monitor
variable {sha256 : Bytes → Bytes} {m m' : MonitorState} {request : MonitorRequest} {now : Int}

/-- The request is a POST, its cookie names a live session, and its `csrf_token` is the one
derived from that session's token and from no other. -/
structure Admitted (sha256 : Bytes → Bytes) (m : MonitorState) (request : MonitorRequest) (now : Int)
    (token : String) : Prop where
  post : request.route.isPost = true
  cookie : Cookies.readSessionCookie request.headers = some token
  session : ∃ s, m.sessions.getSession (hashToken sha256 token) = some s ∧ s.revokedAt = none ∧
    now < s.idleExpiresAt ∧ now < s.absoluteExpiresAt
  csrf : ∃ field, request.csrfField = some field ∧ trim field = deriveCsrf sha256 token ∧
    trim field ≠ "" ∧ ∀ other, trim field = deriveCsrf sha256 other → other = token

/-- Some row of the recordings' tables changed, or a session became revoked. -/
def Changes (m m' : MonitorState) : Prop :=
  m'.store ≠ m.store ∨ ∃ s ∈ m.sessions.rows, ∃ s' ∈ m'.sessions.rows,
    s'.sessionHash = s.sessionHash ∧ s.revokedAt = none ∧ s'.revokedAt ≠ none

/-- At most the presented session was refreshed. -/
structure RefreshedOnly (sha256 : Bytes → Bytes) (request : MonitorRequest) (m m' : MonitorState) :
    Prop where
  store : m'.store = m.store
  sessions : List.Forall₂ (Refreshes sha256 (Cookies.readSessionCookie request.headers))
    m.sessions.rows m'.sessions.rows

theorem RefreshedOnly.refl : RefreshedOnly sha256 request m m :=
  ⟨rfl, List.forall₂_same.mpr fun _ _ => .inl rfl⟩

theorem RefreshedOnly.source {s' : OperatorSession} (h : RefreshedOnly sha256 request m m')
    (hs' : s' ∈ m'.sessions.rows) :
    ∃ s ∈ m.sessions.rows, Refreshes sha256 (Cookies.readSessionCookie request.headers) s s' := by
  obtain ⟨i, hi, rfl⟩ := List.mem_iff_getElem.mp hs'
  have hl := h.sessions.length_eq
  exact ⟨m.sessions.rows[i], List.getElem_mem _, h.sessions.get (by omega) hi⟩

theorem RefreshedOnly.not_changes (h : RefreshedOnly sha256 request m m') : ¬ Changes m m' := by
  rintro (hs | ⟨s, hs, s', hs', hsame, hlive, hrevoked⟩)
  · exact hs h.store
  · obtain ⟨r, hr, hrs⟩ : ∃ r ∈ m.sessions.rows,
        Refreshes sha256 (Cookies.readSessionCookie request.headers) r s' := by
      obtain ⟨i, hi, rfl⟩ := List.mem_iff_getElem.mp hs'
      have hl := h.sessions.length_eq
      exact ⟨m.sessions.rows[i], List.getElem_mem _, h.sessions.get (by omega) hi⟩
    obtain ⟨hhash, -, hrevokedAt⟩ := hrs.keeps
    have hrow : r = s := by
      have hfound := getSession_of_mem hr
      rw [← hhash, hsame, getSession_of_mem hs] at hfound
      exact (Option.some.inj hfound).symm
    rw [hrevokedAt, hrow] at hrevoked
    exact hrevoked hlive

theorem requireSession_refreshes :
    RefreshedOnly sha256 request m (requireSession sha256 m request.headers now).1 := by
  unfold requireSession
  split
  · exact .refl
  next token hc =>
    have hrows := @authenticate_rows sha256 m.sessions token now
    rw [← hc] at hrows
    split
    next t' auth ha =>
      rw [ha] at hrows
      exact ⟨rfl, hrows⟩
    next t' ha =>
      rw [ha] at hrows
      exact ⟨rfl, hrows⟩

theorem requireSession_ok {auth : AuthenticatedSession}
    (h : (requireSession sha256 m request.headers now).2 = .ok auth) :
    ∃ token session, Cookies.readSessionCookie request.headers = some token ∧
      findActive sha256 token now m.sessions = some session ∧
      auth.session.csrfTokenHash = session.csrfTokenHash := by
  unfold requireSession at h
  split at h
  · cases h
  next token hc =>
    split at h
    next t' auth' ha =>
      cases h
      obtain ⟨session, hs, rfl⟩ := authenticate_some (congrArg Prod.snd ha)
      exact ⟨token, session, hc, hs, rfl⟩
    next => cases h

/-- A guarded action runs only for an admitted request. -/
theorem guarded_cases {φ : Type} {parse : List (String × String) → Option φ} {csrfToken : φ → String}
    {action : MonitorState → AuthenticatedSession → φ → MonitorState × Reply}
    (inj : Injective sha256) (issued : Issued sha256 m.sessions) (post : request.route.isPost = true)
    (hparse : ∀ form f, parse form = some f → formField form "csrf_token" = some (csrfToken f)) :
    RefreshedOnly sha256 request m (guarded sha256 parse csrfToken m request now action).1 ∨
      ∃ token, Admitted sha256 m request now token := by
  unfold guarded
  split
  · exact .inl .refl
  next form hform =>
    have hrefresh := @requireSession_refreshes sha256 m request now
    split
    next m' reply hr =>
      rw [hr] at hrefresh
      exact .inl hrefresh
    next m' auth hr =>
      rw [hr] at hrefresh
      split
      next hv =>
        right
        obtain ⟨token, session, hcookie, hactive, hcsrf⟩ := requireSession_ok (congrArg Prod.snd hr)
        obtain ⟨hsession, hlive⟩ := findActive_some.mp hactive
        obtain ⟨fields, hfields, hf⟩ := Option.bind_eq_some_iff.mp hform
        obtain ⟨hne, hhash⟩ := Csrf.validate_iff.mp hv
        rw [hcsrf, issued.csrf inj hsession] at hhash
        have htoken := hashToken_inj inj hhash
        refine ⟨token, post, hcookie, ⟨session, hsession, evaluateSession_active.mp hlive⟩,
          csrfToken form, ?_, htoken, hne, ?_⟩
        · unfold MonitorRequest.csrfField
          rw [hfields]
          exact hparse fields form hf
        · intro other hother
          exact (deriveCsrf_inj inj (htoken.symm.trans hother)).symm
      next => exact .inl hrefresh

theorem parseCsrfForm_field {form : List (String × String)} {f : CsrfForm}
    (h : parseCsrfForm form = some f) : formField form "csrf_token" = some f.csrfToken := by
  unfold parseCsrfForm at h
  obtain ⟨field, hfield, hf⟩ := Option.bind_eq_some_iff.mp h
  cases hf
  exact hfield

theorem parseManualRouteForm_field {form : List (String × String)} {f : ManualRouteForm}
    (h : parseManualRouteForm form = some f) : formField form "csrf_token" = some f.csrfToken := by
  unfold parseManualRouteForm at h
  obtain ⟨field, hfield, hrest⟩ := Option.bind_eq_some_iff.mp h
  obtain ⟨sink, -, hf⟩ := Option.bind_eq_some_iff.mp hrest
  cases hf
  exact hfield

/-- A page changes nothing but the presented session. -/
theorem recordingList_refreshes {status : Option String} :
    RefreshedOnly sha256 request m (recordingList sha256 m status request.headers now).1 := by
  have hrefresh := @requireSession_refreshes sha256 m request now
  unfold recordingList
  split
  next hr => rwa [hr] at hrefresh
  next hr => rwa [hr] at hrefresh

theorem recordingDetail_refreshes {config : AppConfig} {id : String} :
    RefreshedOnly sha256 request m (recordingDetail sha256 config m id request.headers now).1 := by
  have hrefresh := @requireSession_refreshes sha256 m request now
  unfold recordingDetail
  split
  next hr => rwa [hr] at hrefresh
  next hr =>
    rw [hr] at hrefresh
    split
    · exact hrefresh
    · exact hrefresh

theorem handle_cases {config : AppConfig} {supply : MonitorSupply}
    (inj : Injective sha256) (issued : Issued sha256 m.sessions) :
    RefreshedOnly sha256 request m (handle sha256 config m request supply).1 ∨
      ∃ token, Admitted sha256 m request supply.now token := by
  unfold handle
  cases hroute : request.route with
  | recordingList status => exact .inl recordingList_refreshes
  | recordingDetail id => exact .inl recordingDetail_refreshes
  | logout => exact guarded_cases inj issued (by rw [hroute]; rfl) fun _ _ => parseCsrfForm_field
  | manualRoute id =>
    exact guarded_cases inj issued (by rw [hroute]; rfl) fun _ _ => parseManualRouteForm_field
  | retryTranscription id =>
    exact guarded_cases inj issued (by rw [hroute]; rfl) fun _ _ => parseCsrfForm_field
  | retryDelivery id =>
    exact guarded_cases inj issued (by rw [hroute]; rfl) fun _ _ => parseCsrfForm_field

/-- Every state the monitor's requests lead to has issued sessions only. -/
theorem RefreshedOnly.issued (h : RefreshedOnly sha256 request m m') (issued : Issued sha256 m.sessions) :
    Issued sha256 m'.sessions := by
  intro s' hs'
  obtain ⟨r, hr, hrs⟩ := h.source hs'
  obtain ⟨token, h₁, h₂⟩ := issued r hr
  obtain ⟨hhash, hcsrf, -⟩ := hrs.keeps
  exact ⟨token, hhash.trans h₁, hcsrf.trans h₂⟩

theorem guarded_issued {φ : Type} {parse : List (String × String) → Option φ} {csrfToken : φ → String}
    {action : MonitorState → AuthenticatedSession → φ → MonitorState × Reply}
    (issued : Issued sha256 m.sessions)
    (haction : ∀ m auth f, Issued sha256 m.sessions → Issued sha256 (action m auth f).1.sessions) :
    Issued sha256 (guarded sha256 parse csrfToken m request now action).1.sessions := by
  unfold guarded
  split
  · exact issued
  next form hform =>
    have hrefresh := @requireSession_refreshes sha256 m request now
    split
    next m' reply hr =>
      rw [hr] at hrefresh
      exact hrefresh.issued issued
    next m' auth hr =>
      rw [hr] at hrefresh
      split
      · exact haction m' auth form (hrefresh.issued issued)
      · exact hrefresh.issued issued

theorem handle_issued {config : AppConfig} {supply : MonitorSupply} (issued : Issued sha256 m.sessions) :
    Issued sha256 (handle sha256 config m request supply).1.sessions := by
  unfold handle
  cases request.route with
  | recordingList status => exact recordingList_refreshes.issued issued
  | recordingDetail id => exact recordingDetail_refreshes.issued issued
  | logout =>
    refine guarded_issued issued fun m auth f hm => ?_
    exact issued_revokeSession hm
  | manualRoute id =>
    refine guarded_issued issued fun m auth f hm => ?_
    unfold manualRoute
    split
    · exact hm
    · exact hm
  | retryTranscription id => exact guarded_issued issued fun m auth f hm => hm
  | retryDelivery id => exact guarded_issued issued fun m auth f hm => hm

end Monitor

/-- Only a POST with a live session and that session's own CSRF token changes anything
beyond the last use and the idle deadline of the presented session. -/
theorem only_admitted_changes {sha256 : Bytes → Bytes} {config : AppConfig} {m : MonitorState}
    {request : MonitorRequest} {supply : MonitorSupply}
    (inj : Injective sha256) (issued : Issued sha256 m.sessions) :
    (Monitor.Changes m (Monitor.handle sha256 config m request supply).1 →
      ∃ token, Monitor.Admitted sha256 m request supply.now token) ∧
    ((¬ ∃ token, Monitor.Admitted sha256 m request supply.now token) →
      Monitor.RefreshedOnly sha256 request m (Monitor.handle sha256 config m request supply).1) := by
  have hcases := @Monitor.handle_cases sha256 m request config supply inj issued
  constructor
  · intro hchanges
    rcases hcases with hrefresh | hadmitted
    · exact absurd hchanges hrefresh.not_changes
    · exact hadmitted
  · intro hn
    rcases hcases with hrefresh | hadmitted
    · exact hrefresh
    · exact absurd hadmitted hn

/-- One session, started at 0. -/
def oneSession : SessionTable :=
  match startSession (digestFrom zeroDigests) "operator" (List.replicate 32 0) 0 Table.empty with
  | .ok (t, _) => t
  | .error _ => Table.empty

theorem oneSession_issued : Issued (digestFrom zeroDigests) oneSession := by
  unfold oneSession
  split
  next h => exact issued_startSession issued_empty h
  next => exact issued_empty

/-- A logout, with a blank around the CSRF token. -/
def logoutRequest : MonitorRequest where
  route := .logout
  headers := [("cookie", asBytes ("telegraph_operator_session=" ++ zeroToken))]
  form := some [("csrf_token", " 2221bed20d9e3c9064a02c491cd5e698163fdbebbe4e9bde38614c042e1b2b86")]

theorem logout_admitted : ∃ token, Monitor.Admitted (digestFrom zeroDigests)
    ⟨Store.empty, oneSession⟩ logoutRequest 1 token := by
  refine (@only_admitted_changes _ ⟨⟨4096⟩, [], []⟩ ⟨Store.empty, oneSession⟩ logoutRequest
    ⟨1, 2, "e1", "e2"⟩ zeroDigests_inj oneSession_issued).1 (.inr ?_)
  decide +kernel

end Telegraph
