import Telegraph.Proofs.CookieSearch
import Telegraph.Proofs.DetailPage
import Telegraph.Proofs.Elsewhere
import Telegraph.Proofs.MonitorGuards

namespace Telegraph
open Lib Program SqliteStore Function

namespace SqliteStore
variable {α : Type} {s w : Store} {f : Unit → Query α}
variable {ok : α → Connection Store → Prop} {bad : StorageError → Connection Store → Prop}

/-! The steps of an action that nothing refuses, with the audit log they leave alone. -/

theorem ensures_moved {x : String} {next : RecordingStatus} {t : Int} {r : RecordingRow}
    (hr : w.recording x = some r) (hc : r.status.canTransitionTo next = true)
    (h : ∀ w' : Store, w'.auditEvents = w.auditEvents → w'.view = w.view.withRecording (r.moved next t) →
      (f ()).Ensures ⟨s, some w'⟩ ok bad) :
    ((guardedTransition x next t).bind f).Ensures ⟨s, some w⟩ ok bad := by
  apply ensures_then
  unfold guardedTransition
  apply ensures_query
  apply ensures_require
  · intro hn
    simp [hr] at hn
  · intro current hcur
    obtain ⟨q, hq, rfl⟩ := Option.map_eq_some_iff.mp hcur
    obtain rfl := Option.some.inj (hr.symm.trans hq)
    rw [hc]
    exact h _ rfl (Store.view_updateRecordings hr fun _ => rfl)

theorem ensures_audited {e : AuditEvent} (hfresh : ∀ a ∈ w.auditEvents.rows, a.id ≠ e.id)
    (h : ∀ w' : Store, w'.view = w.view → (f ()).Ensures ⟨s, some w'⟩ ok bad) :
    ((insertAuditEvent e).bind f).Ensures ⟨s, some w⟩ ok bad := by
  apply ensures_insertAuditEvent
  · intro e' he
    rcases Store.checked_error he with ⟨a, ha, hc⟩ | hp
    · exact absurd (by simpa [AuditEvent.clash] using hc) (hfresh a ha)
    · cases hp
  · exact h

theorem ensures_inserted {new : NewDelivery} {r : RecordingRow} (hr : w.recording new.recordingId = some r)
    (hid : ∀ d ∈ w.deliveries.rows, d.id ≠ new.id) (hfor : w.deliveryFor new.recordingId = none)
    (h : ∀ w' : Store, w'.auditEvents = w.auditEvents →
      w'.view = (w.view.withDelivery (deliveryRow new)).withRecording (r.withSink new.sinkName) →
      (f ()).Ensures ⟨s, some w'⟩ ok bad) :
    ((insertDelivery new).bind f).Ensures ⟨s, some w⟩ ok bad := by
  apply ensures_then
  apply ensures_attempt
  · intro e he
    rcases Store.checked_error he with ⟨d, hd, hc⟩ | hp
    · rcases Bool.or_eq_true_iff.mp hc with hc | hc
      · exact absurd (beq_iff_eq.mp hc) (hid d hd)
      · have hsome := Store.deliveryFor_of_mem hd
        rw [beq_iff_eq.mp hc] at hsome
        cases hfor.symm.trans hsome
    · simp [deliveryRow, hr] at hp
  · intro u hu
    obtain ⟨hv, -⟩ := Store.insertDelivery_ok hu
    have hru : u.recording new.recordingId = some r := (recording_eq hv _).trans hr
    apply ensures_modify
    refine h _ (Store.elsewhere_insertDelivery
      (show some (deliveryRow new).recordingId = some new.recordingId from rfl) hu).2 ?_
    rw [← hv]
    exact Store.view_updateRecordings hru fun _ => rfl

/-- The status and nothing else decides an action of the Operator on a Recording. -/
def Judged (s : Store) (x : String) (allowed next : RecordingStatus) (refusal : RecordingStatus → StorageError)
    (q : Query α) : Prop :=
  ∀ r, s.recording x = some r → q.Transacts s
    (fun _ s' => r.status = allowed ∧ (s'.recording x).map (·.status) = some next)
    fun e => r.status ≠ allowed ∧ e = refusal r.status

theorem manualRouteTx_judged {input : ManualRoute} {r : RecordingRow} (hl : s.view.Lifecycle)
    (hd : ∀ d ∈ s.deliveries.rows, d.id ≠ input.deliveryId)
    (ha : ∀ a ∈ s.auditEvents.rows, a.id ≠ input.auditEventId)
    (hr : s.recording input.recordingId = some r) :
    (manualRouteTx input).Transacts s
      (fun _ s' => (r.status = .backlogged ∧
        (s'.recording input.recordingId).map (·.status) = some .delivering) ∧
        s'.delivery input.deliveryId = some (deliveryRow (manualDelivery input)))
      fun e => r.status ≠ .backlogged ∧ e = .recordingNotBacklogged input.recordingId r.status := by
  apply ensures_begin
  apply ensures_currentStatus
  · intro hn
    cases hr.symm.trans hn
  intro q hq
  obtain rfl := Option.some.inj (hr.symm.trans hq)
  split
  · rename_i hst
    exact ⟨rfl, by simpa using hst, rfl⟩
  rename_i hst
  have hst : r.status = .backlogged := by simpa using hst
  have hid := Store.recording_id hr
  have hstage : Stage (some r) (s.transcript input.recordingId) (s.deliveryFor input.recordingId) := hr ▸ hl _
  apply ensures_inserted hr hd (hstage.transcribed (.inr hst)).2.1
  intro u hau hu
  have hru : u.recording input.recordingId = some (r.withSink input.sinkName) := by
    rw [recording_eq hu, ← hid]
    exact View.recording_withRecording _ _
  apply ensures_moved hru (RecordingStatus.to_delivering.mpr (.inr (.inl hst)))
  intro w haw hw
  apply ensures_audited (by rw [haw, hau]; exact ha)
  intro w' hw'
  replace hw' := hw'.trans hw
  rw [hu] at hw'
  apply ensures_commit_last
  have hdel : w'.delivery input.deliveryId = some (deliveryRow (manualDelivery input)) := by
    rw [delivery_eq hw']
    exact View.delivery_withDelivery s.view (deliveryRow (manualDelivery input))
  have hrec : w'.recording input.recordingId = some ((r.withSink input.sinkName).moved .delivering input.selectedAt) := by
    rw [recording_eq hw', ← hid]
    exact View.recording_withRecording _ _
  exact ⟨rfl, ⟨hst, by simp [hrec, RecordingRow.moved]⟩, hdel⟩

theorem manualRoute_judged {input : ManualRoute} (hl : s.view.Lifecycle)
    (hd : ∀ d ∈ s.deliveries.rows, d.id ≠ input.deliveryId)
    (ha : ∀ a ∈ s.auditEvents.rows, a.id ≠ input.auditEventId) :
    Judged s input.recordingId .backlogged .delivering (.recordingNotBacklogged input.recordingId)
      (manualRoute input) := by
  intro r hr
  apply (manualRouteTx_judged hl hd ha hr).andThen
  rintro _ s' ⟨hmoved, hdel⟩
  exact ensures_requireDelivery hdel ⟨rfl, hmoved⟩

theorem manualRetryTranscription_judged {input : ManualRetryTranscription}
    (ha : ∀ a ∈ s.auditEvents.rows, a.id ≠ input.auditEventId) :
    Judged s input.recordingId .transcriptionFailed .transcribing
      (.recordingNotRetryable input.recordingId · "transcription") (manualRetryTranscription input) := by
  intro r hr
  apply ensures_begin
  apply ensures_currentStatus
  · intro hn
    cases hr.symm.trans hn
  intro q hq
  obtain rfl := Option.some.inj (hr.symm.trans hq)
  split
  · rename_i hst
    exact ⟨rfl, by simpa using hst, rfl⟩
  rename_i hst
  have hst : r.status = .transcriptionFailed := by simpa using hst
  have hid := Store.recording_id hr
  apply ensures_moved hr (by rw [hst]; rfl)
  intro u hau hu
  have hru : u.recording input.recordingId = some (r.moved .transcribing input.at_) := by
    rw [recording_eq hu, ← hid]
    exact View.recording_withRecording _ _
  have hv := Store.view_updateRecordings (f := (·.withError none)) (h := fun _ _ => ⟨rfl, rfl⟩) hru
    fun _ => rfl
  have hrv := (recording_eq hv r.id).trans (View.recording_withRecording _ _)
  rw [hid] at hrv
  have hw := Store.view_updateRecordings (f := (·.withWindow input.at_)) (h := fun _ _ => ⟨rfl, rfl⟩) hrv
    fun _ => rfl
  apply ensures_then
  apply ensures_modify
  apply ensures_modify
  apply ensures_audited (by exact hau ▸ ha)
  intro w' hw'
  apply ensures_commit
  have hrw := (recording_eq (hw'.trans hw) r.id).trans (View.recording_withRecording _ _)
  rw [hid] at hrw
  exact ensures_requireRecording hrw ⟨rfl, hst, by rw [hrw]; rfl⟩

theorem manualRetryDelivery_judged {input : ManualRetryDelivery} (hl : s.view.Lifecycle)
    (ha : ∀ a ∈ s.auditEvents.rows, a.id ≠ input.auditEventId) :
    Judged s input.recordingId .deliveryFailed .delivering
      (.recordingNotRetryable input.recordingId · "delivery") (manualRetryDelivery input) := by
  intro r hr
  apply ensures_begin
  apply ensures_currentStatus
  · intro hn
    cases hr.symm.trans hn
  intro q hq
  obtain rfl := Option.some.inj (hr.symm.trans hq)
  split
  · rename_i hst
    exact ⟨rfl, by simpa using hst, rfl⟩
  rename_i hst
  have hst : r.status = .deliveryFailed := by simpa using hst
  have hid := Store.recording_id hr
  have hstage : Stage (some r) (s.transcript input.recordingId) (s.deliveryFor input.recordingId) := hr ▸ hl _
  obtain ⟨d, hfor, -⟩ := hstage.hasDelivery (by simp [hst])
  have hd : s.delivery d.id = some d :=
    s.view_coherent.delivery_iff.mpr (by rw [s.view_coherent.deliveryFor_id hfor]; exact hfor)
  apply ensures_query
  apply ensures_require
  · intro hn
    simp [hfor] at hn
  intro y hy
  obtain ⟨e, he, rfl⟩ := Option.map_eq_some_iff.mp hy
  obtain rfl := Option.some.inj (hfor.symm.trans he)
  apply ensures_modify
  have hu := Store.view_updateDeliveries (f := reopened input) (h := fun _ _ => ⟨rfl, rfl⟩) hd
    (fun _ => rfl) fun _ => rfl
  apply ensures_moved ((recording_eq hu _).trans hr) (RecordingStatus.to_delivering.mpr (.inr (.inr hst)))
  intro w haw hw
  rw [hu] at hw
  have hrw := (recording_eq hw r.id).trans (View.recording_withRecording _ _)
  rw [hid] at hrw
  have hv := Store.view_updateRecordings (f := (·.withError none)) (h := fun _ _ => ⟨rfl, rfl⟩) hrw
    fun _ => rfl
  rw [hw] at hv
  apply ensures_then
  apply ensures_modify
  apply ensures_audited (by exact haw ▸ ha)
  intro w' hw'
  replace hw' := hw'.trans hv
  apply ensures_commit
  have hdw := (delivery_eq hw' d.id).trans (View.delivery_withDelivery s.view (reopened input d))
  have hrw' := (recording_eq hw' r.id).trans (View.recording_withRecording _ _)
  rw [hid] at hrw'
  exact ensures_requireDelivery hdw ⟨rfl, hst, by rw [hrw']; rfl⟩

/-- A Recording that is there has a detail page. -/
theorem getRecordingDetail_transacts {x : String} : (getRecordingDetail x).Transacts s
    (fun found s' => s' = s ∧ (found = none ∧ s.recording x = none ∨
      ∃ r d, s.recording x = some r ∧ found = some d ∧ d.recording = r.toRecording)) fun _ => False := by
  apply ensures_read
  cases hr : s.recording x with
  | none => exact ⟨rfl, rfl, .inl ⟨rfl, rfl⟩⟩
  | some r =>
    simp only [Option.map_some]
    apply ensures_read
    apply ensures_read
    apply ensures_read
    cases hd : s.deliveryFor x with
    | none =>
      apply ensures_read
      exact ⟨rfl, rfl, .inr ⟨r, _, rfl, rfl, rfl⟩⟩
    | some d =>
      apply ensures_read
      apply ensures_read
      exact ⟨rfl, rfl, .inr ⟨r, _, rfl, rfl, rfl⟩⟩

end SqliteStore

open Tokens SessionTable AuthService

namespace Monitor
variable {sha256 : Bytes → Bytes} {config : AppConfig} {m m₁ m' : MonitorState} {request : MonitorRequest}
variable {now : Int} {id : String} {headers : List (String × Bytes)} {page : RecordingDetailTemplate}
variable {supply : MonitorSupply}

/-- An action that was offered is taken; one that was not is in conflict. -/
def Answers (m : MonitorState) (id : String) (offered : Bool) (next : RecordingStatus)
    (r : MonitorState × Reply) : Prop :=
  if offered then r.2 = redirectToDetail id ∧ (r.1.store.recording id).map (·.status) = some next
  else r.2 = conflict ∧ r.1.store = m.store

theorem answers_of_judged {α : Type} {allowed next : RecordingStatus} {refusal : RecordingStatus → StorageError}
    {refused : StorageError → Bool} {q : Query α} {r : RecordingRow}
    (hj : Judged m.store id allowed next refusal q) (hr : m.store.recording id = some r)
    (hrefused : ∀ status, actionReply id refused (.error (refusal status) : Except StorageError α) = conflict) :
    Answers m id (r.status == allowed) next
      ({ m with store := (q.run m.store).1 }, actionReply id refused (q.run m.store).2) := by
  rcases (hj r hr).run_cases with ⟨a, s', hrun, hst, hnext⟩ | ⟨e, hrun, hst, rfl⟩
  · have hreply : actionReply id refused (.ok a : Except StorageError α) = redirectToDetail id := rfl
    rw [hrun]
    simpa [Answers, hst, hreply] using hnext
  · rw [hrun]
    simpa [Answers, hst] using hrefused r.status

theorem guarded_admitted {φ : Type} {parse : List (String × String) → Option φ} {csrfToken : φ → String}
    {action : MonitorState → AuthenticatedSession → φ → MonitorState × Reply} {form : φ}
    {auth : AuthenticatedSession} {route : MonitorRoute} {fields : List (String × String)}
    (hform : parse fields = some form) (hs : requireSession sha256 m headers now = (m', .ok auth))
    (hv : Csrf.validate sha256 auth.session (csrfToken form) = true) :
    guarded sha256 parse csrfToken m ⟨route, headers, some fields⟩ now action = action m' auth form := by
  unfold guarded
  simp only [Option.bind_some, hform, hs, hv, if_true]

/-- A page shows the Recording as it is, for a session and with that session's token. -/
structure Shows (sha256 : Bytes → Bytes) (config : AppConfig) (m : MonitorState) (id token : String)
    (r : RecordingRow) (page : RecordingDetailTemplate) : Prop where
  recording : m.store.recording id = some r
  csrf : page.csrfToken = deriveCsrf sha256 token
  sinks : page.sinks = config.sinks.map (·.name)
  manualRoute : page.canManualRoute = (r.status == .backlogged)
  retryTranscription : page.canRetryTranscription = (r.status == .transcriptionFailed)
  retryDelivery : page.canRetryDelivery = (r.status == .deliveryFailed)

theorem requireSession_csrf {auth : AuthenticatedSession}
    (h : requireSession sha256 m headers now = (m', .ok auth)) :
    ∃ token, Cookies.readSessionCookie headers = some token ∧ auth.csrfToken = deriveCsrf sha256 token := by
  unfold requireSession at h
  split at h
  · cases h
  next token hc =>
    split at h
    next t' auth' ha =>
      cases h
      obtain ⟨session, hs, rfl⟩ := authenticate_some (congrArg Prod.snd ha)
      exact ⟨token, hc, rfl⟩
    next => cases h

theorem page_shows (h : recordingDetailPage sha256 config m id headers now = (m₁, .ok page)) :
    ∃ token r, Cookies.readSessionCookie headers = some token ∧ Shows sha256 config m₁ id token r page ∧
      (requireSession sha256 m headers now).1 = m₁ := by
  unfold recordingDetailPage at h
  cases hs : requireSession sha256 m headers now with
  | mk m₂ o =>
    cases o with
    | error reply => simp [hs] at h
    | ok auth =>
      simp only [hs] at h
      rcases (@getRecordingDetail_transacts m₂.store id).run_cases with ⟨found, s', hrun, -, hf⟩ | ⟨e, -, he⟩
      · rw [hrun] at h
        rcases hf with ⟨rfl, -⟩ | ⟨r, d, hr, rfl, hd⟩
        · simp at h
        · simp only [Prod.mk.injEq, Except.ok.injEq] at h
          obtain ⟨rfl, rfl⟩ := h
          obtain ⟨token, hc, hcsrf⟩ := requireSession_csrf hs
          refine ⟨token, r, hc, ⟨hr, hcsrf, rfl, ?_, ?_, ?_⟩, rfl⟩ <;>
            simp [RecordingDetailTemplate.fromDetail, hd]
      · exact he.elim

/-- The CSRF token of a page passes the check of every later request of its session. -/
theorem page_csrf_valid (inj : Injective sha256) (nonempty : ∀ bytes, sha256 bytes ≠ [])
    (issued : Issued sha256 m.sessions) {token : String} {auth : AuthenticatedSession}
    (hc : Cookies.readSessionCookie headers = some token)
    (hs : requireSession sha256 m headers now = (m', .ok auth)) :
    Csrf.validate sha256 auth.session (deriveCsrf sha256 token) = true := by
  have hreq := @requireSession_ok sha256 m ⟨.logout, headers, none⟩ now auth (congrArg Prod.snd hs)
  obtain ⟨token', session, hc', hactive, hcsrf⟩ := hreq
  obtain rfl : token = token' := Option.some.inj (hc.symm.trans hc')
  have hplain : trim (deriveCsrf sha256 token) = deriveCsrf sha256 token :=
    Cookies.trim_of_plain Cookies.generateToken_plain
  rw [Csrf.validate_iff, hplain, hcsrf, issued.csrf inj (findActive_some.mp hactive).1]
  exact ⟨Hex.text_ne (nonempty _), rfl⟩

/-- The two ids are in no table an action writes them to. -/
structure Fresh (supply : MonitorSupply) (s : Store) : Prop where
  deliveries : ∀ d ∈ s.deliveries.rows, d.id ≠ supply.firstId
  auditEvents : ∀ e ∈ s.auditEvents.rows, e.id ≠ supply.firstId ∧ e.id ≠ supply.secondId

theorem parseManualRouteForm_pair {token sink : String} :
    parseManualRouteForm [("csrf_token", token), ("sink", sink)] = some ⟨token, sink⟩ := by
  simp [parseManualRouteForm, formField]

theorem parseCsrfForm_single {token : String} : parseCsrfForm [("csrf_token", token)] = some ⟨token⟩ := by
  simp [parseCsrfForm, formField]

/-- A detail page offers the actions the service accepts, and no other: as long as the
session lives, a form sent back with the page's token is carried out if the page offered
it, and otherwise refused with nothing changed. -/
theorem offered_actions {c : Process} {trace : List Event} {route : Recording → RoutingDecision}
    (hr : Service.Run route trace c) (hm : m.store = c.store) (inj : Injective sha256)
    (nonempty : ∀ bytes, sha256 bytes ≠ []) (issued : Issued sha256 m.sessions)
    (hpage : recordingDetailPage sha256 config m id headers now = (m₁, .ok page))
    (hlive : ∃ m₂ auth, requireSession sha256 m₁ headers supply.now = (m₂, .ok auth))
    (fresh : Fresh supply m.store) :
    (∀ sink ∈ page.sinks, Answers m id page.canManualRoute .delivering (handle sha256 config m₁
      ⟨.manualRoute id, headers, some [("csrf_token", page.csrfToken), ("sink", sink)]⟩ supply)) ∧
    Answers m id page.canRetryTranscription .transcribing (handle sha256 config m₁
      ⟨.retryTranscription id, headers, some [("csrf_token", page.csrfToken)]⟩ supply) ∧
    Answers m id page.canRetryDelivery .delivering (handle sha256 config m₁
      ⟨.retryDelivery id, headers, some [("csrf_token", page.csrfToken)]⟩ supply) := by
  obtain ⟨token, r, hc, hshows, rfl⟩ := page_shows hpage
  have hget := @requireSession_refreshes sha256 m ⟨.logout, headers, none⟩ now
  obtain ⟨m₂, auth, hs⟩ := hlive
  have hpost := @requireSession_refreshes sha256 (requireSession sha256 m headers now).1
    ⟨.logout, headers, none⟩ supply.now
  rw [hs] at hpost
  have hstore : m₂.store = m.store := hpost.store.trans hget.store
  have hl : m₂.store.view.Lifecycle := by
    rw [hstore, hm]
    exact Service.run_lifecycle hr
  have hrec : m₂.store.recording id = some r := hpost.store ▸ hshows.recording
  rw [← hstore] at fresh
  have hv := page_csrf_valid inj nonempty (hget.issued issued) hc hs
  rw [← hshows.csrf] at hv
  have answers : ∀ {offered : Bool} {next : RecordingStatus} {r : MonitorState × Reply},
      Answers m₂ id offered next r → Answers m id offered next r := by
    intro offered next r h
    unfold Answers at h ⊢
    rwa [hstore] at h
  generalize hm₁ : (requireSession sha256 m headers now).1 = m₁ at hs ⊢
  refine ⟨fun sink hsink => answers ?_, answers ?_, answers ?_⟩
  · have hg : handle sha256 config m₁
        ⟨.manualRoute id, headers, some [("csrf_token", page.csrfToken), ("sink", sink)]⟩ supply =
          Monitor.manualRoute config id supply m₂ auth ⟨page.csrfToken, sink⟩ :=
      guarded_admitted parseManualRouteForm_pair hs hv
    have hoffers : config.offers sink = true := by
      rw [hshows.sinks] at hsink
      simpa [AppConfig.offers] using hsink
    rw [hg, hshows.manualRoute]
    unfold Monitor.manualRoute
    rw [if_pos hoffers]
    have hj := @manualRoute_judged m₂.store ⟨id, sink, supply.firstId, supply.secondId, supply.later,
      supply.later + Retry.deliveryWindow, some auth.session.operatorUsername⟩ hl fresh.deliveries
      fun e he => (fresh.auditEvents e he).2
    exact answers_of_judged hj hrec fun _ => rfl
  · have hg : handle sha256 config m₁
        ⟨.retryTranscription id, headers, some [("csrf_token", page.csrfToken)]⟩ supply =
          Monitor.retryTranscription id supply m₂ auth ⟨page.csrfToken⟩ :=
      guarded_admitted parseCsrfForm_single hs hv
    rw [hg, hshows.retryTranscription]
    have hj := @manualRetryTranscription_judged m₂.store ⟨id, supply.firstId, supply.later,
      some auth.session.operatorUsername⟩ fun e he => (fresh.auditEvents e he).1
    exact answers_of_judged hj hrec fun _ => rfl
  · have hg : handle sha256 config m₁
        ⟨.retryDelivery id, headers, some [("csrf_token", page.csrfToken)]⟩ supply =
          Monitor.retryDelivery id supply m₂ auth ⟨page.csrfToken⟩ :=
      guarded_admitted parseCsrfForm_single hs hv
    rw [hg, hshows.retryDelivery]
    have hj := @manualRetryDelivery_judged m₂.store ⟨id, supply.firstId, supply.later,
      supply.later + Retry.deliveryWindow, some auth.session.operatorUsername⟩ hl
      fun e he => (fresh.auditEvents e he).1
    exact answers_of_judged hj hrec fun _ => rfl

theorem zeroDigests_nonempty (bytes : Bytes) : digestFrom zeroDigests bytes ≠ [] := by
  unfold digestFrom
  split
  next p hp =>
    have hall : ∀ p ∈ zeroDigests, p.2 ≠ [] := by decide
    exact hall p (List.mem_of_find?_eq_some hp)
  next => simp

/-- The first upload, whose Transcription fails for good. -/
def failedUpload : List (Int × Input Unit) :=
  (0, .recover) :: (0, .upload firstUpload) ::
    Service.everySecond 8 1 (.transcribe () "t1" (.error (.terminal "bad" "no audio")))

def withCookie : List (String × Bytes) := [("cookie", asBytes ("telegraph_operator_session=" ++ zeroToken))]

theorem failed_transcription_offered : ∃ c trace m₁ page,
    Service.initial.play Service.toNotes failedUpload = some (c, trace) ∧
      recordingDetailPage (digestFrom zeroDigests) ⟨⟨4096⟩, [], []⟩ ⟨c.store, oneSession⟩ firstUpload.id
        withCookie 20 = (m₁, .ok page) ∧ page.canManualRoute = false ∧
      (handle (digestFrom zeroDigests) ⟨⟨4096⟩, [], []⟩ m₁
        ⟨.retryTranscription firstUpload.id, withCookie, some [("csrf_token", page.csrfToken)]⟩
        ⟨21, 22, "e1", "e2"⟩).2 = redirectToDetail firstUpload.id := by
  have hp : (Service.initial.play Service.toNotes failedUpload).bind (fun q =>
      (recordingDetailPage (digestFrom zeroDigests) ⟨⟨4096⟩, [], []⟩ ⟨q.1.store, oneSession⟩ firstUpload.id
        withCookie 20).2.toOption.map fun page => (page.canManualRoute, page.canRetryTranscription,
          (requireSession (digestFrom zeroDigests) (recordingDetailPage (digestFrom zeroDigests)
            ⟨⟨4096⟩, [], []⟩ ⟨q.1.store, oneSession⟩ firstUpload.id withCookie 20).1 withCookie 21).2.toOption.isSome,
          q.1.store.deliveries.rows.isEmpty && q.1.store.auditEvents.rows.isEmpty)) =
      some (false, true, true, true) := by
    decide +kernel
  obtain ⟨⟨c, trace⟩, hplay, hp⟩ := Option.bind_eq_some_iff.mp hp
  dsimp only at hp
  cases hpage : recordingDetailPage (digestFrom zeroDigests) ⟨⟨4096⟩, [], []⟩ ⟨c.store, oneSession⟩ firstUpload.id
      withCookie 20 with
  | mk m₁ o =>
    cases o with
    | error reply => simp [hpage, Except.toOption] at hp
    | ok page =>
      simp only [hpage, Except.toOption, Option.map_some, Option.some.injEq, Prod.mk.injEq, Bool.and_eq_true,
        List.isEmpty_iff] at hp
      obtain ⟨hroute, hretry, hlive, hdel, haud⟩ := hp
      refine ⟨c, trace, m₁, page, hplay, hpage, hroute, ?_⟩
      have hauth : ∃ m₂ auth, requireSession (digestFrom zeroDigests) m₁ withCookie 21 = (m₂, .ok auth) := by
        cases hs : requireSession (digestFrom zeroDigests) m₁ withCookie 21 with
        | mk m₂ o =>
          cases o with
          | error reply => simp [hs] at hlive
          | ok auth => exact ⟨m₂, auth, rfl⟩
      have hfresh : Fresh ⟨21, 22, "e1", "e2"⟩ c.store := by
        constructor
        · simp [hdel]
        · simp [haud]
      have h := (@offered_actions (digestFrom zeroDigests) ⟨⟨4096⟩, [], []⟩ ⟨c.store, oneSession⟩ m₁ 20
        firstUpload.id withCookie page ⟨21, 22, "e1", "e2"⟩ c trace Service.toNotes (Service.run_of_play hplay) rfl
        zeroDigests_inj zeroDigests_nonempty oneSession_issued hpage hauth hfresh).2.1
      unfold Answers at h
      rw [if_pos hretry] at h
      exact h.1

end Monitor
end Telegraph
