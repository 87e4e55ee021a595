import Telegraph.Login

namespace Telegraph
open Lib LoginThrottle

namespace LoginRequest
open LoginFailureTable
variable {sha256 : Bytes → Bytes} {auth : AuthService} {supply : LoginSupply} {t t' : LoginTables}
  {r r' : LoginRequest}

/-- The recorded failures a request counts. -/
def counted (t : LoginTables) (form : LoginForm) (now : Int) : Nat :=
  t.failures.countLoginFailuresSince form.username remoteIp (now - throttleWindow)

/-- What one step of a request can do, with everything it checked. -/
inductive Moves (auth : AuthService) (supply : LoginSupply) (t : LoginTables) :
    LoginRequest → LoginTables → LoginRequest → Prop where
  | reads {form : LoginForm} : Moves auth supply t (arrived form) t (counting form supply.now)
  | locks {form : LoginForm} {now : Int} (full : lockThreshold ≤ counted t form now) :
      Moves auth supply t (counting form now) t (answered locked)
  | delays {form : LoginForm} {now duration : Int} (room : counted t form now < lockThreshold) :
      Moves auth supply t (counting form now) t (sleeping form now duration)
  | allows {form : LoginForm} {now : Int} (room : counted t form now < lockThreshold) :
      Moves auth supply t (counting form now) t (verifying form now)
  | wakes {form : LoginForm} {now duration : Int} :
      Moves auth supply t (sleeping form now duration) t (verifying form now)
  | accepts {form : LoginForm} {now : Int} : Moves auth supply t (verifying form now) t (starting form now)
  | refuses {form : LoginForm} {now : Int}
      (wrong : auth.verifyCredentials form.username form.password = .ok false) :
      Moves auth supply t (verifying form now) t (recording form now)
  | fails {form : LoginForm} {now : Int} {e : AuthError}
      (broken : auth.verifyCredentials form.username form.password = .error e) :
      Moves auth supply t (verifying form now) t (answered .internalError)
  | records {form : LoginForm} {now : Int} {failures : LoginFailureTable}
      (stored : t.failures.insert ⟨supply.id, form.username, remoteIp, now⟩ = some failures) :
      Moves auth supply t (recording form now) { t with failures := failures } (answered invalid)
  | loses {form : LoginForm} {now : Int}
      (refused : t.failures.insert ⟨supply.id, form.username, remoteIp, now⟩ = none) :
      Moves auth supply t (recording form now) t (answered invalid)
  | starts {form : LoginForm} {now : Int} {t' : LoginTables} {next : LoginRequest} :
      Moves auth supply t (starting form now) t' next
  | clears {form : LoginForm} {started : StartedSession} {t' : LoginTables} {next : LoginRequest} :
      Moves auth supply t (clearing form started) t' next

theorem decision_locked {n : Nat} : decision n = .locked ↔ lockThreshold ≤ n := by
  unfold decision
  split
  next h => simp [h]
  next h => split <;> simp [h]

theorem advance_moves (h : r.advance sha256 auth supply t = some (t', r')) : Moves auth supply t r t' r' := by
  cases r with
  | arrived form =>
    cases h
    exact .reads
  | counting form now =>
    cases hd : decision (t.failures.countLoginFailuresSince form.username remoteIp
        (now - throttleWindow)) with
    | locked =>
      simp only [advance, hd] at h
      cases h
      exact .locks (decision_locked.mp hd)
    | delay duration =>
      have hroom := (not_congr decision_locked).mp (by rw [hd]; simp)
      simp only [advance, hd] at h
      cases h
      exact .delays (Nat.lt_of_not_le hroom)
    | allow =>
      have hroom := (not_congr decision_locked).mp (by rw [hd]; simp)
      simp only [advance, hd] at h
      cases h
      exact .allows (Nat.lt_of_not_le hroom)
  | sleeping form now duration =>
    cases h
    exact .wakes
  | verifying form now =>
    rcases hv : auth.verifyCredentials form.username form.password with e | (_ | _)
    · simp only [advance, hv] at h
      cases h
      exact .fails hv
    · simp only [advance, hv] at h
      cases h
      exact .refuses hv
    · simp only [advance, hv] at h
      cases h
      exact .accepts
  | recording form now =>
    cases hi : t.failures.insert ⟨supply.id, form.username, remoteIp, now⟩ with
    | some failures =>
      simp only [advance, recordLoginFailure, hi] at h
      cases h
      exact .records hi
    | none =>
      simp only [advance, recordLoginFailure, hi] at h
      cases h
      exact .loses hi
  | starting form now => exact .starts
  | clearing form started => exact .clears
  | answered reply => cases h

/-- The clock reading of an admitted request whose credentials are wrong but not yet checked. -/
def pending (auth : AuthService) : LoginRequest → Option Int
  | sleeping form now _ | verifying form now => match auth.verifyCredentials form.username form.password with
    | .ok false => some now
    | _ => none
  | _ => none

/-- The clock reading of a failure that is not yet recorded. -/
def unrecorded : LoginRequest → Option Int
  | recording _ now => some now
  | _ => none

/-- The clock reading of a verification that fails. -/
def failing : LoginRequest → LoginRequest → Option Int
  | verifying _ now, recording _ _ => some now
  | _, _ => none

/-- The request got in, or is about to. -/
def isLogin : LoginRequest → Bool
  | starting _ _ | clearing _ _ => true
  | _ => false

end LoginRequest

/-- The closed window of 15 minutes from `a`. -/
def within (a now : Int) : Bool := decide (a ≤ now ∧ now ≤ a + throttleWindow)

/-- 1 for a clock reading in the window. -/
def hits (a : Int) (reading : Option Int) : Nat := if reading.any (within a) then 1 else 0

@[simp] theorem hits_none (a : Int) : hits a none = 0 := rfl

theorem hits_outside {a now : Int} (h : within a now ≠ true) : hits a (some now) = 0 := if_neg h

namespace LoginRequest
variable {auth : AuthService} {supply : LoginSupply} {t t' : LoginTables} {r r' : LoginRequest} {a : Int}

/-- A failed verification is recorded or about to be recorded. -/
theorem Moves.recorded (h : Moves auth supply t r t' r') (hr : r.isLogin = false)
    (hs : ∀ form now, r = recording form now → ∀ f ∈ t.failures.rows, f.id ≠ supply.id) :
    hits a (failing r r') + hits a r.unrecorded + t.failures.count (fun f => within a f.failedAt) ≤
      hits a r'.unrecorded + t'.failures.count (fun f => within a f.failedAt) := by
  cases h with
  | refuses wrong => simp [failing, unrecorded]
  | @records form now failures stored =>
    rw [Table.count_insert stored, show (if within a now = true then 1 else 0) = hits a (some now) from rfl]
    simp only [failing, unrecorded, hits_none]
    omega
  | @loses form now refused =>
    obtain ⟨f, hf, hclash⟩ := Table.insert_none refused
    exact absurd (beq_iff_eq.mp hclash) (hs form now rfl f hf)
  | starts => cases hr
  | clears => cases hr
  | reads | locks | delays | allows | wakes | accepts | fails => simp [failing, unrecorded]

/-- Only a request that its count lets in adds a failure still to come. -/
theorem Moves.pending (h : Moves auth supply t r t' r') (hr : r.isLogin = false) :
    hits a (failing r r') + hits a (r'.pending auth) ≤ hits a (r.pending auth) ∨
      ∃ form now, r = counting form now ∧ counted t form now < lockThreshold ∧
        failing r r' = none ∧ (within a now = true ∨ hits a (r'.pending auth) = 0) := by
  have admitted : ∀ form now, within a now = true ∨ hits a ((verifying form now).pending auth) = 0 := by
    intro form now
    by_cases hw : within a now = true
    · exact .inl hw
    · right
      rcases hv : auth.verifyCredentials form.username form.password with e | (_ | _)
      · simp [LoginRequest.pending, hv]
      · simp [LoginRequest.pending, hv, hits_outside hw]
      · simp [LoginRequest.pending, hv]
  cases h with
  | reads | locks | accepts | fails | records | loses => exact .inl (by simp [failing, LoginRequest.pending])
  | delays room => exact .inr ⟨_, _, rfl, room, rfl, admitted _ _⟩
  | allows room => exact .inr ⟨_, _, rfl, room, rfl, admitted _ _⟩
  | wakes => exact .inl (by simp [failing]; rfl)
  | refuses wrong => exact .inl (by simp [failing, LoginRequest.pending, wrong])
  | starts => cases hr
  | clears => cases hr

end LoginRequest

namespace LoginDesk
open LoginRequest
variable {sha256 : Bytes → Bytes} {auth : AuthService} {d₀ d d' : LoginDesk}
  {turns : List (Turn LoginDesk LoginChoice)} {a : Int}

def recordedWithin (d : LoginDesk) (a : Int) : Nat := d.tables.failures.count fun f => within a f.failedAt

def pendingWithin (auth : AuthService) (d : LoginDesk) (a : Int) : Nat :=
  d.requests.countP fun r => (pending auth r).any (within a)

def unrecordedWithin (d : LoginDesk) (a : Int) : Nat :=
  d.requests.countP fun r => r.unrecorded.any (within a)

/-- The clock reading of the verification that fails in this turn. -/
def failedVerification (t : Turn LoginDesk LoginChoice) : Option Int :=
  match t.what with
  | .arrives _ => none
  | .moves i _ => do failing (← t.before.requests[i]?) (← t.after.requests[i]?)

def verificationsFailed (turns : List (Turn LoginDesk LoginChoice)) (a : Int) : Nat :=
  turns.countP fun t => (failedVerification t).any (within a)

/-- The request of this turn counts the failures, at `now`. -/
def Counts (t : Turn LoginDesk LoginChoice) (i : Nat) (form : LoginForm) (now : Int) : Prop :=
  (∃ supply, t.what = .moves i supply) ∧ t.before.requests[i]? = some (.counting form now)

/-- No request of the turn gets in. -/
def NoLogin (t : Turn LoginDesk LoginChoice) : Prop := ∀ r ∈ t.after.requests, r.isLogin = false

/-- Where the recorded failures let a request in, those not yet recorded would too. -/
def MissesNone (auth : AuthService) (t : Turn LoginDesk LoginChoice) : Prop :=
  ∀ i form now, Counts t i form now → counted t.before.tables form now < lockThreshold →
    ∀ a, within a now = true →
      t.before.recordedWithin a + t.before.pendingWithin auth a + t.before.unrecordedWithin a < lockThreshold

/-- The id of a failure to record is new. -/
def Stores (t : Turn LoginDesk LoginChoice) : Prop :=
  ∀ i supply form now, t.what = .moves i supply → t.before.requests[i]? = some (.recording form now) →
    ∀ f ∈ t.before.tables.failures.rows, f.id ≠ supply.id

/-- At most 10 verifications fail in any closed window, and after 10 a request in the window
is locked out when it counts them. -/
def Throttled (turns : List (Turn LoginDesk LoginChoice)) : Prop :=
  ∀ a, verificationsFailed turns a ≤ lockThreshold ∧
    ∀ earlier t later, turns = earlier ++ t :: later → ∀ i form now, Counts t i form now →
      within a now = true → lockThreshold ≤ verificationsFailed earlier a →
        t.after.requests[i]? = some (.answered locked)

/-- How one place of a list changes a count. -/
theorem countP_set {α : Type} {p : α → Bool} {l : List α} {i : Nat} {x y : α} (h : l[i]? = some x) :
    (l.set i y).countP p + (if p x then 1 else 0) = l.countP p + (if p y then 1 else 0) := by
  induction l generalizing i with
  | nil => cases h
  | cons z l ih =>
    cases i with
    | zero =>
      cases h
      rw [List.set_cons_zero, List.countP_cons, List.countP_cons]
      omega
    | succ i =>
      have hl := ih h
      rw [List.set_cons_succ, List.countP_cons, List.countP_cons]
      omega

/-- A step is an arrival, or one request's move. -/
theorem step_cases {c : LoginChoice} (h : d.step sha256 auth c = some d') :
    (∃ form, c = .arrives form ∧ d' = { d with requests := d.requests ++ [.arrived form] }) ∨
      ∃ i supply r r' t, c = .moves i supply ∧ d.requests[i]? = some r ∧
        Moves auth supply d.tables r t r' ∧ d' = ⟨t, d.requests.set i r'⟩ := by
  cases c with
  | arrives form => exact .inl ⟨form, rfl, (Option.some.inj h).symm⟩
  | moves i supply =>
    obtain ⟨r, hr, hrest⟩ := Option.bind_eq_some_iff.mp h
    obtain ⟨⟨t, r'⟩, hadvance, hd⟩ := Option.bind_eq_some_iff.mp hrest
    exact .inr ⟨i, supply, r, r', t, rfl, hr, advance_moves hadvance, (Option.some.inj hd).symm⟩

/-- The failed verifications in a window are recorded or about to be, and with the
admitted ones still to fail they are at most 10. -/
structure Bounded (auth : AuthService) (turns : List (Turn LoginDesk LoginChoice)) (d : LoginDesk)
    (a : Int) : Prop where
  recorded : verificationsFailed turns a ≤ d.recordedWithin a + d.unrecordedWithin a
  bound : verificationsFailed turns a + d.pendingWithin auth a ≤ lockThreshold
  out : ∀ r ∈ d.requests, r.isLogin = false

theorem verificationsFailed_append {t : Turn LoginDesk LoginChoice} :
    verificationsFailed (turns ++ [t]) a =
      verificationsFailed turns a + if (failedVerification t).any (within a) then 1 else 0 := by
  unfold verificationsFailed
  rw [List.countP_append, List.countP_singleton]

theorem Bounded.arrives {form : LoginForm} (hb : Bounded auth turns d a) :
    Bounded auth (turns ++ [⟨d, .arrives form, { d with requests := d.requests ++ [.arrived form] }⟩])
      { d with requests := d.requests ++ [.arrived form] } a := by
  obtain ⟨hrecorded, hbound, hout⟩ := hb
  have hfailed : verificationsFailed
      (turns ++ [⟨d, .arrives form, { d with requests := d.requests ++ [.arrived form] }⟩]) a =
        verificationsFailed turns a := by
    rw [verificationsFailed_append]
    rfl
  have hunrecorded : unrecordedWithin { d with requests := d.requests ++ [.arrived form] } a =
      d.unrecordedWithin a := by
    unfold unrecordedWithin
    rw [List.countP_append]
    rfl
  have hpending : pendingWithin auth { d with requests := d.requests ++ [.arrived form] } a =
      d.pendingWithin auth a := by
    unfold pendingWithin
    rw [List.countP_append]
    rfl
  refine ⟨?_, ?_, fun r hr => ?_⟩
  · rw [hfailed, hunrecorded]
    exact hrecorded
  · rw [hfailed, hpending]
    exact hbound
  · rcases List.mem_append.mp hr with hr | hr
    · exact hout r hr
    · rw [List.mem_singleton.mp hr]
      rfl

theorem Bounded.moves {i : Nat} {supply : LoginSupply} {r r' : LoginRequest} {t : LoginTables}
    (hb : Bounded auth turns d a) (hr : d.requests[i]? = some r) (hmove : Moves auth supply d.tables r t r')
    (hn : r'.isLogin = false)
    (hm : MissesNone auth ⟨d, .moves i supply, ⟨t, d.requests.set i r'⟩⟩)
    (hs : Stores ⟨d, .moves i supply, ⟨t, d.requests.set i r'⟩⟩) :
    Bounded auth (turns ++ [⟨d, .moves i supply, ⟨t, d.requests.set i r'⟩⟩]) ⟨t, d.requests.set i r'⟩ a := by
  obtain ⟨hrecorded, hbound, hout⟩ := hb
  have hlt : i < d.requests.length := (List.getElem?_eq_some_iff.mp hr).1
  have hr' : (d.requests.set i r')[i]? = some r' := by simp [hlt]
  have hfailed := @verificationsFailed_append turns a ⟨d, .moves i supply, ⟨t, d.requests.set i r'⟩⟩
  rw [show failedVerification ⟨d, .moves i supply, ⟨t, d.requests.set i r'⟩⟩ = failing r r' by
    simp [failedVerification, hr, hr']] at hfailed
  have hpending := @countP_set _ (fun r => (pending auth r).any (within a)) _ _ _ r' hr
  have hunrecorded := @countP_set _ (fun r => r.unrecorded.any (within a)) _ _ _ r' hr
  have hfree := hout r (List.mem_of_getElem? hr)
  have hout' : ∀ x ∈ d.requests.set i r', x.isLogin = false := by
    intro x hx
    rcases List.mem_or_eq_of_mem_set hx with hx | rfl
    · exact hout x hx
    · exact hn
  refine ⟨?_, ?_, hout'⟩
  · have hmoves := @Moves.recorded auth supply d.tables t r r' a hmove hfree fun form now he f hf =>
      hs i supply form now rfl (he ▸ hr) f hf
    unfold unrecordedWithin recordedWithin at *
    unfold hits at hmoves
    dsimp only at *
    omega
  · rcases @Moves.pending auth supply d.tables t r r' a hmove hfree with hmoves | ⟨form, now, rfl, hroom, hnone, hin⟩
    · unfold pendingWithin at *
      unfold hits at hmoves
      dsimp only at *
      omega
    · rw [hnone, show (if (none : Option Int).any (within a) = true then 1 else 0) = 0 from rfl] at hfailed
      rcases hin with hin | hin
      · -- it adds at most one failure to come, and there were fewer than 10
        have hmissed := hm i form now ⟨⟨supply, rfl⟩, hr⟩ hroom a hin
        dsimp only at hmissed
        unfold pendingWithin at *
        dsimp only at *
        split at hpending <;> split at hpending <;> omega
      · unfold pendingWithin at *
        unfold hits at hin
        dsimp only at *
        omega

theorem Bounded.step {c : LoginChoice} (hb : Bounded auth turns d a) (h : d.step sha256 auth c = some d')
    (hn : NoLogin ⟨d, c, d'⟩) (hm : MissesNone auth ⟨d, c, d'⟩) (hs : Stores ⟨d, c, d'⟩) :
    Bounded auth (turns ++ [⟨d, c, d'⟩]) d' a := by
  rcases step_cases h with ⟨form, rfl, rfl⟩ | ⟨i, supply, r, r', t, rfl, hr, hmove, rfl⟩
  · exact hb.arrives
  · have hlt : i < d.requests.length := (List.getElem?_eq_some_iff.mp hr).1
    exact hb.moves hr hmove (hn r' (List.mem_set hlt r')) hm hs

/-- The turns of a run without a login that misses no failure and stores each. -/
def Fair (auth : AuthService) (turns : List (Turn LoginDesk LoginChoice)) : Prop :=
  ∀ t ∈ turns, NoLogin t ∧ MissesNone auth t ∧ Stores t

theorem bounded (h : Runs sha256 auth d₀ turns d) (h₀ : d₀.requests = []) (hf : Fair auth turns) (a : Int) :
    Bounded auth turns d a := by
  induction h with
  | start =>
    refine ⟨Nat.zero_le _, ?_, ?_⟩
    · unfold pendingWithin
      rw [h₀]
      exact Nat.zero_le _
    · rw [h₀]
      intro r hr
      cases hr
  | turn c _ hstep ih =>
    obtain ⟨hn, hm, hs⟩ := hf _ (List.mem_append_right _ (List.mem_singleton_self _))
    exact (ih fun t ht => hf t (List.mem_append_left _ ht)).step hstep hn hm hs

/-- A request that counts after 10 failures in its window is locked out. -/
theorem locked_out (h : Runs sha256 auth d₀ turns d) (h₀ : d₀.requests = []) (hf : Fair auth turns)
    {earlier later : List (Turn LoginDesk LoginChoice)} {t : Turn LoginDesk LoginChoice}
    (he : turns = earlier ++ t :: later) {i : Nat} {form : LoginForm} {now : Int}
    (hc : Counts t i form now) (hw : within a now = true) (hfull : lockThreshold ≤ verificationsFailed earlier a) :
    t.after.requests[i]? = some (.answered locked) := by
  have ht : t ∈ turns := he ▸ List.mem_append_right _ (List.mem_cons_self ..)
  obtain ⟨hrecorded, -, -⟩ := bounded (h.upTo he) h₀ (fun u hu => hf u (he ▸ List.mem_append_left _ hu)) a
  have full : ¬ counted t.before.tables form now < lockThreshold := by
    intro hroom
    have hmissed := (hf t ht).2.1 i form now hc hroom a hw
    omega
  obtain ⟨⟨supply, hwhat⟩, hr⟩ := hc
  rcases step_cases (h.step_of_mem ht) with ⟨form', hwhat', -⟩ | ⟨j, _, r, r', _, hwhat', hr', hmove, hafter⟩
  · cases hwhat.symm.trans hwhat'
  · cases hwhat.symm.trans hwhat'
    cases hr.symm.trans hr'
    have hlt : i < t.before.requests.length := (List.getElem?_eq_some_iff.mp hr).1
    rw [hafter]
    cases hmove with
    | locks => simp [hlt]
    | delays room => exact absurd room full
    | allows room => exact absurd room full

end LoginDesk

/-- In a run without a login where no failure is missed and each is stored, the lock holds. -/
theorem login_throttled {sha256 : Bytes → Bytes} {auth : AuthService} {d₀ d : LoginDesk}
    {turns : List (Turn LoginDesk LoginChoice)} (h₀ : d₀.requests = []) (h : LoginDesk.Runs sha256 auth d₀ turns d)
    (noLogin : ∀ t ∈ turns, LoginDesk.NoLogin t)
    (seen : ∀ t ∈ turns, LoginDesk.MissesNone auth t ∧ LoginDesk.Stores t) : LoginDesk.Throttled turns := by
  have hf : LoginDesk.Fair auth turns := fun t ht => ⟨noLogin t ht, seen t ht⟩
  intro a
  constructor
  · have hbound := (LoginDesk.bounded h h₀ hf a).bound
    omega
  · intro earlier t later he i form now hc hw hfull
    exact LoginDesk.locked_out h h₀ hf he hc hw hfull

/-- The account `operator` with the password `secret`. -/
def operatorAccount : AuthService where
  username := "operator"
  passwordHash := .ok "secret"
  verifyPassword hash password := .ok (hash == password)

def emptyDesk : LoginDesk := ⟨⟨Table.empty, Table.empty⟩, []⟩

/-- The step of request `i` at time 0. -/
def moveAtZero (i : Nat) : LoginChoice := .moves i ⟨0, toString i, []⟩

/-- The failures on record and those still to come. -/
def LoginDesk.load (auth : AuthService) (d : LoginDesk) : Nat :=
  d.tables.failures.rows.length + d.requests.countP (fun r => (r.pending auth).isSome) +
    d.requests.countP (·.unrecorded.isSome)

/-- Where the load is below 10 whenever a request finds room, no failure is missed. -/
theorem LoginDesk.misses_none_of_load {auth : AuthService} {t : Turn LoginDesk LoginChoice}
    (h : ∀ form now, .counting form now ∈ t.before.requests →
      LoginRequest.counted t.before.tables form now < lockThreshold → t.before.load auth < lockThreshold) :
    LoginDesk.MissesNone auth t := by
  intro i form now hcounts hroom a _
  have hload := h form now (List.mem_of_getElem? hcounts.2) hroom
  have hrecorded : t.before.recordedWithin a ≤ t.before.tables.failures.rows.length :=
    List.length_filter_le ..
  have hpending : t.before.pendingWithin auth a ≤
      t.before.requests.countP fun r => (r.pending auth).isSome := by
    apply List.countP_mono_left
    intro r _ hr
    exact Option.isSome_of_any hr
  have hunrecorded : t.before.unrecordedWithin a ≤ t.before.requests.countP (·.unrecorded.isSome) := by
    apply List.countP_mono_left
    intro r _ hr
    exact Option.isSome_of_any hr
  unfold LoginDesk.load at hload
  omega

/-- The step of request `i` at a second. -/
def moveAt (second : Int) (i : Nat) : LoginChoice := .moves i ⟨Duration.seconds second, toString i, []⟩

/-- Ten requests with a wrong password, two at a time, the last four of them delayed; then
another one. -/
def inPairs : List LoginChoice :=
  List.replicate 11 (.arrives ⟨"operator", "guess"⟩) ++
    (List.range 5).flatMap (fun k : Nat =>
      (List.replicate (if k < 3 then 4 else 5) [moveAt k (2 * k), moveAt k (2 * k + 1)]).flatten) ++
    [moveAt 5 10, moveAt 5 10]

/-- Whether a turn meets what the lock needs of it. -/
def keepsLock (auth : AuthService) (t : Turn LoginDesk LoginChoice) : Bool :=
  t.after.requests.all (!·.isLogin) &&
    (t.before.requests.all fun r => match r with
      | .counting form now => decide (LoginRequest.counted t.before.tables form now < lockThreshold →
          t.before.load auth < lockThreshold)
      | _ => true) &&
    match t.what with
    | .moves _ supply => t.before.tables.failures.rows.all (·.id != supply.id)
    | _ => true

/-- Ten of the verifications fail, and the eleventh request is locked out. -/
theorem in_pairs_throttled : ∃ turns d, LoginDesk.Runs id operatorAccount emptyDesk turns d ∧
    LoginDesk.verificationsFailed turns 0 = 10 ∧
    d.requests[10]? = some (.answered LoginRequest.locked) ∧ LoginDesk.Throttled turns := by
  have hp : (History.play (LoginDesk.step id operatorAccount) emptyDesk inPairs).map (fun r =>
      (LoginDesk.verificationsFailed r.1 0, r.2.requests[10]?, r.1.all (keepsLock operatorAccount))) =
      some (10, some (.answered LoginRequest.locked), true) := by
    decide +kernel
  obtain ⟨⟨turns, d⟩, hrun, he⟩ := Option.map_eq_some_iff.mp hp
  simp only [Prod.mk.injEq] at he
  obtain ⟨hcount, hlocked, hall⟩ := he
  have h := History.of_play hrun
  have each : ∀ t ∈ turns, keepsLock operatorAccount t = true := List.all_eq_true.mp hall
  simp only [keepsLock, Bool.and_eq_true, List.all_eq_true, Bool.not_eq_true'] at each
  refine ⟨turns, d, h, hcount, hlocked, login_throttled rfl h (fun t ht => (each t ht).1.1)
    fun t ht => ⟨LoginDesk.misses_none_of_load fun form now hin => ?_, ?_⟩⟩
  · exact of_decide_eq_true ((each t ht).1.2 _ hin)
  · intro i supply form now hwhat _ f hf
    have hids := (each t ht).2
    rw [hwhat] at hids
    exact bne_iff_ne.mp (List.all_eq_true.mp hids f hf)

/-- Eleven requests that all count before any of them records. -/
def elevenAtOnce : List LoginChoice :=
  List.replicate 11 (.arrives ⟨"root", "x"⟩) ++
    (List.range 11).flatMap (fun i => [moveAtZero i, moveAtZero i]) ++
    (List.range 11).flatMap (fun i => [moveAtZero i, moveAtZero i])

theorem eleven_failures_at_once : ∃ turns d, LoginDesk.Runs id operatorAccount emptyDesk turns d ∧
    (∀ t ∈ turns, LoginDesk.NoLogin t) ∧ LoginDesk.verificationsFailed turns 0 = 11 ∧
    ¬ LoginDesk.Throttled turns := by
  have hp : (History.play (LoginDesk.step id operatorAccount) emptyDesk elevenAtOnce).map (fun r =>
      (LoginDesk.verificationsFailed r.1 0, r.1.all fun t => t.after.requests.all (!·.isLogin))) =
        some (11, true) := by
    decide +kernel
  obtain ⟨⟨turns, d⟩, hrun, he⟩ := Option.map_eq_some_iff.mp hp
  obtain ⟨hcount, hall⟩ := Prod.mk.inj he
  refine ⟨turns, d, History.of_play hrun, ?_, hcount, ?_⟩
  · intro t ht r hr
    have hb := List.all_eq_true.mp (List.all_eq_true.mp hall t ht) r hr
    simpa using hb
  · intro hthrottled
    have hten : lockThreshold = 10 := rfl
    have hle := (hthrottled 0).1
    rw [show LoginDesk.verificationsFailed turns 0 = 11 from hcount] at hle
    omega

end Telegraph
