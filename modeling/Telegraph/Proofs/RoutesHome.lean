import Telegraph.Proofs.SameDelivery
import Telegraph.Proofs.Spelling
import Telegraph.Service

namespace Telegraph
open Lib Admission RawConfig Tags Function

/-- Some match tag of the Sink and some upload tag are the same, apart from case and
surrounding whitespace. -/
def SharesTag (sink : RawSink) (rawTags : List String) : Prop :=
  ∃ m ∈ sink.matchTags, ∃ t ∈ rawTags, spelling m = spelling t

instance (sink : RawSink) (rawTags : List String) : Decidable (SharesTag sink rawTags) :=
  inferInstanceAs (Decidable (∃ m ∈ sink.matchTags, ∃ t ∈ rawTags, spelling m = spelling t))

/-- The first Sink of the config that shares a tag. -/
def FirstSharing (raw : List RawSink) (rawTags : List String) (sink : RawSink) : Prop :=
  ∃ before after, raw = before ++ sink :: after ∧ SharesTag sink rawTags ∧
    ∀ earlier ∈ before, ¬ SharesTag earlier rawTags

/-- The same Sink with its match tags written another way. -/
def RawSink.Respells (a b : RawSink) : Prop :=
  b.name = a.name ∧ b.kind = a.kind ∧ b.url = a.url ∧ b.secretEnv = a.secretEnv ∧
    Respelled a.matchTags b.matchTags

def AppConfig.route (config : AppConfig) : Recording → RoutingDecision :=
  (ConfigRouter.fromConfig config).route

section Decision
variable {raw raw' : List RawSink} {sinks sinks' : List Sink} {rawTags : List String}
  {tags tags' : Tags} {recording recording' : Recording}

/-- The raw Sink a Sink was made from. -/
def MadeFrom (r : RawSink) (sink : Sink) : Prop :=
  ∃ tags, Tags.new r.matchTags = .ok tags ∧ sink = .webhook ⟨r.name, r.url, r.secretEnv, tags⟩

theorem madeFrom_of_accepted (h : validateSinks raw = .ok sinks) :
    List.Forall₂ MadeFrom raw sinks := by
  obtain ⟨fresh, he, hall⟩ := forall₂_of_admitAll (Q := MadeFrom) (fun _ _ _ hs => by
    obtain ⟨tags, hnew, -, -, -, -, -, he⟩ := validateSink_ok.mp hs
    exact ⟨tags, hnew, he⟩) h
  rw [he]
  exact hall

theorem madeFrom_names (h : List.Forall₂ MadeFrom raw sinks) :
    sinks.map Sink.name = raw.map RawSink.name := by
  induction h with
  | nil => rfl
  | cons hm _ ih =>
    obtain ⟨tags, -, rfl⟩ := hm
    rw [List.map_cons, List.map_cons, ih]
    rfl

theorem names_distinct (h : validateSinks raw = .ok sinks) :
    sinks.Pairwise fun a b => a.name ≠ b.name := by
  refine pairwise_of_admitAll (fun _ _ _ hs other hother => ?_) List.Pairwise.nil h
  obtain ⟨tags, -, -, hname, -, -, -, rfl⟩ := validateSink_ok.mp hs
  exact hname other hother

theorem MadeFrom.matches_iff {r : RawSink} {sink : Sink} (h : MadeFrom r sink)
    (ht : Tags.new rawTags = .ok tags) :
    RoutingRule.matches ⟨sink.name, sink.matchTags⟩ tags = true ↔ SharesTag r rawTags := by
  obtain ⟨own, hown, rfl⟩ := h
  have hv := (new_ok.mp hown).1
  have hw := (new_ok.mp ht).1
  change own.intersects tags = true ↔ _
  simp only [intersects_iff, hv, hw, mem_normalize]
  constructor
  · rintro ⟨_, ⟨m, hm, rfl⟩, t, hmem, he⟩
    exact ⟨m, hm, t, hmem, he.symm⟩
  · rintro ⟨m, hm, t, hmem, he⟩
    exact ⟨spelling m, ⟨m, hm, rfl⟩, t, hmem, he.symm⟩

/-- The loop over the rules is a search for the first raw Sink that shares a tag. -/
theorem firstMatch_eq (h : List.Forall₂ MadeFrom raw sinks)
    (ht : Tags.new rawTags = .ok recording.tags) :
    ConfigRouter.firstMatch recording (sinks.map fun s => ⟨s.name, s.matchTags⟩) =
      match raw.find? fun r => decide (SharesTag r rawTags) with
      | some r => .sink r.name
      | none => .backlog := by
  induction h with
  | nil => rfl
  | @cons r sink raw sinks hm _ ih =>
    rw [List.map_cons, ConfigRouter.firstMatch]
    by_cases hs : SharesTag r rawTags
    · rw [if_pos ((hm.matches_iff ht).mpr hs), List.find?_cons_of_pos (by simpa using hs)]
      obtain ⟨tags, -, rfl⟩ := hm
      rfl
    · rw [if_neg (mt (hm.matches_iff ht).mp hs), List.find?_cons_of_neg (by simpa using hs)]
      exact ih

theorem find_sharing_some {r : RawSink} :
    raw.find? (fun r => decide (SharesTag r rawTags)) = some r ↔ FirstSharing raw rawTags r := by
  rw [List.find?_eq_some_iff_append]
  simp only [decide_eq_true_eq, Bool.not_eq_eq_eq_not, Bool.not_true, decide_eq_false_iff_not]
  constructor
  · rintro ⟨hs, before, after, he, hb⟩
    exact ⟨before, after, he, hs, hb⟩
  · rintro ⟨before, after, he, hs, hb⟩
    exact ⟨hs, before, after, he, hb⟩

theorem find_sharing_none :
    raw.find? (fun r => decide (SharesTag r rawTags)) = none ↔ ∀ r ∈ raw, ¬ SharesTag r rawTags := by
  simp

theorem Respelled.sharesTag {r q : RawSink} {other : List String} (hr : r.Respells q)
    (ht : Respelled rawTags other) : SharesTag q other ↔ SharesTag r rawTags := by
  have both : ∀ (a : RawSink) (tags : List String), SharesTag a tags ↔
      ∃ tag, tag ∈ normalize a.matchTags ∧ tag ∈ normalize tags := by
    intro a tags
    simp only [SharesTag, mem_normalize]
    constructor
    · rintro ⟨m, hm, t, hmem, he⟩
      exact ⟨_, ⟨m, hm, rfl⟩, t, hmem, he.symm⟩
    · rintro ⟨_, ⟨m, hm, rfl⟩, t, hmem, he⟩
      exact ⟨m, hm, t, hmem, he.symm⟩
  rw [both, both]
  simp only [hr.2.2.2.2.mem_normalize, ht.mem_normalize]

/-- The checks of one Sink see its tags only normalized, and earlier Sinks only by name. -/
theorem validateSink_respelled {r q : RawSink} {sink : Sink} {before before' : List Sink}
    (hr : r.Respells q) (hb : before'.map Sink.name = before.map Sink.name)
    (h : validateSink before r = .ok sink) :
    ∃ sink', validateSink before' q = .ok sink' ∧ sink'.name = sink.name := by
  obtain ⟨tags, hnew, hblank, hname, hkind, hurl, hsecret, rfl⟩ := validateSink_ok.mp h
  obtain ⟨hn, hk, hu, hs, ht⟩ := hr
  obtain ⟨tags', hnew', -⟩ := ht.new hnew
  refine ⟨_, validateSink_ok.mpr ⟨tags', hnew', ?_, ?_, ?_, ?_, ?_, rfl⟩, hn⟩
  · rwa [hn]
  · intro other hother he
    have hmem : other.name ∈ before.map Sink.name := hb ▸ List.mem_map_of_mem hother
    obtain ⟨old, hold, hsame⟩ := List.mem_map.mp hmem
    exact hname old hold (hsame.trans (he.trans hn))
  · rw [hk, hkind]
  · rw [hu, hurl]
  · rwa [hs]

theorem validateSinks_respelled (hr : List.Forall₂ RawSink.Respells raw raw')
    (h : validateSinks raw = .ok sinks) : ∃ sinks', validateSinks raw' = .ok sinks' := by
  have loop : ∀ before before' : List Sink, before'.map Sink.name = before.map Sink.name →
      admitAll validateSink raw before = .ok sinks →
      ∃ sinks', admitAll validateSink raw' before' = .ok sinks' := by
    clear h
    induction hr with
    | nil => exact fun _ _ _ _ => ⟨_, rfl⟩
    | cons hq _ ih =>
      intro before before' hb h
      obtain ⟨sink, hs, hrest⟩ := admitAll_cons h
      obtain ⟨sink', hs', hn⟩ := validateSink_respelled hq hb hs
      obtain ⟨sinks', hrest'⟩ := ih (before ++ [sink]) (before' ++ [sink'])
        (by rw [List.map_append, List.map_append, hb, List.map_singleton, List.map_singleton, hn])
        hrest
      exact ⟨sinks', by rw [admitAll, hs']; exact hrest'⟩
  exact loop [] [] rfl h

theorem find_respelled {other : List String} (hr : List.Forall₂ RawSink.Respells raw raw')
    (ht : Respelled rawTags other) :
    (raw'.find? fun r => decide (SharesTag r other)).map (·.name) =
      (raw.find? fun r => decide (SharesTag r rawTags)).map (·.name) := by
  induction hr with
  | nil => rfl
  | @cons r q raw raw' hq _ ih =>
    have hs := Respelled.sharesTag hq ht
    by_cases h : SharesTag r rawTags
    · rw [List.find?_cons_of_pos (by simpa using hs.mpr h), List.find?_cons_of_pos (by simpa using h),
        Option.map_some, Option.map_some, hq.1]
    · rw [List.find?_cons_of_neg (by simpa using mt hs.mp h), List.find?_cons_of_neg (by simpa using h),
        ih]

end Decision

section Lookup
open WebhookSinkClient
variable {raw : List RawSink} {config : AppConfig} {env : String → Option String}
  {client : WebhookSinkClient}

theorem resolveSink_ok {sink : Sink} {r : ResolvedSink} (h : resolveSink env sink = .ok r) :
    r.name = sink.name := by
  cases sink with
  | webhook webhook =>
    obtain ⟨secret, -, h⟩ := bind_ok h
    cases h
    rfl

theorem resolved_distinct {sinks : List Sink} {resolved : List ResolvedSink}
    (h : List.Forall₂ (fun s r => resolveSink env s = .ok r) sinks resolved)
    (hd : sinks.Pairwise fun a b => a.name ≠ b.name) :
    resolved.Pairwise fun a b => a.name ≠ b.name := by
  have hnames : resolved.map ResolvedSink.name = sinks.map Sink.name := by
    induction h with
    | nil => rfl
    | cons hr _ ih =>
      rw [List.map_cons, List.map_cons, resolveSink_ok hr, ih hd.of_cons]
  have hmap : (sinks.map Sink.name).Pairwise (· ≠ ·) := List.pairwise_map.mpr hd
  rw [← hnames] at hmap
  exact List.pairwise_map.mp hmap

/-- The client looks a name up among the same Sinks, and finds that Sink's own entry. -/
theorem find_own_sink (accepted : validateSinks raw = .ok config.sinks)
    (hc : fromConfig env config.sinks = .ok client) {r : RawSink} (hr : r ∈ raw) :
    ∃ secret, readSecret env r.secretEnv = .ok secret ∧
      client.find r.name = some ⟨r.name, r.url, secret⟩ := by
  obtain ⟨resolved, hres, hc⟩ := bind_ok hc
  cases hc
  have hall := forall₂_of_mapM hres
  obtain ⟨sink, hs, tags, -, rfl⟩ := exists_of_forall₂ (madeFrom_of_accepted accepted) hr
  obtain ⟨entry, hentry, he⟩ := exists_of_forall₂ hall hs
  obtain ⟨secret, hsecret, he⟩ := bind_ok he
  cases he
  exact ⟨secret, hsecret, find?_own (resolved_distinct hall (names_distinct accepted)) hentry⟩

theorem offers_iff (accepted : validateSinks raw = .ok config.sinks) {name : String} :
    config.offers name = true ↔ ∃ r ∈ raw, r.name = name := by
  have hmem : config.offers name = true ↔ name ∈ config.sinks.map Sink.name := by
    simp [AppConfig.offers]
  rw [hmem, madeFrom_names (madeFrom_of_accepted accepted), List.mem_map]

theorem toString_code_ne (n : Nat) : "webhook_http_" ++ toString n ≠ "unknown_sink" := by
  intro h
  have hl := congrArg String.toList h
  simp [String.toList_append] at hl

/-- A Sink that is found is called, and no answer of its is an unknown Sink. -/
theorem deliver_known {lib : WebhookLibraries}
    {transport : WebhookHttpRequest → Except String WebhookResponse} {r : DeliveryRequest}
    {sink : ResolvedSink} (h : client.find r.delivery.sinkName = some sink) (message : String) :
    deliver lib client transport r ≠ .error (.terminal "unknown_sink" message) := by
  intro hd
  unfold deliver prepare at hd
  rw [h] at hd
  dsimp only at hd
  cases hb : lib.toVec (Payload.build r.recording r.delivery r.transcript) with
  | error e => simp [hb, bind, Except.bind] at hd
  | ok body =>
    simp only [hb, bind, Except.bind] at hd
    split at hd
    · next response _ =>
      unfold mapResponse at hd
      dsimp only at hd
      split at hd
      · cases hd
      · split at hd
        · cases hd
        · simp only [Except.error.injEq, WorkerFailure.terminal.injEq] at hd
          exact toString_code_ne _ hd.1
    · cases hd

end Lookup

theorem firstMatch_name {recording : Recording} {rules : List RoutingRule} {name : String}
    (h : ConfigRouter.firstMatch recording rules = .sink name) : ∃ rule ∈ rules, rule.sinkName = name := by
  induction rules with
  | nil => cases h
  | cons rule rules ih =>
    unfold ConfigRouter.firstMatch at h
    split at h
    · cases h
      exact ⟨rule, List.mem_cons_self, rfl⟩
    · obtain ⟨rule', hr, hn⟩ := ih h
      exact ⟨rule', List.mem_cons_of_mem _ hr, hn⟩

/-- A Sink the router decides for is one the manual-route form may name too. -/
theorem AppConfig.offers_route {config : AppConfig} {recording : Recording} {name : String}
    (h : config.route recording = .sink name) : config.offers name = true := by
  obtain ⟨rule, hr, rfl⟩ := firstMatch_name h
  obtain ⟨sink, hs, rfl⟩ := List.mem_map.mp hr
  simp only [offers, List.any_eq_true, beq_iff_eq]
  exact ⟨sink, hs, rfl⟩

/-- A tick that is about to select a Sink selects one that `P` allows. -/
def Routing.Pc.Chose (P : String → Prop) : Routing.Pc → Prop
  | .selecting _ _ name => P name
  | _ => True

section Ticks
open Program SqliteStore Store
variable {P : String → Prop} {s : Store}

theorem Routing.action_within {route : Recording → RoutingDecision}
    (hroute : ∀ recording name, route recording = .sink name → P name) {supply : Supply Unit}
    {pc : Routing.Pc} (h : pc.Chose P) :
    (Routing.action route supply pc).Within (Grows P) s (Routing.Pc.Chose P) := by
  cases pc with
  | ready last => trivial
  | began now =>
    apply Action.within_transact
    exact within_of_always always_query fun oldest _ => by cases oldest <;> trivial
  | confirming now x =>
    apply Action.within_transact
    exact within_of_always requireRecording_grows fun _ _ => trivial
  | deciding now recording =>
    unfold action
    dsimp only
    split
    · trivial
    · next name hd => exact hroute recording name hd
  | backlogging now x =>
    refine ⟨within_of_always updateRecordingStatusTx_grows fun _ _ => trivial, fun e next he => ?_⟩
    dsimp only at he
    split at he
    · cases he
      trivial
    · cases he
  | selecting now x name =>
    apply Action.within_transact
    exact within_of_always (routeToSinkTx_grows h) fun claimed _ => by cases claimed <;> trivial
  | confirmingBacklog x =>
    apply Action.within_transact
    exact within_of_always requireRecording_grows fun _ _ => trivial
  | confirmingDelivery x =>
    apply Action.within_transact
    exact within_of_always requireDelivery_grows fun _ _ => trivial

theorem Transcription.action_within {supply : Supply (Except WorkerFailure TranscriptionOutput)}
    {pc : Transcription.Pc} :
    (Transcription.action supply pc).Within (Grows P) s fun _ => True := by
  cases pc with
  | ready last => trivial
  | began t =>
    apply Action.within_transact
    exact within_of_always claimReceivedTx_grows fun claimed _ => by cases claimed <;> trivial
  | confirming t x =>
    apply Action.within_transact
    exact within_of_always requireRecording_grows fun _ _ => trivial
  | unclaimed t =>
    apply Action.within_transact
    exact within_of_always always_query fun _ _ => trivial
  | loading t rows candidates =>
    cases rows with
    | nil =>
      unfold action
      dsimp only
      split <;> trivial
    | cons row rows =>
      apply Action.within_transact
      exact within_of_always requireRecording_grows fun _ _ => trivial
  | claimed t recording seen =>
    apply Action.within_transact
    exact within_of_always startTranscriptionAttempt_grows fun start _ => by cases start <;> trivial
  | started recording a start => trivial
  | calling recording a start => trivial
  | answered recording a start t result =>
    apply Action.within_transact
    cases result with
    | ok output => exact within_of_always succeedTranscriptionTx_grows fun _ _ => trivial
    | error failure =>
      cases failure with
      | terminal code message => exact within_of_always failTranscriptionTx_grows fun _ _ => trivial
      | retryable code message =>
        unfold record
        dsimp only
        split
        · exact within_of_always failTranscriptionTx_grows fun _ _ => trivial
        · exact within_of_always retryTranscription_grows fun _ _ => trivial
  | confirmingTranscript x =>
    apply Action.within_transact
    exact within_of_always requireTranscript_grows fun _ _ => trivial
  | confirmingFailure x =>
    apply Action.within_transact
    exact within_of_always requireRecording_grows fun _ _ => trivial

end Ticks

/-- A manual-route request that the handler's Sink check let through; no other
request names a Sink. -/
def Input.Offered {ι : Type} (config : AppConfig) : Input ι → Prop
  | .manualRoute input => config.offers input.sinkName = true
  | _ => True

namespace Service
open Program SqliteStore Store
variable {ι : Type} [DecidableEq ι] {P : String → Prop} {c : Service ι}

/-- Every Delivery, selected or about to be, is for a Sink that `P` allows. -/
structure Homed (P : String → Prop) (c : Service ι) : Prop where
  targets : ∀ t ∈ c.store.targets, P t.sinkName
  routers : ∀ i, (c.routers i).Chose P
  deliverers : ∀ i, (c.deliverers i).Backed c.store

omit [DecidableEq ι] in
theorem initial_homed : (initial : Service ι).Homed P :=
  ⟨fun _ ht => absurd ht List.not_mem_nil, fun _ => trivial, fun _ => trivial⟩

omit [DecidableEq ι] in
theorem Homed.grown (h : c.Homed P) {s : Store} (hg : c.store.Grows P s) :
    ({ c with store := s } : Service ι).Homed P := by
  obtain ⟨fresh, he, hp⟩ := hg.targets
  refine ⟨fun t ht => ?_, h.routers, fun i => (h.deliverers i).grows hg⟩
  rw [he] at ht
  exact (List.mem_append.mp ht).elim (h.targets t) (hp t)

omit [DecidableEq ι] in
theorem Homed.stopped (h : c.Homed P) : c.stopped.Homed P :=
  ⟨h.targets, fun _ => trivial, fun _ => trivial⟩

omit [DecidableEq ι] in
/-- A worker's step, once its place in the process is known to be kept. -/
theorem Homed.settle {κ : Type} {place : Service ι → κ → Service ι} {a : Action κ}
    {post : κ → Prop} (h : c.Homed P) (hw : a.Within (Grows P) c.store post)
    (hp : ∀ s next, c.store.Grows P s → ({ c with store := s } : Service ι).Homed P → post next →
      (place { c with store := s } next).Homed P) :
    (c.settle place (a.run c.store)).1.Homed P := by
  obtain ⟨hg, hnext⟩ := hw.run grows_refl Grows.trans
  unfold Service.settle
  cases hr : a.run c.store with
  | mk s o =>
    rw [hr] at hg hnext
    cases o with
    | error e => exact (h.grown hg).stopped
    | ok r => exact hp s r.1 hg (h.grown hg) (hnext r.1 r.2 rfl)

omit [DecidableEq ι] in
theorem Homed.answer {α : Type} {events : α → List Event} {q : Query α} (h : c.Homed P)
    (hq : q.Always (Grows P)) : (c.answer events (q.run c.store)).1.Homed P := by
  have hg := hq.run grows_refl Grows.trans c.store
  unfold Service.answer
  cases hr : q.run c.store with
  | mk s o =>
    rw [hr] at hg
    cases o with
    | error e => exact h.grown hg
    | ok a => exact h.grown hg

/-- One input keeps it, as long as a manual route names an offered Sink. -/
theorem Homed.apply {route : Recording → RoutingDecision} (h : c.Homed P)
    (hroute : ∀ recording name, route recording = .sink name → P name) {now : Int}
    {input : Input ι} (hi : ∀ m, input = .manualRoute m → P m.sinkName) :
    (c.apply route now input).1.Homed P := by
  cases input with
  | transcribe i id reply =>
    exact h.settle Transcription.action_within fun s next _ hs _ =>
      ⟨hs.targets, hs.routers, hs.deliverers⟩
  | route i id =>
    refine h.settle (Routing.action_within hroute (h.routers i)) fun s next _ hs hn => ?_
    refine ⟨hs.targets, fun j => ?_, hs.deliverers⟩
    by_cases hj : j = i
    · subst j
      simpa [onRouter] using hn
    · simpa [onRouter, hj] using hs.routers j
  | deliver i id reply =>
    refine h.settle (Delivering.action_within (h.deliverers i)) fun s next hg hs hn => ?_
    refine ⟨hs.targets, hs.routers, fun j => ?_⟩
    by_cases hj : j = i
    · subst j
      simpa [onDeliverer] using hn.grows hg
    · simpa [onDeliverer, hj] using hs.deliverers j
  | upload new => exact h.answer insertRecording_grows
  | manualRoute m => exact h.answer (manualRoute_grows (hi m rfl))
  | manualRetryTranscription m => exact h.answer manualRetryTranscription_grows
  | manualRetryDelivery m => exact h.answer manualRetryDelivery_grows
  | refuse | crash => exact h.stopped
  | recover =>
    have hq : (recoverAbandonedAttempts now).Always (Grows P) := recoverAbandonedAttempts_grows
    have hs := h.grown (hq.run grows_refl Grows.trans c.store)
    exact ⟨hs.targets, hs.routers, hs.deliverers⟩

/-- Every Delivery of a run under this config is for one of its Sinks. -/
theorem Runs.homed {config : AppConfig} {trace : List Event}
    (hr : Runs config.route (fun _ input => input.Offered config) initial trace c) :
    c.Homed fun name => config.offers name = true := by
  induction hr with
  | start => exact initial_homed
  | @step trace events c c' now input _ hi hs ih =>
    unfold Service.step at hs
    split at hs
    · have he := Option.some.inj hs
      have hclock : ({ c with clock := now } : Service ι).Homed fun name => config.offers name = true :=
        ⟨ih.targets, ih.routers, ih.deliverers⟩
      have hroute : ∀ recording name, config.route recording = .sink name →
          config.offers name = true := fun _ _ => AppConfig.offers_route
      have hoffered : ∀ m, input = .manualRoute m → config.offers m.sinkName = true := by
        rintro m rfl
        exact hi
      have happ : (apply config.route { c with clock := now } now input).1.Homed
          fun name => config.offers name = true := hclock.apply hroute hoffered
      rwa [he] at happ
    · cases hs

end Service

/-- From the raw config and the raw tags of an upload to the Sink that is called. -/
structure RoutesHome (raw : List RawSink) (config : AppConfig) : Prop where
  first : ∀ rawTags (recording : Recording), Tags.new rawTags = .ok recording.tags → ∀ name,
    config.route recording = .sink name ↔ ∃ sink, FirstSharing raw rawTags sink ∧ sink.name = name
  backlog : ∀ rawTags (recording : Recording), Tags.new rawTags = .ok recording.tags →
    (config.route recording = .backlog ↔ ∀ sink ∈ raw, ¬ SharesTag sink rawTags)
  respelled : ∀ rawTags (recording : Recording), Tags.new rawTags = .ok recording.tags →
    ∀ raw' rawTags', List.Forall₂ RawSink.Respells raw raw' → Respelled rawTags rawTags' →
      ∃ sinks' tags', validateSinks raw' = .ok sinks' ∧ Tags.new rawTags' = .ok tags' ∧
        ({ config with sinks := sinks' } : AppConfig).route { recording with tags := tags' } =
          config.route recording
  finds : ∀ env client, WebhookSinkClient.fromConfig env config.sinks = .ok client →
    ∀ sink ∈ raw, ∃ secret, WebhookSinkClient.readSecret env sink.secretEnv = .ok secret ∧
      client.find sink.name = some ⟨sink.name, sink.url, secret⟩
  known : ∀ env client, WebhookSinkClient.fromConfig env config.sinks = .ok client →
    ∀ (ι : Type) [DecidableEq ι] trace (c : Service ι),
      Service.Runs config.route (fun _ input => input.Offered config) Service.initial trace c →
      ∀ i candidate attemptId, c.deliverers i = .calling candidate attemptId →
      ∀ lib transport message,
        WebhookSinkClient.deliver lib client transport (Delivering.request candidate) ≠
          .error (.terminal "unknown_sink" message)

theorem routes_home (raw : List RawSink) (config : AppConfig)
    (accepted : validateSinks raw = .ok config.sinks) : RoutesHome raw config := by
  have hmade := madeFrom_of_accepted accepted
  have hroute : ∀ rawTags (recording : Recording), Tags.new rawTags = .ok recording.tags →
      config.route recording =
        match raw.find? fun r => decide (SharesTag r rawTags) with
        | some r => .sink r.name
        | none => .backlog := fun rawTags recording ht => firstMatch_eq hmade ht
  constructor
  case first =>
    intro rawTags recording ht name
    rw [hroute rawTags recording ht]
    simp only [← find_sharing_some]
    cases hf : raw.find? fun r => decide (SharesTag r rawTags) with
    | none => simp
    | some r => simp
  case backlog =>
    intro rawTags recording ht
    rw [hroute rawTags recording ht, ← find_sharing_none]
    cases hf : raw.find? fun r => decide (SharesTag r rawTags) with
    | none => simp
    | some r => simp
  case respelled =>
    intro rawTags recording ht raw' rawTags' hr hrt
    obtain ⟨sinks', hs'⟩ := validateSinks_respelled hr accepted
    obtain ⟨tags', ht', -⟩ := hrt.new ht
    refine ⟨sinks', tags', hs', ht', ?_⟩
    have hnew : ({ config with sinks := sinks' } : AppConfig).route { recording with tags := tags' } =
        match raw'.find? fun r => decide (SharesTag r rawTags') with
        | some r => .sink r.name
        | none => .backlog := firstMatch_eq (madeFrom_of_accepted hs') ht'
    rw [hroute rawTags recording ht, hnew]
    have hfind := find_respelled hr hrt
    cases hf : raw.find? fun r => decide (SharesTag r rawTags) with
    | none =>
      rw [hf, Option.map_none, Option.map_eq_none_iff] at hfind
      rw [hfind]
    | some r =>
      rw [hf, Option.map_some, Option.map_eq_some_iff] at hfind
      obtain ⟨q, hq, hn⟩ := hfind
      rw [hq]
      exact congrArg RoutingDecision.sink hn
  case finds => exact fun env client hc sink hs => find_own_sink accepted hc hs
  case known =>
    intro env client hc ι _ trace c hr i candidate attemptId hpc lib transport message
    have hb := hr.homed.deliverers i
    rw [hpc] at hb
    have hoffered := hr.homed.targets _ hb.delivery
    obtain ⟨sink, hs, hn⟩ := (offers_iff accepted).mp hoffered
    obtain ⟨secret, -, hfind⟩ := find_own_sink accepted hc hs
    rw [hn] at hfind
    exact deliver_known hfind message

/-- Two Sinks that share a tag: the first of the config is the one chosen. -/
def sampleSinks : List RawSink :=
  [⟨"notes", "webhook", "https://notes.example/hook", "NOTES_SECRET", [" Work", "ideas"]⟩,
    ⟨"archive", "webhook", "http://archive.example/in", "ARCHIVE_SECRET", ["work", "home"]⟩]

theorem sample_routes_home : RoutesHome sampleSinks
    ⟨⟨4096⟩, [], [.webhook ⟨"notes", "https://notes.example/hook", "NOTES_SECRET", ⟨["work", "ideas"]⟩⟩,
      .webhook ⟨"archive", "http://archive.example/in", "ARCHIVE_SECRET", ⟨["work", "home"]⟩⟩]⟩ :=
  routes_home _ _ (by decide +kernel)

end Telegraph
