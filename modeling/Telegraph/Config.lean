import Telegraph.Lib.Admission
import Telegraph.Tags

namespace Telegraph
open Lib

structure DataConfig where
  maxUploadBytes : Nat

structure ClientConfig where
  name : String
  certificateFingerprint : String
deriving DecidableEq, Repr

structure WebhookSink where
  name : String
  url : String
  secretEnv : String
  matchTags : Tags
deriving DecidableEq, Repr

inductive Sink where
  | webhook (sink : WebhookSink)
deriving DecidableEq, Repr

namespace Sink

def name : Sink → String
  | .webhook sink => sink.name

def matchTags : Sink → Tags
  | .webhook sink => sink.matchTags

end Sink

structure AppConfig where
  data : DataConfig
  clients : List ClientConfig
  sinks : List Sink

structure RoutingRule where
  sinkName : String
  matchTags : Tags
deriving DecidableEq, Repr

def RoutingRule.matches (rule : RoutingRule) (recordingTags : Tags) : Bool :=
  rule.matchTags.intersects recordingTags

namespace AppConfig

def clientByFingerprint (config : AppConfig) (fingerprint : String) : Option ClientConfig :=
  config.clients.find? (·.certificateFingerprint == fingerprint)

/-- The check the `manual_route` handler makes of its form's Sink. -/
def offers (config : AppConfig) (name : String) : Bool := config.sinks.any (·.name == name)

def routingRules (config : AppConfig) : List RoutingRule :=
  config.sinks.map fun sink => ⟨sink.name, sink.matchTags⟩

end AppConfig

inductive ConfigError where
  | empty (field : String)
  | duplicateClientName (name : String)
  | duplicateClientFingerprint (fingerprint : String)
  | duplicateSinkName (name : String)
  | unsupportedSinkType (sink kind : String)
  | invalidSinkUrl (sink url : String)
  | invalidMatchTags (sink : String) (source : TagError)
deriving DecidableEq, Repr

structure RawClient where
  name : String
  certificateFingerprint : String

structure RawSink where
  name : String
  kind : String
  url : String
  secretEnv : String
  matchTags : List String

namespace RawConfig

def requireNonEmpty (value field : String) : Except ConfigError String :=
  if (trim value).isEmpty then .error (.empty field) else .ok value

/-- One pass of the loop of `validate_clients`. -/
def validateClient (clients : List ClientConfig) (client : RawClient) :
    Except ConfigError ClientConfig := do
  let name ← requireNonEmpty client.name "client name"
  let fingerprint ← requireNonEmpty client.certificateFingerprint "client certificate_fingerprint"
  if clients.any (·.name == name) then .error (.duplicateClientName name)
  else if clients.any (·.certificateFingerprint == fingerprint) then
    .error (.duplicateClientFingerprint fingerprint)
  else .ok ⟨name, fingerprint⟩

def validateClients (raw : List RawClient) : Except ConfigError (List ClientConfig) :=
  admitAll validateClient raw []

/-- `url.starts_with(scheme) && url.len() > scheme.len()` -/
def hasScheme (url scheme : String) : Bool :=
  scheme.toList.isPrefixOf url.toList && decide (scheme.utf8ByteSize < url.utf8ByteSize)

def isHttpUrl (url : String) : Bool := hasScheme url "http://" || hasScheme url "https://"

/-- One pass of the loop of `validate_sinks`. -/
def validateSink (sinks : List Sink) (sink : RawSink) : Except ConfigError Sink := do
  let name ← requireNonEmpty sink.name "sink name"
  if sinks.any (·.name == name) then .error (.duplicateSinkName name)
  else if sink.kind != "webhook" then .error (.unsupportedSinkType name sink.kind)
  else if !isHttpUrl sink.url then .error (.invalidSinkUrl name sink.url)
  else
    let secretEnv ← requireNonEmpty sink.secretEnv "sink secret_env"
    let matchTags ← (Tags.new sink.matchTags).mapError (.invalidMatchTags name)
    .ok (.webhook ⟨name, sink.url, secretEnv, matchTags⟩)

def validateSinks (raw : List RawSink) : Except ConfigError (List Sink) :=
  admitAll validateSink raw []

section Checks
open Admission
variable {clients : List ClientConfig} {client : RawClient} {c : ClientConfig}
  {sinks : List Sink} {raw : RawSink} {sink : Sink} {value field v : String}

theorem requireNonEmpty_ok : requireNonEmpty value field = .ok v ↔ v = value ∧ trim value ≠ "" := by
  unfold requireNonEmpty
  split
  · next h => simp [String.isEmpty_iff.mp h]
  · next h =>
    constructor
    · intro he
      cases he
      exact ⟨rfl, fun hb => h (String.isEmpty_iff.mpr hb)⟩
    · rintro ⟨rfl, -⟩
      rfl

/-- An accepted Client is its raw text, and new in both of its fields. -/
theorem validateClient_ok (h : validateClient clients client = .ok c) :
    c = ⟨client.name, client.certificateFingerprint⟩ ∧
    trim client.certificateFingerprint ≠ "" ∧
    ∀ d ∈ clients, d.name ≠ c.name ∧ d.certificateFingerprint ≠ c.certificateFingerprint := by
  obtain ⟨name, hn, h⟩ := bind_ok h
  obtain ⟨fingerprint, hf, h⟩ := bind_ok h
  obtain ⟨rfl, -⟩ := requireNonEmpty_ok.mp hn
  obtain ⟨rfl, hblank⟩ := requireNonEmpty_ok.mp hf
  split at h
  · cases h
  · next hname =>
    split at h
    · cases h
    · next hprint =>
      cases h
      simp only [List.any_eq_true, not_exists, not_and, beq_iff_eq] at hname hprint
      exact ⟨rfl, hblank, fun d hd => ⟨hname d hd, hprint d hd⟩⟩

/-- An accepted Sink is its raw text with the tags normalized, under a new name. -/
theorem validateSink_ok : validateSink sinks raw = .ok sink ↔
    ∃ tags, Tags.new raw.matchTags = .ok tags ∧ trim raw.name ≠ "" ∧
      (∀ other ∈ sinks, other.name ≠ raw.name) ∧ raw.kind = "webhook" ∧
      isHttpUrl raw.url = true ∧ trim raw.secretEnv ≠ "" ∧
      sink = .webhook ⟨raw.name, raw.url, raw.secretEnv, tags⟩ := by
  constructor
  · intro h
    obtain ⟨name, hn, h⟩ := bind_ok h
    obtain ⟨rfl, hblank⟩ := requireNonEmpty_ok.mp hn
    split at h
    · cases h
    next hname =>
    split at h
    · cases h
    next hkind =>
    split at h
    · cases h
    next hurl =>
    obtain ⟨secretEnv, hs, h⟩ := bind_ok h
    obtain ⟨rfl, hsecret⟩ := requireNonEmpty_ok.mp hs
    obtain ⟨tags, ht, h⟩ := bind_ok h
    cases h
    simp only [List.any_eq_true, not_exists, not_and, beq_iff_eq] at hname
    cases hnew : Tags.new raw.matchTags with
    | error e => simp [hnew, Except.mapError] at ht
    | ok t =>
      rw [hnew] at ht
      cases ht
      exact ⟨tags, rfl, hblank, hname, by simpa using hkind, by simpa using hurl, hsecret, rfl⟩
  · rintro ⟨tags, hnew, hblank, hname, hkind, hurl, hsecret, rfl⟩
    have hn : requireNonEmpty raw.name "sink name" = .ok raw.name :=
      requireNonEmpty_ok.mpr ⟨rfl, hblank⟩
    have hs : requireNonEmpty raw.secretEnv "sink secret_env" = .ok raw.secretEnv :=
      requireNonEmpty_ok.mpr ⟨rfl, hsecret⟩
    have hfresh : sinks.any (fun s => s.name == raw.name) = false := by
      simpa using hname
    unfold validateSink
    simp [hn, hs, hnew, hfresh, hkind, hurl, Except.mapError, bind, Except.bind]

end Checks
end RawConfig
end Telegraph
