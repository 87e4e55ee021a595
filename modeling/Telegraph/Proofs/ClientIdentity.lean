import Telegraph.Api
import Telegraph.Proofs.Spelling

namespace Telegraph
open Lib Api RawConfig Admission

/-- The Client an upload with these headers is attributed to. -/
def clientOf (config : AppConfig) (headers : List (String × Bytes)) : Option ClientConfig :=
  (trimmedHeader headers fingerprintHeader).bind config.clientByFingerprint

/-- The first fingerprint header has these bytes. -/
def Carries (headers : List (String × Bytes)) (value : Bytes) : Prop :=
  ∃ name, headers.find? (·.1 == fingerprintHeader) = some (name, value)

/-- Every configured Client is reachable under its own fingerprint, no two of them
share a name or a fingerprint, and nobody else is let in. -/
structure IdentifiesClients (config : AppConfig) : Prop where
  reaches : ∀ c ∈ config.clients, ∀ headers, Carries headers (utf8 c.certificateFingerprint) →
    clientOf config headers = some c
  distinct : config.clients.Pairwise fun c d =>
    c.name ≠ d.name ∧ c.certificateFingerprint ≠ d.certificateFingerprint
  rejects : ∀ headers,
    (∀ value text, Carries headers value → headerText value = some text →
      ∀ c ∈ config.clients, trim text ≠ c.certificateFingerprint) →
    identify config headers = .error .missingFingerprint ∨
      identify config headers = .error .unknownClient

section Headers
variable {headers : List (String × Bytes)} {value : Bytes} {s : String}

theorem headerText_visible (h : Visible s) : headerText (utf8 s) = some s := by
  rw [utf8_visible h, headerText, if_pos]
  · rw [List.map_map, List.map_congr_left (g := id), List.map_id, String.ofList_toList]
    intro c hc
    have hn : c.toNat.toUInt8.toNat = c.toNat := by
      have := (h c hc).2
      simp only [Nat.toUInt8_eq, UInt8.toNat_ofNat']
      omega
    rw [Function.comp_apply, hn, Char.ofNat_toNat]
    rfl
  · rw [List.all_map, List.all_eq_true]
    intro c hc
    have := h c hc
    have hlow : (32 : UInt8) ≤ c.toNat.toUInt8 := by
      rw [UInt8.le_iff_toNat_le]
      simp only [Nat.toUInt8_eq, UInt8.toNat_ofNat', UInt8.reduceToNat]
      omega
    have hhigh : c.toNat.toUInt8 < (127 : UInt8) := by
      rw [UInt8.lt_iff_toNat_lt]
      simp only [Nat.toUInt8_eq, UInt8.toNat_ofNat', UInt8.reduceToNat]
      omega
    simp [hlow, hhigh]

theorem trimmedHeader_carried (hc : Carries headers (utf8 s)) (h : Visible s)
    (hn : trim s ≠ "") : trimmedHeader headers fingerprintHeader = some (trim s) := by
  obtain ⟨name, hf⟩ := hc
  simp [trimmedHeader, hf, headerText_visible h, hn]

theorem trimmedHeader_some (h : trimmedHeader headers fingerprintHeader = some s) :
    ∃ value text, Carries headers value ∧ headerText value = some text ∧ s = trim text := by
  unfold trimmedHeader at h
  cases hf : headers.find? (·.1 == fingerprintHeader) with
  | none => simp [hf] at h
  | some entry =>
    cases ht : headerText entry.2 with
    | none => simp [hf, ht] at h
    | some text =>
      simp only [hf, ht, Option.bind_eq_bind, Option.bind_some, Option.ite_none_left_eq_some,
        Option.some.injEq] at h
      exact ⟨entry.2, text, ⟨entry.1, hf⟩, ht, h.2.symm⟩

end Headers

section Accepted
variable {raw : List RawClient} {config : AppConfig}
  (accepted : validateClients raw = .ok config.clients)
include accepted

theorem accepted_as_written : config.clients = raw.map fun r => ⟨r.name, r.certificateFingerprint⟩ := by
  obtain ⟨fresh, he, hall⟩ := forall₂_of_admitAll (Q := fun r c => c = ⟨r.name, r.certificateFingerprint⟩)
    (fun _ _ _ h => (validateClient_ok h).1) accepted
  rw [he, List.nil_append]
  clear he accepted
  induction hall with
  | nil => rfl
  | cons h _ ih => rw [h, ih, List.map_cons]

theorem accepted_not_blank : ∀ c ∈ config.clients, trim c.certificateFingerprint ≠ "" := by
  obtain ⟨fresh, he, hall⟩ := forall₂_of_admitAll
    (Q := fun _ (c : ClientConfig) => trim c.certificateFingerprint ≠ "")
    (fun _ _ _ h => by rw [(validateClient_ok h).1]; exact (validateClient_ok h).2.1) accepted
  rw [he, List.nil_append]
  clear he accepted
  induction hall with
  | nil => simp
  | cons h _ ih => exact List.forall_mem_cons.mpr ⟨h, ih⟩

theorem accepted_distinct : config.clients.Pairwise fun c d =>
    c.name ≠ d.name ∧ c.certificateFingerprint ≠ d.certificateFingerprint :=
  pairwise_of_admitAll (fun _ _ _ h => (validateClient_ok h).2.2) List.Pairwise.nil accepted

/-- Fingerprints are unique, so the lookup of one finds its own Client. -/
theorem lookup_own {c : ClientConfig} (hc : c ∈ config.clients) :
    config.clientByFingerprint c.certificateFingerprint = some c :=
  find?_own ((accepted_distinct accepted).imp And.right) hc

end Accepted

theorem lookup_some {config : AppConfig} {fingerprint : String} {c : ClientConfig}
    (h : config.clientByFingerprint fingerprint = some c) :
    c ∈ config.clients ∧ c.certificateFingerprint = fingerprint :=
  ⟨List.mem_of_find?_eq_some h, by simpa using List.find?_some h⟩

/-- Whatever header is let in is, trimmed, a configured fingerprint. -/
theorem rejects_strangers (config : AppConfig) (headers : List (String × Bytes))
    (h : ∀ value text, Carries headers value → headerText value = some text →
      ∀ c ∈ config.clients, trim text ≠ c.certificateFingerprint) :
    identify config headers = .error .missingFingerprint ∨
      identify config headers = .error .unknownClient := by
  unfold identify
  cases hf : trimmedHeader headers fingerprintHeader with
  | none => exact .inl rfl
  | some fingerprint =>
    obtain ⟨value, text, hc, ht, rfl⟩ := trimmedHeader_some hf
    cases hl : config.clientByFingerprint (trim text) with
    | none => exact .inr (by simp [hl])
    | some c =>
      obtain ⟨hmem, he⟩ := lookup_some hl
      exact (h value text hc ht c hmem he.symm).elim

/-- The lookup is made with the trimmed header, so a Client configured with blanks
around its fingerprint is never found. -/
theorem clients_identified_iff (raw : List RawClient) (config : AppConfig)
    (visible : ∀ r ∈ raw, Visible r.certificateFingerprint)
    (accepted : validateClients raw = .ok config.clients) :
    IdentifiesClients config ↔
      ∀ r ∈ raw, trim r.certificateFingerprint = r.certificateFingerprint := by
  have hvisible : ∀ c ∈ config.clients, Visible c.certificateFingerprint := by
    intro c hc
    rw [accepted_as_written accepted] at hc
    obtain ⟨r, hr, rfl⟩ := List.mem_map.mp hc
    exact visible r hr
  have hattributed : ∀ c ∈ config.clients, ∀ headers,
      Carries headers (utf8 c.certificateFingerprint) →
      clientOf config headers = config.clientByFingerprint (trim c.certificateFingerprint) := by
    intro c hc headers hcar
    rw [clientOf, trimmedHeader_carried hcar (hvisible c hc) (accepted_not_blank accepted c hc)]
    rfl
  constructor
  · intro hid r hr
    have hc : ⟨r.name, r.certificateFingerprint⟩ ∈ config.clients := by
      rw [accepted_as_written accepted]
      exact List.mem_map_of_mem hr
    have hcar : Carries [(fingerprintHeader, utf8 r.certificateFingerprint)]
        (utf8 r.certificateFingerprint) := ⟨fingerprintHeader, List.find?_cons_of_pos (by simp)⟩
    have hreach := hid.reaches _ hc _ hcar
    rw [hattributed _ hc _ hcar] at hreach
    exact (lookup_some hreach).2.symm
  · intro htrim
    refine ⟨?_, accepted_distinct accepted, rejects_strangers config⟩
    intro c hc headers hcar
    have hbare : trim c.certificateFingerprint = c.certificateFingerprint := by
      have hc' := hc
      rw [accepted_as_written accepted] at hc'
      obtain ⟨r, hr, rfl⟩ := List.mem_map.mp hc'
      exact htrim r hr
    rw [hattributed c hc headers hcar, hbare, lookup_own accepted hc]

def phoneAndWatch : AppConfig := ⟨⟨4096⟩, [⟨"phone", "sha256:aa"⟩, ⟨"watch", "SHA256:AA"⟩], []⟩

/-- Two Clients whose fingerprints differ in case only are told apart, and a third
fingerprint is turned away. -/
theorem clients_identified_watch : IdentifiesClients phoneAndWatch ∧
    clientOf phoneAndWatch [(recordingIdHeader, utf8 "memo"), (fingerprintHeader, utf8 "SHA256:AA")] =
      some ⟨"watch", "SHA256:AA"⟩ ∧
    clientOf phoneAndWatch [(fingerprintHeader, utf8 "sha256:bb")] = none := by
  have hid : IdentifiesClients phoneAndWatch :=
    (clients_identified_iff [⟨"phone", "sha256:aa"⟩, ⟨"watch", "SHA256:AA"⟩] phoneAndWatch
      (by decide +kernel) rfl).mpr (by decide +kernel)
  refine ⟨hid, ?_, by decide +kernel⟩
  exact hid.reaches ⟨"watch", "SHA256:AA"⟩ (by decide) _ ⟨fingerprintHeader, rfl⟩

/-- A blank behind the fingerprint locks the Client out. -/
theorem padded_client_locked_out :
    ¬ ∀ (raw : List RawClient) (config : AppConfig),
      (∀ r ∈ raw, Visible r.certificateFingerprint) →
      validateClients raw = .ok config.clients → IdentifiesClients config := by
  intro h
  have hid := h [⟨"phone", "sha256:aa "⟩] ⟨⟨4096⟩, [⟨"phone", "sha256:aa "⟩], []⟩
    (by decide +kernel) rfl
  have hreach := hid.reaches ⟨"phone", "sha256:aa "⟩ List.mem_cons_self
    [(fingerprintHeader, utf8 "sha256:aa ")] ⟨fingerprintHeader, rfl⟩
  have hnone : clientOf ⟨⟨4096⟩, [⟨"phone", "sha256:aa "⟩], []⟩
      [(fingerprintHeader, utf8 "sha256:aa ")] = none := by decide +kernel
  rw [hnone] at hreach
  cases hreach

end Telegraph
