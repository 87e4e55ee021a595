import Telegraph.Proofs.Identity
import Telegraph.Proofs.Lifecycle
import Telegraph.Proofs.Statements
import Telegraph.Webhook

namespace Telegraph
open Lib Program SqliteStore Function

/-- Delivery workers over the store, and every request they have handed to the Sink
client. -/
structure Deliverers (ι : Type) where
  store : Store
  workers : ι → Delivering.Pc
  requests : List DeliveryRequest

/-- A store operation of anybody's, a step of a worker, or the loss of its tick. -/
inductive DelivererInput (ι : Type) where
  | operation (op : Operation)
  | updateRecordingStatus (id : String) (next : RecordingStatus) (at_ : Int)
  | work (i : ι) (supply : Supply (Except WorkerFailure Unit))
  | lost (i : ι)

/-- The call of the Sink client that this step of a tick is. -/
def Delivering.Pc.requests : Delivering.Pc → List DeliveryRequest
  | .started candidate _ => [Delivering.request candidate]
  | _ => []

namespace Deliverers
variable {ι : Type} [DecidableEq ι]

def start (s : Store) : Deliverers ι := ⟨s, fun _ => .ready none, []⟩

def step (c : Deliverers ι) : DelivererInput ι → Deliverers ι
  | .operation op => { c with store := op.apply c.store }
  | .updateRecordingStatus id next t =>
    { c with store := ((SqliteStore.updateRecordingStatus id next t).run c.store).1 }
  | .work i supply => match (Delivering.action supply (c.workers i)).run c.store with
    | (s, .ok (next, _)) =>
      ⟨s, update c.workers i next, c.requests ++ (c.workers i).requests⟩
    | (s, .error _) => { c with store := s, workers := update c.workers i (.ready none) }
  | .lost i => { c with workers := update c.workers i (.ready none) }

def play (c : Deliverers ι) (inputs : List (DelivererInput ι)) : Deliverers ι := inputs.foldl step c

end Deliverers

/-- Two requests that a receiver recognises as one Delivery. -/
structure SameDelivery (a b : DeliveryRequest) : Prop where
  id : a.delivery.id = b.delivery.id
  sinkName : a.delivery.sinkName = b.delivery.sinkName
  payload : Payload.build a.recording a.delivery a.transcript =
    Payload.build b.recording b.delivery b.transcript

def WebhookHttpRequest.header (r : WebhookHttpRequest) (name : String) : Option String :=
  r.headers.lookup name

/-- What is on the wire for one Delivery: the same bytes under the same two ids. -/
def SameWire (id : String) (x y : WebhookHttpRequest) : Prop :=
  x.body = y.body ∧
  x.header WebhookSinkClient.headerRequestId = some id ∧
  y.header WebhookSinkClient.headerRequestId = some id ∧
  x.header WebhookSinkClient.headerDeliveryId = some id ∧
  y.header WebhookSinkClient.headerDeliveryId = some id

namespace WebhookSinkClient

theorem prepare_ok {lib : WebhookLibraries} {client : WebhookSinkClient} {r : DeliveryRequest}
    {x : WebhookHttpRequest} (h : prepare lib client r = .ok x) :
    lib.toVec (Payload.build r.recording r.delivery r.transcript) = .ok x.body ∧
    x.header headerRequestId = some r.delivery.id ∧
    x.header headerDeliveryId = some r.delivery.id := by
  unfold prepare at h
  split at h
  · cases h
  · split at h
    · cases h
    · next body hb =>
      cases h
      exact ⟨hb, rfl, rfl⟩

/-- Whatever the Sinks of the two clients are, equal payloads are equal bytes. -/
theorem wire {lib : WebhookLibraries} {client client' : WebhookSinkClient}
    {a b : DeliveryRequest} {x y : WebhookHttpRequest} (h : SameDelivery a b)
    (hx : prepare lib client a = .ok x) (hy : prepare lib client' b = .ok y) :
    SameWire a.delivery.id x y := by
  obtain ⟨hbx, hrx, hdx⟩ := prepare_ok hx
  obtain ⟨hby, hry, hdy⟩ := prepare_ok hy
  have hbody : x.body = y.body := by
    rw [h.payload, hby] at hbx
    exact (Except.ok.inj hbx).symm
  rw [← h.id] at hry hdy
  exact ⟨hbody, hrx, hry, hdx, hdy⟩

end WebhookSinkClient

namespace Store
variable {P : String → Prop} {s t : Store}

theorem target_unique {a b : Target} (ha : a ∈ s.targets) (hb : b ∈ s.targets)
    (h : a.recordingId = b.recordingId) : a = b := by
  obtain ⟨d, hd, rfl⟩ := List.mem_map.mp ha
  obtain ⟨e, he, rfl⟩ := List.mem_map.mp hb
  have hfind := deliveryFor_of_mem hd
  rw [show d.recordingId = e.recordingId from h, deliveryFor_of_mem he] at hfind
  rw [Option.some.inj hfind]

theorem origin_unique {a b : Origin} (ha : a ∈ s.origins) (hb : b ∈ s.origins)
    (h : a.id = b.id) : a = b := by
  obtain ⟨r, hr, rfl⟩ := List.mem_map.mp ha
  obtain ⟨q, hq, rfl⟩ := List.mem_map.mp hb
  have hfind := recording_of_mem hr
  rw [show r.id = q.id from h, recording_of_mem hq] at hfind
  rw [Option.some.inj hfind]

theorem transcript_of_mem {r : Transcript} (h : r ∈ s.transcripts.rows) :
    s.transcript r.recordingId = some r := by
  apply Table.find_of_mem h (by simp)
  intro a b ha hb
  simpa [Transcript.clash] using (beq_iff_eq.mp ha).trans (beq_iff_eq.mp hb).symm

theorem transcript_unique {a b : Transcript} (ha : a ∈ s.transcripts.rows)
    (hb : b ∈ s.transcripts.rows) (h : a.recordingId = b.recordingId) : a = b := by
  have hfind := transcript_of_mem ha
  rw [h, transcript_of_mem hb] at hfind
  exact (Option.some.inj hfind).symm

theorem Grows.mem_targets (h : s.Grows P t) {a : Target} (ha : a ∈ s.targets) : a ∈ t.targets := by
  obtain ⟨fresh, he, -⟩ := h.targets
  rw [he]
  exact List.mem_append_left fresh ha

/-- The three rows a request was made from are in the store, and belong together. -/
structure Backs (s : Store) (r : DeliveryRequest) : Prop where
  delivery : r.delivery.target ∈ s.targets
  recording : r.recording.origin ∈ s.origins
  transcript : r.transcript ∈ s.transcripts.rows
  recording_id : r.recording.id = r.delivery.recordingId
  transcript_id : r.transcript.recordingId = r.delivery.recordingId

theorem Backs.grows {r : DeliveryRequest} (h : s.Backs r) (hg : s.Grows P t) : t.Backs r :=
  ⟨hg.mem_targets h.delivery, hg.origins.subset h.recording, hg.transcripts.subset h.transcript,
    h.recording_id, h.transcript_id⟩

/-- One store backs only one Delivery of a Recording. -/
theorem Backs.same {a b : DeliveryRequest} (ha : s.Backs a) (hb : s.Backs b)
    (h : a.recording.id = b.recording.id) : SameDelivery a b := by
  have hrec : a.delivery.recordingId = b.delivery.recordingId :=
    ha.recording_id.symm.trans (h.trans hb.recording_id)
  have htarget := target_unique ha.delivery hb.delivery hrec
  have horigin := origin_unique ha.recording hb.recording h
  have htext := transcript_unique ha.transcript hb.transcript
    (ha.transcript_id.trans (hrec.trans hb.transcript_id.symm))
  simp only [Delivery.target, Target.mk.injEq] at htarget
  simp only [Recording.origin, Origin.mk.injEq] at horigin
  obtain ⟨hid, -, hsink⟩ := htarget
  obtain ⟨hrid, hclient, hkey, htags, hrecorded, hreceived⟩ := horigin
  refine ⟨hid, hsink, ?_⟩
  rw [Payload.build, Payload.build, hrid, hid, hclient, hkey, htags, hrecorded, hreceived, htext]

end Store

namespace Delivering
open Store

/-- What a tick holds was read from rows that are still there. -/
def Pc.Backed (s : Store) : Pc → Prop
  | .loading _ _ candidates => ∀ c ∈ candidates, s.Backs (request c)
  | .loadingRecording _ _ _ candidates delivery =>
    (∀ c ∈ candidates, s.Backs (request c)) ∧ delivery.target ∈ s.targets
  | .loadingTranscript _ _ _ candidates delivery recording =>
    (∀ c ∈ candidates, s.Backs (request c)) ∧ delivery.target ∈ s.targets ∧
      recording.origin ∈ s.origins ∧ recording.id = delivery.recordingId
  | .claimed _ candidate | .started candidate _ | .calling candidate _
  | .answered candidate _ _ _ => s.Backs (request candidate)
  | .ready _ | .began _ | .confirming _ => True

theorem Pc.Backed.grows {P : String → Prop} {s t : Store} {pc : Pc} (h : pc.Backed s)
    (hg : s.Grows P t) : pc.Backed t := by
  cases pc with
  | loading _ _ candidates => exact fun c hc => (h c hc).grows hg
  | loadingRecording _ _ _ candidates delivery =>
    exact ⟨fun c hc => (h.1 c hc).grows hg, hg.mem_targets h.2⟩
  | loadingTranscript _ _ _ candidates delivery recording =>
    exact ⟨fun c hc => (h.1 c hc).grows hg, hg.mem_targets h.2.1, hg.origins.subset h.2.2.1,
      h.2.2.2⟩
  | claimed _ candidate => exact Backs.grows h hg
  | started candidate _ => exact Backs.grows h hg
  | calling candidate _ => exact Backs.grows h hg
  | answered candidate _ _ _ => exact Backs.grows h hg
  | ready _ => trivial
  | began _ => trivial
  | confirming _ => trivial

section Steps
variable {P : String → Prop} {s : Store} {supply : Supply (Except WorkerFailure Unit)}

theorem record_within {candidate : DeliveryCandidate} {attemptId : String} {t : Int}
    {result : Except WorkerFailure Unit} :
    (record candidate attemptId t result).Within (Grows P) ⟨s, none⟩
      fun r _ => r.1.Backed s := by
  cases result with
  | ok _ => exact within_of_always succeedDeliveryTx_grows fun _ _ => trivial
  | error failure =>
    cases failure with
    | terminal _ message => exact within_of_always failDeliveryTx_grows fun _ _ => trivial
    | retryable _ message =>
      unfold record
      dsimp only
      split
      · exact within_of_always failDeliveryTx_grows fun _ _ => trivial
      · exact within_of_always retryDelivery_grows fun _ _ => trivial

theorem action_within {pc : Pc} (h : pc.Backed s) :
    (action supply pc).Within (Grows P) s (Pc.Backed s) := by
  cases pc with
  | ready last => trivial
  | began t => exact Action.within_transact (fun c hc => by cases hc)
  | loading t rows candidates =>
    cases rows with
    | nil =>
      unfold action
      dsimp only
      cases hp : pickDueDelivery t candidates with
      | none => trivial
      | some c => exact h c (List.mem_of_find?_eq_some hp)
    | cons row rows =>
      apply Action.within_transact
      apply within_requireDelivery
      intro d hd
      exact ⟨h, List.mem_map_of_mem (Table.find_mem hd).1⟩
  | loadingRecording t row rows candidates delivery =>
    apply Action.within_transact
    apply within_requireRecording
    intro r hr
    exact ⟨h.1, h.2, List.mem_map_of_mem (Table.find_mem hr).1, Store.recording_id hr⟩
  | loadingTranscript t row rows candidates delivery recording =>
    apply Action.within_transact
    apply within_requireTranscript
    intro text ht c hc
    obtain ⟨hc', hd, hr, hid⟩ := h
    rcases List.mem_append.mp hc with hold | hnew
    · exact hc' c hold
    · rw [List.mem_singleton.mp hnew]
      obtain ⟨hmem, hkey⟩ := Table.find_mem ht
      exact ⟨hd, hr, hmem, hid, beq_iff_eq.mp hkey⟩
  | claimed t candidate =>
    apply Action.within_transact
    refine within_of_always startDeliveryAttempt_grows fun number k => ?_
    cases number with
    | none => trivial
    | some n => exact h
  | started candidate a => exact h
  | calling candidate a => exact h
  | answered candidate a t result => exact Action.within_transact record_within
  | confirming x =>
    apply Action.within_transact
    apply within_requireDelivery
    exact fun _ _ => trivial

end Steps
end Delivering

namespace Deliverers
open Store
variable {ι : Type} [DecidableEq ι] {P : String → Prop}

/-- Everything the workers hold and have sent was read from rows that are still there. -/
structure Backed (c : Deliverers ι) : Prop where
  workers : ∀ i, (c.workers i).Backed c.store
  requests : ∀ r ∈ c.requests, c.store.Backs r

omit [DecidableEq ι] in
theorem start_backed (s : Store) : (start s : Deliverers ι).Backed :=
  ⟨fun _ => trivial, fun r hr => by cases hr⟩

omit [DecidableEq ι] in
theorem Backed.grown {c : Deliverers ι} (h : c.Backed) {s : Store} (hg : c.store.Grows P s) :
    ({ c with store := s } : Deliverers ι).Backed :=
  ⟨fun i => (h.workers i).grows hg, fun r hr => (h.requests r hr).grows hg⟩

theorem Backed.idle {c : Deliverers ι} (h : c.Backed) (i : ι) :
    ({ c with workers := update c.workers i (.ready none) } : Deliverers ι).Backed := by
  refine ⟨fun j => ?_, h.requests⟩
  by_cases hj : j = i
  · subst j
    simp [Delivering.Pc.Backed]
  · simpa [hj] using h.workers j

theorem requests_backed {s : Store} {pc : Delivering.Pc} (h : pc.Backed s) :
    ∀ r ∈ pc.requests, s.Backs r := by
  cases pc with
  | started candidate a =>
    intro r hr
    rw [List.mem_singleton.mp hr]
    exact h
  | _ => intro r hr; cases hr

/-- One step keeps every row's identity, and what is held stays backed. -/
theorem step_backed {c : Deliverers ι} (h : c.Backed) (input : DelivererInput ι) :
    c.store.Grows (fun _ => True) (c.step input).store ∧ (c.step input).Backed := by
  cases input with
  | operation op =>
    have hg := Operation.apply_grows (P := fun _ => True) c.store op (by cases op <;> trivial)
    exact ⟨hg, h.grown hg⟩
  | updateRecordingStatus id next t =>
    have hq : (SqliteStore.updateRecordingStatus id next t).Always (Grows fun _ => True) :=
      updateRecordingStatus_grows
    have hg := hq.run grows_refl Grows.trans c.store
    exact ⟨hg, h.grown hg⟩
  | work i supply =>
    have hw : (Delivering.action supply (c.workers i)).Within (Grows fun _ => True) c.store
        (Delivering.Pc.Backed c.store) := Delivering.action_within (h.workers i)
    obtain ⟨hg, hnext⟩ := hw.run grows_refl Grows.trans
    unfold step
    dsimp only
    cases hr : (Delivering.action supply (c.workers i)).run c.store with
    | mk s o =>
      rw [hr] at hg hnext
      have hgrown := h.grown hg
      cases o with
      | error e => exact ⟨hg, hgrown.idle i⟩
      | ok r =>
        refine ⟨hg, fun j => ?_, fun q hq => ?_⟩
        · by_cases hj : j = i
          · subst j
            simpa using (hnext r.1 r.2 rfl).grows hg
          · simpa [hj] using hgrown.workers j
        · rcases List.mem_append.mp hq with hold | hnew
          · exact hgrown.requests q hold
          · exact (requests_backed (h.workers i) q hnew).grows hg
  | lost i => exact ⟨grows_refl _, h.idle i⟩

theorem play_backed {c : Deliverers ι} (h : c.Backed) (inputs : List (DelivererInput ι)) :
    c.store.Grows (fun _ => True) (c.play inputs).store ∧ (c.play inputs).Backed := by
  induction inputs generalizing c with
  | nil => exact ⟨grows_refl _, h⟩
  | cons input rest ih =>
    obtain ⟨hg, hb⟩ := step_backed h input
    obtain ⟨hgrest, hbrest⟩ := ih hb
    exact ⟨hg.trans hgrest, hbrest⟩

/-- From any store, under any sequence of store operations and worker steps: no row
loses its identity, and all calls of the Sink client for one Recording carry one
Delivery, on the wire too. -/
theorem deliveries_stable (s : Store) (inputs : List (DelivererInput ι)) :
    s.Grows (fun _ => True) ((start s).play inputs).store ∧
    ∀ a ∈ ((start s).play inputs).requests, ∀ b ∈ ((start s).play inputs).requests,
      a.recording.id = b.recording.id → SameDelivery a b ∧
      ∀ (lib : WebhookLibraries) (client client' : WebhookSinkClient) (x y : WebhookHttpRequest),
        WebhookSinkClient.prepare lib client a = .ok x →
        WebhookSinkClient.prepare lib client' b = .ok y → SameWire a.delivery.id x y := by
  obtain ⟨hg, hb⟩ := play_backed (start_backed s) inputs
  refine ⟨hg, fun a ha b hb' he => ?_⟩
  have hsame := (hb.requests a ha).same (hb.requests b hb') he
  exact ⟨hsame, fun _ _ _ _ _ hx hy => WebhookSinkClient.wire hsame hx hy⟩

/-- An upload recorded where the clock is two hours ahead. -/
def recordedAhead : NewRecording :=
  { firstUpload with recordedAt := some ⟨0, 120, by decide, by decide⟩ }

/-- That upload delivered to `notes`, where the first attempt fails and is retried. -/
def retriedDelivery : List (DelivererInput Unit) :=
  let tick (now : Int) (id : String) := List.replicate 10 (DelivererInput.work ()
    ⟨now, id, .error (.retryable "webhook_transport" "timed out")⟩)
  [.operation (.createRecording recordedAhead), .operation (.claimReceivedForTranscription 0),
    .operation (.storeTranscript ⟨"r1", "soniox", "hello", "", none, none, 0⟩),
    .operation (.selectSink ⟨"d1", "r1", "notes", 0, none⟩)] ++
  tick 0 "a1" ++ tick (Duration.hours 1) "a2"

theorem retried_delivery_stable :
    ((start Store.empty).play retriedDelivery).requests.map
      (·.recording.recordedAt.map OffsetDateTime.format) =
        [some "1970-01-01T02:00:00+02:00", some "1970-01-01T02:00:00+02:00"] ∧
    ∀ a ∈ ((start Store.empty).play retriedDelivery).requests,
      ∀ b ∈ ((start Store.empty).play retriedDelivery).requests,
        a.recording.id = b.recording.id → SameDelivery a b :=
  ⟨by decide +kernel, fun a ha b hb he => ((deliveries_stable Store.empty retriedDelivery).2 a ha b hb he).1⟩

end Deliverers
end Telegraph
