import Telegraph.Proofs.NoTrace
import Telegraph.Proofs.OfferedActions
import Telegraph.Proofs.RoutedOnce
import Telegraph.Proofs.WorkerMoves

namespace Telegraph
open Lib Program SqliteStore

namespace Store

/-- No parked Recording moves, and nothing is logged. -/
structure Parks (s t : Store) : Prop where
  auditEvents : t.auditEvents = s.auditEvents
  parked : ∀ x status, status.Parked → s.statusOf x = some status → t.statusOf x = some status

variable {s t u : Store}

theorem parks_refl (s : Store) : s.Parks s := ⟨rfl, fun _ _ _ => id⟩

theorem Parks.trans (h : s.Parks t) (k : t.Parks u) : s.Parks u :=
  ⟨k.auditEvents.trans h.auditEvents, fun x status hp hs => k.parked x status hp (h.parked x status hp hs)⟩

theorem parks_of_eq (ha : t.auditEvents = s.auditEvents) (hr : t.recordings = s.recordings) : s.Parks t := by
  refine ⟨ha, fun x status _ hs => ?_⟩
  unfold statusOf recording at hs ⊢
  rwa [hr]

theorem statusOf_updateRecordings {p : RecordingRow → Bool} {f : RecordingRow → RecordingRow}
    {h : Table.KeepsKeys RecordingRow.clash f} (hid : ∀ r, (f r).id = r.id) (x : String) :
    (s.updateRecordings p f h).statusOf x =
      (s.recording x).map fun r => if p r then (f r).status else r.status := by
  have he : (s.updateRecordings p f h).recording x = (s.recording x).map fun r => if p r then f r else r :=
    Table.find_update (h := h) fun a => by rw [hid]
  rw [statusOf, he, Option.map_map]
  refine Option.map_congr fun r _ => ?_
  simp only [Function.comp_apply]
  split <;> rfl

/-- An update may move what is not parked. -/
theorem parks_updateRecordings {p : RecordingRow → Bool} {f : RecordingRow → RecordingRow}
    {h : Table.KeepsKeys RecordingRow.clash f} (hid : ∀ r, (f r).id = r.id)
    (hp : ∀ x r, s.recording x = some r → p r = true → r.status.Parked → (f r).status = r.status) :
    s.Parks (s.updateRecordings p f h) := by
  refine ⟨rfl, fun x status hpark hs => ?_⟩
  obtain ⟨r, hr, rfl⟩ := Option.map_eq_some_iff.mp hs
  rw [statusOf_updateRecordings hid, hr, Option.map_some]
  split
  · next hpr => rw [hp x r hr hpr hpark]
  · rfl

theorem parks_insertRecording {r : RecordingRow} {n : Nat} (h : s.insertRecording r = .ok (t, n)) :
    s.Parks t := by
  unfold insertRecording at h
  split at h
  · cases h
    exact parks_refl s
  · split at h
    · next grown hi =>
      cases h
      refine ⟨rfl, fun x status _ hs => ?_⟩
      obtain ⟨q, hq, rfl⟩ := Option.map_eq_some_iff.mp hs
      have hfind : grown.find (·.id == x) = some q := by
        unfold Table.find
        rw [(Table.insert_some hi).1, List.find?_append, show s.recordings.rows.find? _ = some q from hq]
        rfl
      exact Option.map_eq_some_iff.mpr ⟨q, hfind, rfl⟩
    · cases h

end Store

namespace SqliteStore
open Store

theorem permits_parks : Permits Parks where
  elsewhere hr _ ha := parks_of_eq ha hr
  columns hu hs := parks_updateRecordings (fun r => RecordingRow.id_of_asUploaded (hu r)) fun _ r _ _ _ => hs r
  moves h := parks_updateRecordings (fun _ => rfl) fun x r hr hp hpark => absurd hpark (h x r hr hp).2

theorem createRecording_parks {new : NewRecording} : (createRecording new).Always Parks := by
  refine always_bind (always_execute fun _ _ _ => parks_insertRecording) fun _ => Reads.always ?_
  refine reads_query.bind fun _ => reads_require.bind fun _ => ?_
  trivial

/-- Recovery gives back claims, which are not parked. -/
theorem recoverAbandonedAttempts_parks {now : Int} : (recoverAbandonedAttempts now).Always Parks := by
  refine always_bind always_begin fun _ =>
    always_bind (permits_parks.update (fun _ => rfl) fun _ => rfl) fun _ =>
      always_bind (always_modify fun _ => parks_of_eq rfl rfl) fun _ =>
        always_bind (always_modify fun s => ?_) fun _ =>
          always_bind (permits_parks.update (fun _ => rfl) fun _ => rfl) fun _ =>
            always_bind (always_modify fun _ => parks_of_eq rfl rfl) fun _ =>
              always_bind always_commit fun _ => always_done
  refine parks_updateRecordings (fun _ => rfl) fun y r _ hp hpark => ?_
  simp only [Bool.and_eq_true, beq_iff_eq] at hp
  simp [RecordingStatus.Parked, hp.1] at hpark

variable {s s' : Store} {x : String} {status : RecordingStatus} {audit : List AuditEvent}

/-- An action of the Operator that went through: it moved `x` on from `status`, no other
Recording, and logged `audit`. -/
structure Released (s : Store) (x : String) (status : RecordingStatus) (audit : List AuditEvent)
    (s' : Store) : Prop where
  before : s.statusOf x = some status
  after : ∃ next, s'.statusOf x = some next ∧ status.canTransitionTo next = true
  others : ∀ y, y ≠ x → s'.statusOf y = s.statusOf y
  auditEvents : s'.auditEvents.rows = s.auditEvents.rows ++ audit

theorem Released.left (h : Released s x status audit s') : s'.statusOf x ≠ some status := by
  obtain ⟨next, hn, hcan⟩ := h.after
  rw [hn]
  rintro ⟨rfl⟩
  cases status <;> cases hcan

theorem released_of {r : RecordingRow} (r' : RecordingRow) (hr : s.recording x = some r)
    (hst : r.status = status) (hid : r'.id = r.id)
    (hv : s'.recording = Function.update s.recording r'.id (some r'))
    (hcan : status.canTransitionTo r'.status = true)
    (ha : s'.auditEvents.rows = s.auditEvents.rows ++ audit) : Released s x status audit s' := by
  have hs := Caller.status_of_update hv
  rw [hid, Store.recording_id hr] at hs
  refine ⟨hst ▸ Store.statusOf_eq hr, ⟨r'.status, ?_, hcan⟩, fun y hy => ?_, ha⟩
  · rw [hs x, if_pos rfl]
  · rw [hs y, if_neg hy]

/-- It is carried out, or nothing changes. -/
theorem released_or_refused {α : Type} {q : Query α} {ok : α → Store → Prop} {bad : StorageError → Prop}
    {lost : α → Bool} {named : Option String} (ht : q.Transacts s ok bad) (hl : ∀ a, lost a = false)
    (hw : q.Within (Elsewhere named) ⟨s, none⟩ (Adds s lost audit))
    (h : ∀ a s', ok a s' → s'.auditEvents.rows = s.auditEvents.rows ++ audit → Released s x status audit s') :
    (q.run s).1 = s ∨ Released s x status audit (q.run s).1 := by
  obtain ⟨-, -, hadds⟩ := hw.exec Store.elsewhere_refl Store.elsewhere_trans (Store.elsewhere_refl s)
  rcases ht.run_cases with ⟨a, s', hr, ha⟩ | ⟨e, hr, -⟩
  · have hex : (q.exec ⟨s, none⟩).2.committed = s' ∧ (q.exec ⟨s, none⟩).1 = .ok a := Prod.mk.inj hr
    have hadd := hadds a hex.2
    unfold Adds at hadd
    rw [hl a, hex.1] at hadd
    rw [hr]
    exact .inr (h a s' ha (by simpa using hadd))
  · rw [hr]
    exact .inl rfl

end SqliteStore

theorem Input.operation_of_asks {ι : Type} {input : Input ι} {now : Int} {x : String}
    {status : RecordingStatus} {op : Operation} (h : input.asks = some (x, status, op)) :
    input.operation now = some op := by
  cases input <;> cases h <;> rfl

/-- What the Operator asks happens to the Recording asked for, from the status asked in. -/
theorem Input.asks_released {ι : Type} {input : Input ι} {x : String} {status : RecordingStatus}
    {op : Operation} (h : input.asks = some (x, status, op)) (s : Store) :
    op.apply s = s ∨ Released s x status op.audit (op.apply s) := by
  cases input with
  | manualRoute input =>
    cases h
    refine released_or_refused manualRoute_transacts (fun _ => rfl) manualRoute_adds ?_
    rintro - s' ⟨r, hst, hsel⟩ ha
    exact released_of ((r.withSink input.sinkName).moved .delivering input.selectedAt) hsel.1 hst rfl
      (Caller.recording_of_selects hsel) rfl ha
  | manualRetryTranscription input =>
    cases h
    refine released_or_refused manualRetryTranscription_transacts (fun _ => rfl)
      manualRetryTranscription_adds ?_
    rintro - s' ⟨-, r, hr, hst, hv⟩ ha
    exact released_of (((r.moved .transcribing input.at_).withError none).withWindow input.at_) hr hst rfl
      (congrArg View.recording hv) rfl ha
  | manualRetryDelivery input =>
    cases h
    refine released_or_refused manualRetryDelivery_transacts (fun _ => rfl) manualRetryDelivery_adds ?_
    rintro - s' ⟨r, d, -, hr, hst, -, hv⟩ ha
    exact released_of ((r.moved .delivering input.at_).withError none) hr hst rfl (congrArg View.recording hv) rfl ha
  | _ => cases h

namespace Service
variable {c c' : Process} {events : List Event} {route : Recording → RoutingDecision}
  {turns : List (Turn Process (Int × Input Unit))}

/-- One step, with what it is given. -/
def next (route : Recording → RoutingDecision) (c : Process) (l : Int × Input Unit) : Option Process :=
  (c.step route l.1 l.2).map (·.1)

/-- The runs as histories of their steps. -/
abbrev Turns (route : Recording → RoutingDecision) : List (Turn Process (Int × Input Unit)) → Process → Prop :=
  History (fun c l c' => next route c l = some c') initial

/-- The turn takes Recording `x` out of `status`. -/
def Leaves (x : String) (status : RecordingStatus) (t : Turn Process (Int × Input Unit)) : Prop :=
  t.before.store.statusOf x = some status ∧ t.after.store.statusOf x ≠ some status

instance (x : String) (status : RecordingStatus) (t : Turn Process (Int × Input Unit)) :
    Decidable (Leaves x status t) := by
  unfold Leaves
  infer_instance

/-- The audit event of a turn: what the Operator asked, if the Recording moved. -/
def audited (t : Turn Process (Int × Input Unit)) : List AuditEvent :=
  match t.what.2.asks with
  | some (x, status, op) => if Leaves x status t then op.audit else []
  | none => []

/-- What nobody asks for leaves the parked Recordings and the audit log alone. -/
theorem step_parks {now : Int} {input : Input Unit} (hs : c.step route now input = some (c', events))
    (ha : input.asks = none) : c.store.Parks c'.store := by
  cases ho : input.operation now with
  | none =>
    obtain ⟨ops, hops, he⟩ := step_by_worker hs ho
    rw [he]
    have hi : ∀ {s t : Store} {new}, s.insertTranscript new = .ok t → s.Parks t := fun ht =>
      Store.parks_of_eq (Store.insertTranscript_frame ht).2 (Store.insertTranscript_frame ht).1
    exact permits_parks.foldl hi Store.parks_refl Store.Parks.trans hops c.store
  | some op =>
    rw [step_operation hs ho]
    cases input with
    | upload new =>
      cases ho
      exact createRecording_parks.run Store.parks_refl Store.Parks.trans c.store
    | recover =>
      cases ho
      exact recoverAbandonedAttempts_parks.run Store.parks_refl Store.Parks.trans c.store
    | manualRoute _ | manualRetryTranscription _ | manualRetryDelivery _ => cases ha
    | _ => cases ho

/-- One step logs what it is to log, and only the Operator releases a parked Recording. -/
theorem step_audited {now : Int} {input : Input Unit} (hs : c.step route now input = some (c', events)) :
    c'.store.auditEvents.rows = c.store.auditEvents.rows ++ audited ⟨c, (now, input), c'⟩ ∧
      ∀ x status, status.Parked → Leaves x status ⟨c, (now, input), c'⟩ →
        ∃ op, input.asks = some (x, status, op) := by
  cases ha : input.asks with
  | none =>
    have hparks := step_parks hs ha
    refine ⟨?_, fun x status hp hl => absurd (hparks.parked x status hp hl.1) hl.2⟩
    simp only [audited, ha, hparks.auditEvents, List.append_nil]
  | some asked =>
    obtain ⟨x, status, op⟩ := asked
    have hstore := step_operation hs (Input.operation_of_asks ha)
    rcases Input.asks_released ha c.store with he | hr
    · rw [← hstore] at he
      refine ⟨?_, fun y st _ hl => absurd (he ▸ hl.1) hl.2⟩
      have hno : ¬ Leaves x status ⟨c, (now, input), c'⟩ := fun hl => hl.2 (he ▸ hl.1)
      simp only [audited, ha, if_neg hno, he, List.append_nil]
    · rw [← hstore] at hr
      have hyes : Leaves x status ⟨c, (now, input), c'⟩ := ⟨hr.before, hr.left⟩
      refine ⟨?_, fun y st _ hl => ?_⟩
      · simp only [audited, ha, if_pos hyes]
        exact hr.auditEvents
      · obtain rfl : y = x := by
          by_contra hy
          exact hl.2 ((hr.others y hy).trans hl.1)
        obtain rfl : st = status := Option.some.inj (hl.1.symm.trans hr.before)
        exact ⟨op, rfl⟩

/-- The audit log is the list of the releases: a Recording leaves the Backlog or a failed
state only when the Operator asks for it, and each time, and no other, one event says so. -/
theorem audit_trail (h : Turns route turns c) :
    c.store.auditEvents.rows = turns.flatMap audited ∧
      ∀ t ∈ turns, ∀ x status, status.Parked → Leaves x status t →
        ∃ op, t.what.2.asks = some (x, status, op) := by
  induction h with
  | start => exact ⟨rfl, by simp⟩
  | turn l hr hs ih =>
    obtain ⟨⟨c', events⟩, hstep, rfl⟩ := Option.map_eq_some_iff.mp hs
    obtain ⟨hlog, hasked⟩ := step_audited hstep
    obtain ⟨ihlog, ihasked⟩ := ih
    refine ⟨?_, fun t ht => ?_⟩
    · rw [hlog, ihlog, List.flatMap_append, List.flatMap_singleton]
    · rcases List.mem_append.mp ht with ht | ht
      · exact ihasked t ht
      · rw [List.mem_singleton.mp ht]
        exact hasked

/-- A failed Transcription is retried, and the same request comes again. -/
def retriedTwice : List (Int × Input Unit) :=
  Monitor.failedUpload ++
    [(Duration.seconds 20, .manualRetryTranscription ⟨firstUpload.id, "e1", Duration.seconds 20, some "ops"⟩),
      (Duration.seconds 21, .manualRetryTranscription ⟨firstUpload.id, "e2", Duration.seconds 21, some "ops"⟩)]

theorem second_retry_unlogged : ∃ turns c, Turns toNotes turns c ∧
    c.store.auditEvents.rows = [⟨"e1", Duration.seconds 20, "operator", some "ops",
      "manual_retry_transcription", some firstUpload.id, "\x7b\x7d"⟩] ∧
    c.store.auditEvents.rows = turns.flatMap audited := by
  have hp : (History.play (next toNotes) initial retriedTwice).map (·.2.store.auditEvents.rows) =
      some [⟨"e1", Duration.seconds 20, "operator", some "ops", "manual_retry_transcription",
        some firstUpload.id, "\x7b\x7d"⟩] := by
    decide +kernel
  obtain ⟨⟨turns, c⟩, hplay, hlog⟩ := Option.map_eq_some_iff.mp hp
  exact ⟨turns, c, History.of_play hplay, hlog, (audit_trail (History.of_play hplay)).1⟩

end Service
end Telegraph
