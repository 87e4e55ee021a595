import Telegraph.Lib.Footprint
import Telegraph.Operation
import Telegraph.Views
import Telegraph.Workers

namespace Telegraph
open Lib Program SqliteStore

/-- The columns of a Recording that stay as its upload wrote them. -/
structure Origin where
  id : String
  clientId : String
  clientRecordingId : String
  tags : Tags
  recordedAt : Option OffsetDateTime
  receivedAt : Int
deriving DecidableEq, Repr

def Recording.origin (r : Recording) : Origin :=
  ⟨r.id, r.clientId, r.clientRecordingId, r.tags, r.recordedAt, r.receivedAt⟩

/-- The columns of a Delivery that stay as its selection wrote them. -/
structure Target where
  id : String
  recordingId : String
  sinkName : String
deriving DecidableEq, Repr

def Delivery.target (d : Delivery) : Target := ⟨d.id, d.recordingId, d.sinkName⟩

namespace Store

def origins (s : Store) : List Origin := s.recordings.rows.map (·.origin)
def targets (s : Store) : List Target := s.deliveries.rows.map (·.target)

/-- Nothing is lost or renamed, and new Deliveries go to Sinks that `P` allows. -/
structure Grows (P : String → Prop) (s s' : Store) : Prop where
  origins : s.origins <+: s'.origins
  transcripts : s.transcripts.rows <+: s'.transcripts.rows
  targets : ∃ fresh, s'.targets = s.targets ++ fresh ∧ ∀ t ∈ fresh, P t.sinkName

variable {P : String → Prop} {s t u : Store}

theorem grows_refl (s : Store) : s.Grows P s :=
  ⟨List.prefix_refl _, List.prefix_refl _, [], by simp, by simp⟩

theorem Grows.trans (h : s.Grows P t) (k : t.Grows P u) : s.Grows P u := by
  obtain ⟨before, hb, hpb⟩ := h.targets
  obtain ⟨after, ha, hpa⟩ := k.targets
  refine ⟨h.origins.trans k.origins, h.transcripts.trans k.transcripts, before ++ after, ?_, ?_⟩
  · rw [ha, hb, List.append_assoc]
  · intro t ht
    exact (List.mem_append.mp ht).elim (hpb t) (hpa t)

/-- A statement that leaves the three tables alone. -/
theorem grows_of_eq (hr : t.recordings = s.recordings) (ht : t.transcripts = s.transcripts)
    (hd : t.deliveries = s.deliveries) : s.Grows P t := by
  refine ⟨?_, ?_, [], ?_, by simp⟩
  · rw [Store.origins, Store.origins, hr]
  · rw [ht]
  · rw [Store.targets, Store.targets, hd, List.append_nil]

section Updates
variable {ρ κ : Type} {clash : ρ → ρ → Bool} {p : ρ → Bool} {f : ρ → ρ}

theorem map_key_update (key : ρ → κ) (table : Table ρ clash) (h : Table.KeepsKeys clash f)
    (hf : ∀ r, key (f r) = key r) : (table.update p f h).rows.map key = table.rows.map key := by
  rw [Table.update, List.map_map]
  apply List.map_congr_left
  intro r _
  rw [Function.comp_apply]
  split
  · exact hf r
  · rfl

end Updates

theorem grows_updateRecordings {p : RecordingRow → Bool} {f : RecordingRow → RecordingRow}
    {h : Table.KeepsKeys RecordingRow.clash f} (hf : ∀ r, (f r).origin = r.origin) :
    s.Grows P (s.updateRecordings p f h) := by
  refine ⟨?_, List.prefix_refl _, [], by rw [List.append_nil]; rfl, by simp⟩
  have he : (s.updateRecordings p f h).origins = s.origins :=
    map_key_update (fun r : RecordingRow => r.origin) s.recordings h hf
  rw [he]

theorem grows_updateDeliveries {p : DeliveryRow → Bool} {f : DeliveryRow → DeliveryRow}
    {h : Table.KeepsKeys DeliveryRow.clash f} (hf : ∀ d, (f d).target = d.target) :
    s.Grows P (s.updateDeliveries p f h) := by
  refine ⟨List.prefix_refl _, List.prefix_refl _, [], ?_, by simp⟩
  rw [List.append_nil]
  exact map_key_update (fun d : DeliveryRow => d.target) s.deliveries h hf

section Inserts

theorem grows_insertTranscript {new : Transcript} (h : s.insertTranscript new = .ok t) :
    s.Grows P t := by
  obtain ⟨grown, hg, -, rfl⟩ := checked_ok h
  exact ⟨List.prefix_refl _, ⟨[new], (Table.insert_some hg).1.symm⟩, [],
    by rw [List.append_nil]; rfl, by simp⟩

theorem grows_insertDelivery {d : DeliveryRow} (hd : P d.sinkName)
    (h : s.insertDelivery d = .ok t) : s.Grows P t := by
  obtain ⟨grown, hg, -, rfl⟩ := checked_ok h
  refine ⟨List.prefix_refl _, List.prefix_refl _, [d.target], ?_, ?_⟩
  · simp only [Store.targets, (Table.insert_some hg).1, List.map_append, List.map_cons, List.map_nil]
  · intro t ht
    rw [List.mem_singleton.mp ht]
    exact hd

theorem grows_insertTranscriptionAttempt {a : TranscriptionAttempt}
    (h : s.insertTranscriptionAttempt a = .ok t) : s.Grows P t := by
  obtain ⟨grown, -, -, rfl⟩ := checked_ok h
  exact grows_of_eq rfl rfl rfl

theorem grows_insertDeliveryAttempt {a : DeliveryAttempt}
    (h : s.insertDeliveryAttempt a = .ok t) : s.Grows P t := by
  obtain ⟨grown, -, -, rfl⟩ := checked_ok h
  exact grows_of_eq rfl rfl rfl

theorem grows_insertAuditEvent {e : AuditEvent} (h : s.insertAuditEvent e = .ok t) :
    s.Grows P t := by
  obtain ⟨grown, -, -, rfl⟩ := checked_ok h
  exact grows_of_eq rfl rfl rfl

theorem grows_insertRecording {r : RecordingRow} {n : Nat}
    (h : s.insertRecording r = .ok (t, n)) : s.Grows P t := by
  unfold insertRecording at h
  split at h
  · cases h
    exact grows_refl s
  · split at h
    · next grown hi =>
      cases h
      refine ⟨⟨[r.origin], ?_⟩, List.prefix_refl _, [], by rw [List.append_nil]; rfl, by simp⟩
      simp only [Store.origins, (Table.insert_some hi).1, List.map_append, List.map_cons, List.map_nil]
    · cases h

end Inserts
end Store

namespace SqliteStore
open Store

variable {P : String → Prop}

section Helpers

theorem requireRecording_grows {x : String} : (requireRecording x).Always (Grows P) :=
  always_bind always_query fun _ => always_require

theorem requireTranscript_grows {x : String} : (requireTranscript x).Always (Grows P) :=
  always_bind always_query fun _ => always_require

theorem requireDelivery_grows {x : String} : (requireDelivery x).Always (Grows P) :=
  always_bind always_query fun _ => always_require

theorem currentStatus_grows {x : String} : (currentStatus x).Always (Grows P) :=
  always_bind always_query fun _ => always_require

theorem recordingIdForDelivery_grows {x : String} : (recordingIdForDelivery x).Always (Grows P) :=
  always_bind always_query fun _ => always_require

theorem updateRecordings_grows {p : Store → RecordingRow → Bool}
    {f : RecordingRow → RecordingRow} {h : Table.KeepsKeys RecordingRow.clash f}
    {rows : Store → Nat} (hf : ∀ r, (f r).origin = r.origin) :
    (modify (fun s => s.updateRecordings (p s) f h) rows : Query Nat).Always (Grows P) :=
  always_modify fun _ => grows_updateRecordings hf

theorem updateDeliveries_grows {p : DeliveryRow → Bool} {f : DeliveryRow → DeliveryRow}
    {h : Table.KeepsKeys DeliveryRow.clash f} {rows : Store → Nat}
    (hf : ∀ d, (f d).target = d.target) :
    (modify (·.updateDeliveries p f h) rows : Query Nat).Always (Grows P) :=
  always_modify fun _ => grows_updateDeliveries hf

theorem guardedTransition_grows {x : String} {next : RecordingStatus} {t : Int} :
    (guardedTransition x next t).Always (Grows P) := by
  refine always_bind always_query fun _ => always_bind always_require fun _ => ?_
  split
  · exact always_bind (updateRecordings_grows fun _ => rfl) fun _ => always_done
  · exact always_fail

theorem setRecordingError_grows {x message : String} {t : Int} :
    (setRecordingError x t message).Always (Grows P) :=
  always_bind (updateRecordings_grows fun _ => rfl) fun _ => always_done

theorem clearRecordingError_grows {x : String} : (clearRecordingError x).Always (Grows P) :=
  always_bind (updateRecordings_grows fun _ => rfl) fun _ => always_done

theorem finishTranscriptionAttempt_grows {a : String} {t : Int} {status : AttemptStatus}
    {retryable : Bool} {code message : Option String} :
    (finishTranscriptionAttempt a t status retryable code message).Always (Grows P) :=
  always_bind (always_modify fun _ => grows_of_eq rfl rfl rfl) fun _ => always_done

theorem finishDeliveryAttempt_grows {a : String} {t : Int} {status : AttemptStatus}
    {retryable : Bool} {code : Option Int} {message : Option String} :
    (finishDeliveryAttempt a t status retryable code message).Always (Grows P) :=
  always_bind (always_modify fun _ => grows_of_eq rfl rfl rfl) fun _ => always_done

theorem insertTranscript_grows {new : NewTranscript} : (insertTranscript new).Always (Grows P) :=
  always_attempt fun _ _ => grows_insertTranscript

theorem insertDelivery_grows {new : NewDelivery} (h : P new.sinkName) :
    (insertDelivery new).Always (Grows P) :=
  always_bind (always_attempt fun _ _ => grows_insertDelivery h) fun _ =>
    always_bind (updateRecordings_grows fun _ => rfl) fun _ => always_done

theorem insertAuditEvent_grows {e : AuditEvent} : (insertAuditEvent e).Always (Grows P) :=
  always_attempt fun _ _ => grows_insertAuditEvent

theorem claimAttempt_grows {δ : Type} {attempts : Store → AttemptTable δ}
    {insert : Store → Attempt δ → Except StorageError Store} {a parent : String} {now : Int}
    (h : ∀ s t b, insert s b = .ok t → s.Grows P t) :
    (claimAttempt attempts insert a parent now).Always (Grows P) := by
  refine always_bind always_query fun inFlight => ?_
  split
  · exact always_done
  · exact always_bind always_query fun number =>
      always_bind (always_attempt fun s t => h s t _) fun _ => always_done

theorem retryAnchor_grows {x : String} : (retryAnchor x).Always (Grows P) := by
  refine always_bind always_query fun _ => always_bind always_require fun row => ?_
  split
  · exact always_done
  · exact always_bind always_query fun _ => always_require

end Helpers

section Methods

theorem insertRecording_grows {new : NewRecording} : (insertRecording new).Always (Grows P) :=
  always_execute fun _ _ _ => grows_insertRecording

theorem createRecording_grows {new : NewRecording} : (createRecording new).Always (Grows P) :=
  always_bind insertRecording_grows fun _ => always_bind always_query fun _ =>
    always_bind always_require fun _ => always_done

theorem updateRecordingStatusTx_grows {x : String} {next : RecordingStatus} {t : Int} :
    (updateRecordingStatusTx x next t).Always (Grows P) :=
  always_bind always_begin fun _ => always_bind guardedTransition_grows fun _ => always_commit

theorem updateRecordingStatus_grows {x : String} {next : RecordingStatus} {t : Int} :
    (updateRecordingStatus x next t).Always (Grows P) :=
  always_bind updateRecordingStatusTx_grows fun _ => requireRecording_grows

theorem storeTranscript_grows {new : NewTranscript} : (storeTranscript new).Always (Grows P) :=
  always_bind always_begin fun _ => always_bind insertTranscript_grows fun _ =>
    always_bind guardedTransition_grows fun _ => always_bind always_commit fun _ =>
      requireTranscript_grows

theorem selectSink_grows {new : NewDelivery} (h : P new.sinkName) :
    (selectSink new).Always (Grows P) :=
  always_bind always_begin fun _ => always_bind (insertDelivery_grows h) fun _ =>
    always_bind guardedTransition_grows fun _ => always_bind always_commit fun _ =>
      requireDelivery_grows

theorem routeToSinkTx_grows {new : NewDelivery} (h : P new.sinkName) :
    (routeToSinkTx new).Always (Grows P) := by
  refine always_bind always_begin fun _ =>
    always_bind (updateRecordings_grows fun _ => rfl) fun claimed => ?_
  split
  · exact always_bind always_drop fun _ => always_done
  · exact always_bind (insertDelivery_grows h) fun _ => always_bind always_commit fun _ => always_done

theorem routeToSink_grows {new : NewDelivery} (h : P new.sinkName) :
    (routeToSink new).Always (Grows P) := by
  refine always_bind (routeToSinkTx_grows h) fun claimed => ?_
  split
  · exact always_bind requireDelivery_grows fun _ => always_done
  · exact always_done

theorem manualRouteTx_grows {input : ManualRoute} (h : P input.sinkName) :
    (manualRouteTx input).Always (Grows P) := by
  refine always_bind always_begin fun _ => always_bind currentStatus_grows fun status => ?_
  split
  · exact always_fail
  · exact always_bind (insertDelivery_grows h) fun _ => always_bind guardedTransition_grows fun _ =>
      always_bind insertAuditEvent_grows fun _ => always_commit

theorem manualRoute_grows {input : ManualRoute} (h : P input.sinkName) :
    (manualRoute input).Always (Grows P) :=
  always_bind (manualRouteTx_grows h) fun _ => requireDelivery_grows

theorem manualRetryTranscription_grows {input : ManualRetryTranscription} :
    (manualRetryTranscription input).Always (Grows P) := by
  refine always_bind always_begin fun _ => always_bind currentStatus_grows fun status => ?_
  split
  · exact always_fail
  · exact always_bind guardedTransition_grows fun _ => always_bind clearRecordingError_grows fun _ =>
      always_bind (updateRecordings_grows fun _ => rfl) fun _ =>
        always_bind insertAuditEvent_grows fun _ => always_bind always_commit fun _ =>
          requireRecording_grows

theorem manualRetryDelivery_grows {input : ManualRetryDelivery} :
    (manualRetryDelivery input).Always (Grows P) := by
  refine always_bind always_begin fun _ => always_bind currentStatus_grows fun status => ?_
  split
  · exact always_fail
  · exact always_bind always_query fun _ => always_bind always_require fun _ =>
      always_bind (updateDeliveries_grows fun _ => rfl) fun _ =>
        always_bind guardedTransition_grows fun _ => always_bind clearRecordingError_grows fun _ =>
          always_bind insertAuditEvent_grows fun _ => always_bind always_commit fun _ =>
            requireDelivery_grows

theorem completeDelivery_grows {x : String} {status : DeliveryStatus} {t : Int}
    {error : Option String} : (completeDelivery x status t error).Always (Grows P) := by
  refine always_bind always_begin fun _ => always_bind recordingIdForDelivery_grows fun y =>
    always_bind (updateDeliveries_grows fun _ => rfl) fun _ => ?_
  split
  · exact always_bind (updateRecordings_grows fun _ => rfl) fun _ =>
      always_bind guardedTransition_grows fun _ => always_bind always_commit fun _ =>
        requireDelivery_grows
  · exact always_bind guardedTransition_grows fun _ => always_bind always_commit fun _ =>
      requireDelivery_grows

theorem claimReceivedTx_grows {now : Int} : (claimReceivedTx now).Always (Grows P) := by
  refine always_bind always_begin fun _ => always_bind always_query fun oldest => ?_
  split
  · exact always_bind always_drop fun _ => always_done
  · exact always_bind guardedTransition_grows fun _ => always_bind always_commit fun _ => always_done

theorem claimReceivedForTranscription_grows {now : Int} :
    (claimReceivedForTranscription now).Always (Grows P) := by
  refine always_bind claimReceivedTx_grows fun claimed => ?_
  split
  · exact always_done
  · exact always_bind requireRecording_grows fun _ => always_done

theorem startTranscriptionAttempt_grows {a x : String} {now : Int} :
    (startTranscriptionAttempt a x now).Always (Grows P) := by
  refine always_bind always_begin fun _ =>
    always_bind (claimAttempt_grows fun _ _ _ => grows_insertTranscriptionAttempt) fun number => ?_
  split
  · exact always_bind always_drop fun _ => always_done
  · exact always_bind retryAnchor_grows fun _ => always_bind always_commit fun _ => always_done

theorem startDeliveryAttempt_grows {a x : String} {now : Int} :
    (startDeliveryAttempt a x now).Always (Grows P) := by
  refine always_bind always_begin fun _ =>
    always_bind (claimAttempt_grows fun _ _ _ => grows_insertDeliveryAttempt) fun number => ?_
  split
  · exact always_bind always_drop fun _ => always_done
  · exact always_bind always_commit fun _ => always_done

theorem succeedTranscriptionTx_grows {a : String} {t : Int} {new : NewTranscript} :
    (succeedTranscriptionTx a t new).Always (Grows P) :=
  always_bind always_begin fun _ => always_bind finishTranscriptionAttempt_grows fun _ =>
    always_bind insertTranscript_grows fun _ => always_bind guardedTransition_grows fun _ =>
      always_commit

theorem retryTranscription_grows {a x code message : String} {t : Int} :
    (retryTranscription a x t code message).Always (Grows P) :=
  always_bind always_begin fun _ => always_bind finishTranscriptionAttempt_grows fun _ =>
    always_bind setRecordingError_grows fun _ => always_commit

theorem failTranscriptionTx_grows {a x code message : String} {t : Int} :
    (failTranscriptionTx a x t code message).Always (Grows P) :=
  always_bind always_begin fun _ => always_bind finishTranscriptionAttempt_grows fun _ =>
    always_bind setRecordingError_grows fun _ => always_bind guardedTransition_grows fun _ =>
      always_commit

theorem succeedDeliveryTx_grows {a x : String} {t : Int} {code : Option Int} :
    (succeedDeliveryTx a x t code).Always (Grows P) :=
  always_bind always_begin fun _ => always_bind recordingIdForDelivery_grows fun _ =>
    always_bind finishDeliveryAttempt_grows fun _ =>
      always_bind (updateDeliveries_grows fun _ => rfl) fun _ =>
        always_bind guardedTransition_grows fun _ => always_commit

theorem retryDelivery_grows {a x message : String} {t : Int} {code : Option Int} :
    (retryDelivery a x t code message).Always (Grows P) :=
  always_bind always_begin fun _ => always_bind recordingIdForDelivery_grows fun _ =>
    always_bind finishDeliveryAttempt_grows fun _ =>
      always_bind (updateDeliveries_grows fun _ => rfl) fun _ =>
        always_bind setRecordingError_grows fun _ => always_commit

theorem failDeliveryTx_grows {a x message : String} {t : Int} {code : Option Int} :
    (failDeliveryTx a x t code message).Always (Grows P) :=
  always_bind always_begin fun _ => always_bind recordingIdForDelivery_grows fun _ =>
    always_bind finishDeliveryAttempt_grows fun _ =>
      always_bind (updateDeliveries_grows fun _ => rfl) fun _ =>
        always_bind setRecordingError_grows fun _ => always_bind guardedTransition_grows fun _ =>
          always_commit

theorem recoverAbandonedAttempts_grows {now : Int} :
    (recoverAbandonedAttempts now).Always (Grows P) :=
  always_bind always_begin fun _ => always_bind (updateRecordings_grows fun _ => rfl) fun _ =>
    always_bind (always_modify fun _ => grows_of_eq rfl rfl rfl) fun _ =>
      always_bind (updateRecordings_grows fun _ => rfl) fun _ =>
        always_bind (updateRecordings_grows fun _ => rfl) fun _ =>
          always_bind (always_modify fun _ => grows_of_eq rfl rfl rfl) fun _ =>
            always_bind always_commit fun _ => always_done

end Methods
end SqliteStore

namespace Action
variable {κ : Type} {R : Store → Store → Prop} {a : Action κ} {s s' : Store} {post : κ → Prop}

/-- A step of a tick makes only statements that `R` allows and leaves the tick where
`post` holds. -/
def Within (a : Action κ) (R : Store → Store → Prop) (s : Store) (post : κ → Prop) : Prop :=
  match a with
  | .local next _ => post next
  | .store tx tolerate => (tx.Within R ⟨s, none⟩ fun r _ => post r.1) ∧
    ∀ e next, tolerate e = some next → post next

theorem within_transact {tx : Query (κ × List Event)}
    (h : tx.Within R ⟨s, none⟩ fun r _ => post r.1) : (transact tx).Within R s post :=
  ⟨h, fun _ _ he => by cases he⟩

theorem Within.run (refl : ∀ s, R s s) (trans : ∀ {s t u}, R s t → R t u → R s u)
    (h : a.Within R s post) :
    R s (a.run s).1 ∧ ∀ next events, (a.run s).2 = .ok (next, events) → post next := by
  cases a with
  | «local» next events =>
    refine ⟨refl s, fun next' events' he => ?_⟩
    cases he
    exact h
  | store tx tolerate =>
    obtain ⟨hr, -, hp⟩ := h.1.exec refl trans (refl s)
    unfold Action.run Program.run
    dsimp only
    cases he : (tx.exec ⟨s, none⟩).1 with
    | ok r =>
      refine ⟨hr, fun next events hn => ?_⟩
      cases hn
      exact hp _ he
    | error e =>
      cases ht : tolerate e with
      | none =>
        simp only [ht]
        exact ⟨hr, fun _ _ hn => by cases hn⟩
      | some next =>
        simp only [ht]
        refine ⟨hr, fun next' events hn => ?_⟩
        cases hn
        exact h.2 e _ ht

end Action

namespace Operation
open Store

/-- The Sink an operation gives a new Delivery is one that `P` allows. -/
def Selects (P : String → Prop) : Operation → Prop
  | routeToSink new | selectSink new => P new.sinkName
  | manualRoute input => P input.sinkName
  | _ => True

/-- No operation renames, reroutes or rewrites what is already there. -/
theorem apply_grows {P : String → Prop} (s : Store) (op : Operation) (h : op.Selects P) :
    s.Grows P (apply s op) := by
  have run : ∀ {α : Type} {q : Query α}, q.Always (Grows P) → s.Grows P (q.run s).1 :=
    fun hq => hq.run grows_refl Grows.trans s
  cases op with
  | createRecording new => exact run createRecording_grows
  | claimReceivedForTranscription now => exact run claimReceivedForTranscription_grows
  | startTranscriptionAttempt a x now => exact run startTranscriptionAttempt_grows
  | succeedTranscription a t new =>
    exact run (always_bind succeedTranscriptionTx_grows fun _ => requireTranscript_grows)
  | retryTranscription a x t code message => exact run retryTranscription_grows
  | failTranscription a x t code message =>
    exact run (always_bind failTranscriptionTx_grows fun _ => requireRecording_grows)
  | storeTranscript new => exact run storeTranscript_grows
  | markBacklogged x t => exact run updateRecordingStatus_grows
  | routeToSink new => exact run (routeToSink_grows h)
  | selectSink new => exact run (selectSink_grows h)
  | manualRoute input => exact run (manualRoute_grows h)
  | startDeliveryAttempt a x now => exact run startDeliveryAttempt_grows
  | succeedDelivery a x t code =>
    exact run (always_bind succeedDeliveryTx_grows fun _ => requireDelivery_grows)
  | retryDelivery a x t code message => exact run retryDelivery_grows
  | failDelivery a x t code message =>
    exact run (always_bind failDeliveryTx_grows fun _ => requireDelivery_grows)
  | markDeliveryDelivered x t => exact run completeDelivery_grows
  | markDeliveryFailed x t error => exact run completeDelivery_grows
  | manualRetryTranscription input => exact run manualRetryTranscription_grows
  | manualRetryDelivery input => exact run manualRetryDelivery_grows
  | recoverAbandonedAttempts now => exact run recoverAbandonedAttempts_grows

end Operation
end Telegraph
