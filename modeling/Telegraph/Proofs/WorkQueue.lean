import Telegraph.Proofs.Methods

namespace Telegraph
open Lib Program

namespace Attempt
variable {δ : Type}

theorem anyInFlight_false {rows : List (Attempt δ)} :
    anyInFlight rows = false ↔ ∀ a ∈ rows, a.finishedAt ≠ none := by
  simp [anyInFlight]

theorem earliestStart_append {rows : List (Attempt δ)} {a : Attempt δ} :
    ∃ t, earliestStart (rows ++ [a]) = some t := by
  unfold earliestStart
  rw [List.foldl_append]
  generalize List.foldl _ none rows = best
  cases best with
  | none => exact ⟨_, rfl⟩
  | some b =>
    by_cases h : Timestamp.TextLt (Timestamp.format a.startedAt) (Timestamp.format b)
    · exact ⟨a.startedAt, by simp [h]⟩
    · exact ⟨b, by simp [h]⟩

end Attempt

namespace Store
variable {s : Store} {status : RecordingStatus}

theorem mem_sorted_status {r : RecordingRow} :
    r ∈ (s.recordings.rows.filter (·.status == status)).insertionSort OldestFirst ↔
      r ∈ s.recordings.rows ∧ r.status = status := by
  rw [List.mem_insertionSort, List.mem_filter, beq_iff_eq]

theorem oldestWithStatus_some {x : String} (h : s.oldestWithStatus status = some x) :
    ∃ r, s.recording x = some r ∧ r.status = status := by
  obtain ⟨r, hr, rfl⟩ := Option.map_eq_some_iff.mp h
  obtain ⟨hm, hst⟩ := mem_sorted_status.mp (List.mem_of_mem_head? hr)
  exact ⟨r, recording_of_mem hm, hst⟩

theorem oldestWithStatus_none (h : s.oldestWithStatus status = none) :
    ∀ x r, s.recording x = some r → r.status ≠ status := by
  intro x r hr hst
  have hm := mem_sorted_status.mpr ⟨(Table.find_mem hr).1, hst⟩
  rw [List.head?_eq_none_iff.mp (Option.map_eq_none_iff.mp h)] at hm
  cases hm

theorem insertTranscriptionAttempt_error {a : TranscriptionAttempt} {e : StorageError}
    (h : s.insertTranscriptionAttempt a = .error e) :
    e = .database .unique ∨ s.recording a.parentId = none := by
  unfold insertTranscriptionAttempt checked at h
  split at h
  · cases h
    exact Or.inl rfl
  · split at h
    · cases h
    · rename_i hp
      exact Or.inr (by simpa using hp)

theorem insertDeliveryAttempt_error {a : DeliveryAttempt} {e : StorageError}
    (h : s.insertDeliveryAttempt a = .error e) :
    e = .database .unique ∨ s.delivery a.parentId = none := by
  unfold insertDeliveryAttempt checked at h
  split at h
  · cases h
    exact Or.inl rfl
  · split at h
    · cases h
    · rename_i hp
      exact Or.inr (by simpa using hp)

end Store

namespace SqliteStore
variable {s : Store}

theorem claimReceivedTx_transacts {now : Int} :
    (claimReceivedTx now).Transacts s
      (fun o s' => (o = none ∧ s' = s ∧ ∀ x r, s.recording x = some r → r.status ≠ .received) ∨
        ∃ x r, o = some x ∧ s.recording x = some r ∧ r.status = .received ∧
          s'.view = s.view.withRecording (r.moved .transcribing now))
      fun _ => False := by
  apply ensures_begin
  apply ensures_query
  split
  · rename_i h
    apply ensures_drop
    exact ⟨rfl, Or.inl ⟨rfl, rfl, Store.oldestWithStatus_none h⟩⟩
  · rename_i x h
    obtain ⟨r, hr, hst⟩ := Store.oldestWithStatus_some h
    apply ensures_guardedTransition
    · intro hn
      rw [hn] at hr
      cases hr
    · intro q hq hc
      obtain rfl := Option.some.inj (hr.symm.trans hq)
      rw [hst] at hc
      cases hc
    · intro q w hq _ hw
      obtain rfl := Option.some.inj (hr.symm.trans hq)
      apply ensures_commit
      exact ⟨rfl, Or.inr ⟨x, r, rfl, hr, hst, hw⟩⟩

theorem claimReceivedForTranscription_transacts {now : Int} :
    (claimReceivedForTranscription now).Transacts s
      (fun _ s' => s' = s ∨ ∃ x r, s.recording x = some r ∧ r.status = .received ∧
        s'.view = s.view.withRecording (r.moved .transcribing now))
      fun _ => True := by
  apply (claimReceivedTx_transacts.weaken (fun _ _ => id) fun _ _ => trivial).andThen
  rintro o s' (⟨rfl, hs, _⟩ | ⟨x, r, rfl, hr, hst, hv⟩)
  · exact ⟨rfl, Or.inl hs⟩
  · have hr' := (recording_eq hv r.id).trans
      (View.recording_withRecording _ (r.moved .transcribing now))
    rw [Store.recording_id hr] at hr'
    apply ensures_then
    exact ensures_requireRecording hr' ⟨rfl, Or.inr ⟨x, r, hr, hst, hv⟩⟩

/-- The number the next attempt of a parent gets. -/
def nextNumber {δ : Type} (t : AttemptTable δ) (parent : String) : Nat :=
  (t.lastNumber parent).getD 0 + 1

theorem ensures_claimAttempt {δ α : Type} {attempts : Store → AttemptTable δ}
    {insert : Store → Attempt δ → Except StorageError Store} {a parent : String} {now : Int}
    {s w : Store} {f : Option Nat → Query α} {ok : α → Connection Store → Prop}
    {bad : StorageError → Connection Store → Prop}
    (hlost : (attempts w).inFlight parent = true → (f none).Ensures ⟨s, some w⟩ ok bad)
    (he : ∀ e, insert w (AttemptTable.started a parent (nextNumber (attempts w) parent) now) =
      .error e → bad e ⟨s, some w⟩)
    (hs : ∀ w', (attempts w).inFlight parent = false →
      insert w (AttemptTable.started a parent (nextNumber (attempts w) parent) now) = .ok w' →
      (f (some (nextNumber (attempts w) parent))).Ensures ⟨s, some w'⟩ ok bad) :
    ((claimAttempt attempts insert a parent now).bind f).Ensures ⟨s, some w⟩ ok bad := by
  apply ensures_then
  apply ensures_query
  split
  · rename_i h
    exact hlost h
  · rename_i h
    apply ensures_query
    apply ensures_attempt
    · exact he
    · intro w' hw'
      exact hs w' (by simpa using h) hw'

theorem ensures_retryAnchor {α : Type} {x : String} {s w : Store} {r : RecordingRow}
    {f : Int → Query α} {ok : α → Connection Store → Prop}
    {bad : StorageError → Connection Store → Prop} (hr : w.recording x = some r)
    (hm : ∃ t, Attempt.earliestStart (w.transcriptionAttempts.attemptsOf x) = some t)
    (hs : ∀ first, r.retryWindowStartedAt.or
        (Attempt.earliestStart (w.transcriptionAttempts.attemptsOf x)) = some first →
      (f first).Ensures ⟨s, some w⟩ ok bad) :
    ((retryAnchor x).bind f).Ensures ⟨s, some w⟩ ok bad := by
  apply ensures_then
  apply ensures_query
  rw [hr]
  simp only [require, bind_eq, Program.bind]
  cases hwin : r.retryWindowStartedAt with
  | some window => exact hs window (by rw [hwin]; rfl)
  | none =>
    apply ensures_query
    apply ensures_require_last
    · intro hn
      obtain ⟨t, ht⟩ := hm
      exact absurd (ht.symm.trans hn) (by simp)
    · intro first hfirst
      exact hs first (by rw [hwin]; exact hfirst)

theorem startTranscriptionAttempt_transacts {a x : String} {now : Int} :
    (startTranscriptionAttempt a x now).Transacts s
      (fun o s' =>
        (o = none ∧ s' = s ∧ s.transcriptionAttempts.inFlight x = true) ∨
        ∃ r first, o = some ⟨nextNumber s.transcriptionAttempts x, first⟩ ∧
          s.recording x = some r ∧ s.transcriptionAttempts.inFlight x = false ∧
          (∀ y, ∀ b ∈ s.transcriptionAttempts.attemptsOf y, b.id ≠ a) ∧
          s'.view = s.view.withTranscriptionAttempt
            (AttemptTable.started a x (nextNumber s.transcriptionAttempts x) now) ∧
          r.retryWindowStartedAt.or (Attempt.earliestStart (s'.transcriptionAttempts.attemptsOf x)) =
            some first)
      fun e => e = .database .unique ∨ s.recording x = none := by
  apply ensures_begin
  apply ensures_claimAttempt
  · intro h
    apply ensures_drop
    exact ⟨rfl, Or.inl ⟨rfl, rfl, h⟩⟩
  · intro e he
    exact ⟨rfl, Store.insertTranscriptionAttempt_error he⟩
  intro w hfree hw
  obtain ⟨hv, hfresh, hr⟩ := Store.insertTranscriptionAttempt_ok hw
  obtain ⟨r, hr⟩ := Option.isSome_iff_exists.mp hr
  have hrw : w.recording x = some r := (recording_eq hv x).trans hr
  have hrows : w.transcriptionAttempts.attemptsOf x = s.transcriptionAttempts.attemptsOf x ++
      [AttemptTable.started a x (nextNumber s.transcriptionAttempts x) now] := by
    have := congrFun (congrArg View.transcriptionAttempts hv) x
    exact this.trans (Function.update_self ..)
  apply ensures_retryAnchor hrw
  · rw [hrows]
    exact Attempt.earliestStart_append
  intro first hfirst
  apply ensures_commit
  exact ⟨rfl, Or.inr ⟨r, first, rfl, hr, hfree, hfresh, hv, hfirst⟩⟩

theorem startDeliveryAttempt_transacts {a x : String} {now : Int} :
    (startDeliveryAttempt a x now).Transacts s
      (fun o s' =>
        (o = none ∧ s' = s ∧ s.deliveryAttempts.inFlight x = true) ∨
        ∃ d, o = some (nextNumber s.deliveryAttempts x) ∧
          s.delivery x = some d ∧ s.deliveryAttempts.inFlight x = false ∧
          (∀ y, ∀ b ∈ s.deliveryAttempts.attemptsOf y, b.id ≠ a) ∧
          s'.view = s.view.withDeliveryAttempt
            (AttemptTable.started a x (nextNumber s.deliveryAttempts x) now))
      fun e => e = .database .unique ∨ s.delivery x = none := by
  apply ensures_begin
  apply ensures_claimAttempt
  · intro h
    apply ensures_drop
    exact ⟨rfl, Or.inl ⟨rfl, rfl, h⟩⟩
  · intro e he
    exact ⟨rfl, Store.insertDeliveryAttempt_error he⟩
  intro w hfree hw
  obtain ⟨hv, hfresh, hd⟩ := Store.insertDeliveryAttempt_ok hw
  obtain ⟨d, hd⟩ := Option.isSome_iff_exists.mp hd
  apply ensures_commit
  exact ⟨rfl, Or.inr ⟨d, rfl, hd, hfree, hfresh, hv⟩⟩

/-- An attempt row after recovery at `now`. -/
def abandoned {δ : Type} (now : Int) (detail : Attempt δ → Option δ) (a : Attempt δ) : Attempt δ :=
  if a.finishedAt.isNone then a.finished now .failed true (detail a) (some abandonedMessage) else a

/-- Whether recovery gives a claim back: `transcribing` with no attempt on record. -/
def Unstarted (s : Store) (r : RecordingRow) : Bool :=
  r.status == .transcribing && (s.transcriptionAttempts.attemptsOf r.id).isEmpty

def closeTranscriptions (now : Int) (s : Store) : Store :=
  (s.setError (fun r => s.transcriptionAttempts.inFlight r.id) abandonedMessage now)
    |>.finishTranscriptions (·.finishedAt.isNone) now .failed true (fun _ => some "abandoned")
      (some abandonedMessage)

def revertClaims (now : Int) (s : Store) : Store := s.setStatus (Unstarted s) .received now

def closeDeliveries (now : Int) (s : Store) : Store :=
  (s.setError (fun r => s.deliveries.rows.any fun d => d.recordingId == r.id &&
      s.deliveryAttempts.inFlight d.id) abandonedMessage now)
    |>.finishDeliveries (·.finishedAt.isNone) now .failed true (·.detail) (some abandonedMessage)

def recovered (now : Int) (s : Store) : Store :=
  closeDeliveries now (revertClaims now (closeTranscriptions now s))

/-- Recovery has no branch and no way to fail. -/
theorem recover_run (now : Int) (s : Store) :
    (recoverAbandonedAttempts now).run s = (recovered now s, .ok
      ⟨s.transcriptionAttempts.count (·.finishedAt.isNone),
        (closeTranscriptions now s).recordings.count (Unstarted (closeTranscriptions now s)),
        s.deliveryAttempts.count (·.finishedAt.isNone)⟩) :=
  rfl

/-- What recovery may do to a Recording row. -/
def Recovers (s : Store) (f : RecordingRow → RecordingRow) : Prop :=
  ∀ r, ∃ e u, f r = { r with
    latestError := e
    updatedAt := u
    status := if Unstarted s r = true then .received else r.status }

theorem annotates_erred {p : RecordingRow → Bool} {message : String} {t : Int} :
    Annotates fun r => if p r then r.erred message t else r := by
  intro r
  dsimp only
  split
  · exact ⟨_, _, rfl⟩
  · exact ⟨r.latestError, r.updatedAt, rfl⟩

theorem setError_view (s : Store) (p : RecordingRow → Bool) (message : String) (t : Int) :
    ∃ g, Annotates g ∧ (s.setError p message t).view = s.view.mapRecordings g :=
  ⟨_, annotates_erred, Store.view_mapRecordings fun _ => rfl⟩

theorem closeTranscriptions_view (now : Int) (s : Store) :
    ∃ g, Annotates g ∧ (closeTranscriptions now s).view =
      (s.view.mapRecordings g).mapTranscriptionAttempts (abandoned now fun _ => some "abandoned") := by
  obtain ⟨g, hg, hv⟩ := setError_view s (fun r => s.transcriptionAttempts.inFlight r.id)
    abandonedMessage now
  refine ⟨g, hg, ?_⟩
  unfold closeTranscriptions
  rw [Store.view_finishTranscriptions, hv]
  rfl

theorem closeDeliveries_view (now : Int) (s : Store) :
    ∃ g, Annotates g ∧ (closeDeliveries now s).view =
      (s.view.mapRecordings g).mapDeliveryAttempts (abandoned now (·.detail)) := by
  obtain ⟨g, hg, hv⟩ := setError_view s (fun r => s.deliveries.rows.any fun d =>
    d.recordingId == r.id && s.deliveryAttempts.inFlight d.id) abandonedMessage now
  refine ⟨g, hg, ?_⟩
  unfold closeDeliveries
  rw [Store.view_finishDeliveries, hv]
  rfl

theorem unstarted_close {now : Int} {r q : RecordingRow} (hid : q.id = r.id)
    (hst : q.status = r.status) : Unstarted (closeTranscriptions now s) q = Unstarted s r := by
  obtain ⟨g, _, hv⟩ := closeTranscriptions_view now s
  have hrows := congrFun (congrArg View.transcriptionAttempts hv) r.id
  change (closeTranscriptions now s).transcriptionAttempts.attemptsOf r.id =
    (s.transcriptionAttempts.attemptsOf r.id).map _ at hrows
  simp only [Unstarted, hid, hst, hrows, List.isEmpty_map]

theorem recovered_view (now : Int) (s : Store) :
    ∃ f, Recovers s f ∧ (recovered now s).view =
      ((s.view.mapRecordings f).mapTranscriptionAttempts
        (abandoned now fun _ => some "abandoned")).mapDeliveryAttempts
          (abandoned now (·.detail)) := by
  obtain ⟨g, hg, hv⟩ := closeTranscriptions_view now s
  obtain ⟨k, hk, hw⟩ := closeDeliveries_view now (revertClaims now (closeTranscriptions now s))
  have hr : (revertClaims now (closeTranscriptions now s)).view =
      (closeTranscriptions now s).view.mapRecordings fun r =>
        if Unstarted (closeTranscriptions now s) r then r.moved .received now else r :=
    Store.view_mapRecordings fun _ => rfl
  refine ⟨fun r => k (if Unstarted s r then (g r).moved .received now else g r), ?_, ?_⟩
  · intro r
    obtain ⟨e, u, hge⟩ := hg r
    dsimp only
    split
    · obtain ⟨e', u', hke⟩ := hk ((g r).moved .received now)
      exact ⟨e', u', by rw [hke, hge]; rfl⟩
    · obtain ⟨e', u', hke⟩ := hk (g r)
      exact ⟨e', u', by rw [hke, hge]⟩
  · unfold recovered
    rw [hw, hr, hv]
    simp only [View.mapRecordings, View.mapTranscriptionAttempts, View.mapDeliveryAttempts,
      Option.map_map]
    congr
    funext x
    congr
    funext r
    simp only [Function.comp_apply, unstarted_close (hg.id_eq r) (hg.status_eq r)]

end SqliteStore
end Telegraph
