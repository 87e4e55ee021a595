import Telegraph.Proofs.Durability

namespace Telegraph
open Lib Program SqliteStore Function

/-- A Recording read from the table, whatever has become of it since. -/
def Store.Recorded (s : Store) (r : Recording) : Prop :=
  ∃ q ∈ s.uploaded.recordings.rows, q.toRecording = r.asUploaded

theorem Store.recorded_of_row {s : Store} {x : String} {r : RecordingRow} (h : s.recording x = some r) :
    s.Recorded r.toRecording := ⟨r.asUploaded, Store.mem_uploaded.mpr ⟨r, (Table.find_mem h).1, rfl⟩, rfl⟩

namespace Transcription
variable {s t : Store} {pc : Pc} {supply : Supply (Except WorkerFailure TranscriptionOutput)}

/-- What the tick holds was read from the table. -/
def Pc.Holds (s : Store) : Pc → Prop
  | .loading _ _ candidates => ∀ c ∈ candidates, s.Recorded c.recording
  | .claimed _ recording _ | .started recording _ _ | .calling recording _ _
  | .answered recording _ _ _ _ => s.Recorded recording
  | .ready _ | .began _ | .confirming _ _ | .unclaimed _ | .confirmingTranscript _ | .confirmingFailure _ => True

theorem Pc.Holds.later (h : pc.Holds s)
    (hst : ∀ r ∈ s.uploaded.recordings.rows, r ∈ t.uploaded.recordings.rows) : pc.Holds t := by
  have known : ∀ {r : Recording}, s.Recorded r → t.Recorded r := fun ⟨q, hq, he⟩ => ⟨q, hst q hq, he⟩
  cases pc with
  | loading _ _ candidates => exact fun c hc => known (h c hc)
  | claimed | started | calling | answered => exact known h
  | _ => trivial

theorem record_holds {recording : Recording} {attemptId : String} {start : TranscriptionAttemptStart} {n : Int}
    {result : Except WorkerFailure TranscriptionOutput} :
    (record recording attemptId start n result).Within (fun _ _ => True) ⟨s, none⟩ fun r _ => r.1.Holds s := by
  match result with
  | .ok output => exact within_of_always (always_true _) fun _ _ => trivial
  | .error (.terminal _ _) => exact within_of_always (always_true _) fun _ _ => trivial
  | .error (.retryable _ _) =>
    unfold record
    dsimp only
    split <;> exact within_of_always (always_true _) fun _ _ => trivial

theorem action_holds (h : pc.Holds s) : (action supply pc).Within (fun _ _ => True) s (Pc.Holds s) := by
  cases pc with
  | ready last => trivial
  | began n =>
    refine Action.within_transact (within_of_always (always_true _) fun found _ => ?_)
    cases found <;> trivial
  | confirming n x => exact Action.within_transact (within_requireRecording fun r hr => Store.recorded_of_row hr)
  | unclaimed n => exact Action.within_transact fun c hc => by cases hc
  | loading n rows candidates =>
    cases rows with
    | nil =>
      unfold action
      dsimp only
      cases hp : pickDueRetry n candidates with
      | none => trivial
      | some c => exact h c (List.mem_of_find?_eq_some hp)
    | cons row rows =>
      refine Action.within_transact (within_requireRecording fun r hr c hc => ?_)
      rcases List.mem_append.mp hc with hold | hnew
      · exact h c hold
      · rw [List.mem_singleton.mp hnew]
        exact Store.recorded_of_row hr
  | claimed n recording seen =>
    refine Action.within_transact (within_of_always (always_true _) fun start _ => ?_)
    cases start with
    | none => trivial
    | some start => exact h
  | started recording a start => exact h
  | calling recording a start => exact h
  | answered recording a start n result => exact Action.within_transact record_holds
  | confirmingTranscript x => exact Action.within_transact (within_of_always (always_true _) fun _ _ => trivial)
  | confirmingFailure x => exact Action.within_transact (within_of_always (always_true _) fun _ _ => trivial)

end Transcription

namespace Service
variable {c c' : Process} {events : List Event} {route : Recording → RoutingDecision} {now : Int}
variable {input : Input Unit}

/-- After a step the Transcription worker holds what it held, or what it read. -/
theorem step_holds (hs : c.step route now input = some (c', events))
    (h : (c.transcribers ()).Holds c.store) : (c'.transcribers ()).Holds c.store := by
  obtain ⟨-, he⟩ := step_some hs
  unfold apply at he
  cases input with
  | transcribe i id reply =>
    rcases @settle_parts { c with clock := now } _ _ _ _ _ he with rfl | ⟨next, hr, rfl⟩
    · trivial
    · obtain ⟨-, hnext⟩ := (@Transcription.action_holds _ _ ⟨now, id, reply⟩ h).run (fun _ => trivial)
        fun _ _ => trivial
      have hpc : (Function.update c.transcribers i next) () = next := update_self ..
      simp only [onTranscriber, hpc]
      exact hnext next events hr
  | route i id =>
    rcases @settle_parts { c with clock := now } _ _ _ _ _ he with rfl | ⟨next, -, rfl⟩
    · trivial
    · exact h
  | deliver i id reply =>
    rcases @settle_parts { c with clock := now } _ _ _ _ _ he with rfl | ⟨next, -, rfl⟩
    · trivial
    · exact h
  | refuse | crash =>
    cases he
    trivial
  | recover =>
    cases he
    exact h
  | upload | manualRoute | manualRetryTranscription | manualRetryDelivery =>
    rw [@answer_parts { c with clock := now } _ _ _ _ _ he]
    exact h

end Service

namespace Center
variable {ι : Type} [DecidableEq ι] {config : AppConfig} {parsers : Parsers} {traffic : Traffic ι}
variable {c c' : Center ι} {route : Recording → RoutingDecision} {doing : Doing ι}
variable {turns : List (Turn (Center ι) (Doing ι))}

theorem step_holds (hs : c.step traffic route doing = some c')
    (h : (c.process.transcribers ()).Holds c.process.store) :
    (c'.process.transcribers ()).Holds c'.process.store := by
  have hst : ∀ r ∈ c.world.uploaded.recordings, r ∈ c'.world.uploaded.recordings := fun _ => step_uploads hs
  suffices (c'.process.transcribers ()).Holds c.process.store from this.later hst
  rcases step_cases hs with ⟨i, fault, t', rfl, -, -, -, rfl⟩ |
    ⟨now, input, p, events, rfl, -, -, hp, rfl⟩ | ⟨now, p, events, rfl, hp, rfl⟩ | ⟨rfl, -, rfl⟩
  · exact h
  · exact Service.step_holds hp h
  · exact Service.step_holds hp h
  · exact h

theorem run_holds
    (h : History (fun c d c' => c.step traffic route d = some c') (initial config parsers traffic) turns c) :
    (c.process.transcribers ()).Holds c.process.store :=
  @History.keeps _ _ _ _ _ _ (fun c => (c.process.transcribers ()).Holds c.process.store) h trivial
    fun _ _ _ hi hs => step_holds hs hi

/-- Upload `i` sent what is in the file, unless it was lost in the run. -/
def Sent (traffic : Traffic ι) (turns : List (Turn (Center ι) (Doing ι))) (i : ι) (file : Option Bytes) : Prop :=
  (∃ audio, audioOf (traffic.request i).multipart.fields = some audio ∧ file = some audio) ∨
    RowLost traffic turns i

omit [DecidableEq ι] in
theorem Sent.later {i : ι} {file : Option Bytes} {more : List (Turn (Center ι) (Doing ι))}
    (h : Sent traffic turns i file) : Sent traffic (turns ++ more) i file :=
  h.imp_right fun ⟨t, ht, hl⟩ => ⟨t, List.mem_append_left _ ht, hl⟩

omit [DecidableEq ι] in
/-- The file of a Recording that was read is what its Client sent. -/
theorem Kept.sent (h : c.Kept config parsers traffic (RowLost traffic turns)) {recording : Recording}
    (hr : c.process.store.Recorded recording) : ∃ i path, recording.id = idOf traffic i ∧
      (traffic.request i).key config = some (recording.clientId, recording.clientRecordingId) ∧
      recording.blobPath = some path ∧ Sent traffic turns i (c.files path) := by
  obtain ⟨q, hq, he⟩ := hr
  obtain ⟨i, hreg, hst⟩ := h.rows q hq
  have hid : q.id = recording.asUploaded.id := congrArg Recording.id he
  have hkey := congrArg (fun r : Recording => (r.clientId, r.clientRecordingId)) he
  have hpath : q.blobPath = recording.asUploaded.blobPath := congrArg Recording.blobPath he
  refine ⟨i, _, hid.symm.trans hreg.rowId, hreg.rowKey.trans (congrArg some hkey),
    hpath.symm.trans hreg.rowPath, ?_⟩
  by_cases hlost : RowLost traffic turns i
  · exact .inr hlost
  · exact .inl (hst hlost).audio

/-- Whenever the provider is called, at the first attempt or a later one and across
crashes and restarts, the file it is given is what the Client of the Recording sent, unless
that upload's `SELECT` failed after its `INSERT`. -/
theorem provider_hears_upload (hids : Injective (idOf traffic)) (hslash : ∀ i, '/' ∉ (idOf traffic i).toList)
    (h : History (fun c d c' => c.step traffic route d = some c') (initial config parsers traffic) turns c)
    {recording : Recording} {attemptId : String} {start : TranscriptionAttemptStart}
    (hpc : c.process.transcribers () = .calling recording attemptId start) :
    ∃ i path, recording.id = idOf traffic i ∧
      (traffic.request i).key config = some (recording.clientId, recording.clientRecordingId) ∧
      recording.blobPath = some path ∧ Sent traffic turns i (c.files path) := by
  have hholds := run_holds h
  rw [hpc] at hholds
  exact (run_kept hids hslash h).sent hholds

section Sample

/-- The upload that went through is transcribed after the restart. -/
def brokenOffHeard : List (Doing Bool) :=
  brokenOff ++ (Service.everySecond 5 1 (.transcribe () "t1" (.error (.retryable "503" "busy")))).map fun q =>
    .serve q.1 q.2

def calledFor (c : Center Bool) : Option Recording :=
  match c.process.transcribers () with
  | .calling recording _ _ => some recording
  | _ => none

theorem calling_of_calledFor {c : Center Bool} {recording : Recording} (h : calledFor c = some recording) :
    ∃ attemptId start, c.process.transcribers () = .calling recording attemptId start := by
  unfold calledFor at h
  split at h
  · next r a start hpc =>
    cases h
    exact ⟨a, start, hpc⟩
  · cases h

theorem broken_off_heard : ∃ turns c recording,
    History (fun c d c' => c.step twoUploads Service.toNotes d = some c')
      (initial Uploads.sampleConfig Uploads.noParsers twoUploads) turns c ∧
    calledFor c = some recording ∧ ∃ audio path, recording.blobPath = some path ∧ c.files path = some audio ∧
      audioOf Uploads.sampleRequest.multipart.fields = some audio := by
  have hp : (History.play (step twoUploads Service.toNotes)
      (initial Uploads.sampleConfig Uploads.noParsers twoUploads) brokenOffHeard).map (fun p =>
        (p.1.all fun t => t.what.answered, (calledFor p.2).isSome)) = some (true, true) := by
    decide +kernel
  obtain ⟨⟨turns, c⟩, hplay, hseen⟩ := Option.map_eq_some_iff.mp hp
  simp only [Prod.mk.injEq, List.all_eq_true] at hseen
  obtain ⟨recording, hrec⟩ := Option.isSome_iff_exists.mp hseen.2
  obtain ⟨attemptId, start, hpc⟩ := calling_of_calledFor hrec
  obtain ⟨i, path, -, -, hpath, ⟨audio, ha, hf⟩ | hlost⟩ :=
    provider_hears_upload twoUploads_ids twoUploads_slashless (History.of_play hplay) hpc
  · exact ⟨turns, c, recording, History.of_play hplay, hrec, audio, path, hpath, hf, ha⟩
  · exact absurd hlost (not_rowLost (keeps_of_answered hseen.1) i)

/-- An upload whose `SELECT` fails after its `INSERT`, and the tick that comes to it. -/
def lostHeard : List (Doing Bool) :=
  .serve 0 .recover :: List.replicate 8 (.upload true none) ++
    [.upload true (some 0), .upload true none, .upload true none] ++
    (Service.everySecond 5 1 (.transcribe () "t1" (.error (.retryable "503" "busy")))).map fun q =>
      .serve q.1 q.2

/-- Its Recording is there and its file is gone, and the provider is called for it. -/
theorem lost_unheard : ∃ turns c recording path,
    History (fun c d c' => c.step twoUploads Service.toNotes d = some c')
      (initial Uploads.sampleConfig Uploads.noParsers twoUploads) turns c ∧
    calledFor c = some recording ∧ recording.blobPath = some path ∧ c.files path = none := by
  have hp : (History.play (step twoUploads Service.toNotes)
      (initial Uploads.sampleConfig Uploads.noParsers twoUploads) lostHeard).map (fun p =>
        ((calledFor p.2).bind (·.blobPath), p.2.files (BlobStore.relativePath "rec-1"))) =
      some (some (BlobStore.relativePath "rec-1"), none) := by
    decide +kernel
  obtain ⟨⟨turns, c⟩, hplay, hseen⟩ := Option.map_eq_some_iff.mp hp
  obtain ⟨hcalled, hgone⟩ := Prod.mk.inj hseen
  obtain ⟨recording, hrec, hpath⟩ := Option.bind_eq_some_iff.mp hcalled
  exact ⟨turns, c, recording, _, History.of_play hplay, hrec, hpath, hgone⟩

end Sample
end Center
end Telegraph
