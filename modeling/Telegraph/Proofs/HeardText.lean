import Telegraph.Proofs.HeardAudio
import Telegraph.Proofs.RoutesHome

namespace Telegraph
open Lib Program SqliteStore Function

namespace Store
variable {Q : Transcript → Prop} {s t u : Store}

/-- Every Transcript of `t` was there before, or is one that `Q` allows. -/
def TextsFrom (Q : Transcript → Prop) (s t : Store) : Prop :=
  ∀ r ∈ t.transcripts.rows, r ∈ s.transcripts.rows ∨ Q r

theorem textsFrom_refl (s : Store) : TextsFrom Q s s := fun _ => .inl

theorem TextsFrom.trans (h : TextsFrom Q s t) (k : TextsFrom Q t u) : TextsFrom Q s u :=
  fun r hr => (k r hr).elim (h r) .inr

theorem textsFrom_of_eq (h : t.transcripts = s.transcripts) : TextsFrom Q s t := fun _ hr => .inl (h ▸ hr)

theorem textsFrom_insertTranscript {new : Transcript} (hQ : Q new) (h : s.insertTranscript new = .ok t) :
    TextsFrom Q s t := by
  obtain ⟨grown, hi, -, rfl⟩ := Store.checked_ok h
  intro r hr
  change r ∈ grown.rows at hr
  rw [(Table.insert_some hi).1] at hr
  rcases List.mem_append.mp hr with hold | hnew
  · exact .inl hold
  · exact .inr (List.mem_singleton.mp hnew ▸ hQ)

theorem insertRecording_frame {r : RecordingRow} {n : Nat} (h : s.insertRecording r = .ok (t, n)) :
    t.transcripts = s.transcripts := by
  unfold insertRecording at h
  split at h
  · cases h
    rfl
  · split at h <;> cases h
    rfl

theorem overlooks_textsFrom : Overlooks (TextsFrom Q) where
  elsewhere _ := textsFrom_of_eq
  columns _ := textsFrom_of_eq rfl

end Store

section Ticks
open Store
variable {Q : Transcript → Prop} {s : Store}

theorem Action.within_always {κ : Type} {R : Store → Store → Prop} {tx : Query (κ × List Event)}
    (h : tx.Always R) : (transact tx).Within R s fun _ => True := Action.within_transact (h _)

theorem Action.within_reads {κ α : Type} {R : Store → Store → Prop} {post : κ → Prop} {q : Query α}
    {f : α → κ × List Event} (h : q.Reads) (hp : ∀ a, post (f a).1) :
    (transact (do let a ← q; pure (f a))).Within R s post :=
  Action.within_transact (within_of_always h.always fun a _ => hp a)

/-- The Transcript that the next step of the tick may write. -/
def Transcription.Pc.Tells : Transcription.Pc → Transcript → Prop
  | .answered recording _ _ finishedAt (.ok output), r => r = Transcription.newTranscript recording output finishedAt
  | _, _ => False

/-- The Transcript made of what the provider says in the next step. -/
def Transcription.Pc.Hears (supply : Supply (Except WorkerFailure TranscriptionOutput)) (pc : Transcription.Pc)
    (r : Transcript) : Prop :=
  ∃ output recording attemptId start, supply.answer = .ok output ∧ pc = .calling recording attemptId start ∧
    r = Transcription.newTranscript recording output supply.now

/-- A step writes the Transcript it holds, and comes to hold one by hearing it. -/
theorem Transcription.action_texts {supply : Supply (Except WorkerFailure TranscriptionOutput)}
    {pc : Transcription.Pc} : (Transcription.action supply pc).Within (TextsFrom pc.Tells) s
      fun next => ∀ r, next.Tells r → pc.Hears supply r := by
  have ho : Overlooks (TextsFrom pc.Tells) := overlooks_textsFrom
  cases pc with
  | ready last => exact fun _ h => h.elim
  | began n =>
    refine Action.within_transact (within_of_always ho.permits.claimReceivedTx fun found _ => ?_)
    cases found <;> exact fun _ h => h.elim
  | confirming n x => exact Action.within_reads requireRecording_reads fun _ _ h => h.elim
  | unclaimed n => exact Action.within_reads reads_query fun _ _ h => h.elim
  | loading n rows candidates =>
    cases rows with
    | nil =>
      unfold action
      dsimp only
      split <;> exact fun _ h => h.elim
    | cons row rows => exact Action.within_reads requireRecording_reads fun _ _ h => h.elim
  | claimed n recording seen =>
    refine Action.within_transact (within_of_always ho.permits.startTranscriptionAttempt fun start _ => ?_)
    cases start <;> exact fun _ h => h.elim
  | started recording a start => exact fun _ h => h.elim
  | calling recording a start =>
    intro r h
    cases ha : supply.answer with
    | error e =>
      rw [ha] at h
      exact h.elim
    | ok output =>
      rw [ha] at h
      exact ⟨output, recording, a, start, ha, rfl, h⟩
  | answered recording a start n result =>
    refine Action.within_transact ?_
    cases result with
    | ok output =>
      exact within_of_always (ho.permits.succeedTranscriptionTx fun _ _ => textsFrom_insertTranscript rfl)
        fun _ _ _ h => h.elim
    | error failure =>
      cases failure with
      | terminal code message =>
        exact within_of_always ho.permits.failTranscriptionTx fun _ _ _ h => h.elim
      | retryable code message =>
        unfold record
        dsimp only
        split
        · exact within_of_always ho.permits.failTranscriptionTx fun _ _ _ h => h.elim
        · exact within_of_always ho.permits.retryTranscription fun _ _ _ h => h.elim
  | confirmingTranscript x => exact Action.within_reads requireTranscript_reads fun _ _ h => h.elim
  | confirmingFailure x => exact Action.within_reads requireRecording_reads fun _ _ h => h.elim

theorem Routing.action_texts {route : Recording → RoutingDecision} {supply : Supply Unit} {pc : Routing.Pc} :
    (Routing.action route supply pc).Within (TextsFrom Q) s fun _ => True := by
  have ho : Overlooks (TextsFrom Q) := overlooks_textsFrom
  cases pc with
  | ready last => trivial
  | began now =>
    exact Action.within_always (always_bind always_query fun oldest => by cases oldest <;> exact always_done)
  | confirming now x => exact Action.within_reads requireRecording_reads fun _ => trivial
  | deciding now recording =>
    unfold action
    dsimp only
    split <;> trivial
  | backlogging now x => exact ⟨always_bind ho.permits.markBackloggedTx (fun _ => always_done) _, fun _ _ _ => trivial⟩
  | selecting now x name =>
    exact Action.within_always (always_bind ho.permits.routeToSinkTx fun claimed => by
      cases claimed <;> exact always_done)
  | confirmingBacklog x => exact Action.within_reads requireRecording_reads fun _ => trivial
  | confirmingDelivery x => exact Action.within_reads requireDelivery_reads fun _ => trivial

theorem Delivering.action_texts {supply : Supply (Except WorkerFailure Unit)} {pc : Delivering.Pc} :
    (Delivering.action supply pc).Within (TextsFrom Q) s fun _ => True := by
  have ho : Overlooks (TextsFrom Q) := overlooks_textsFrom
  cases pc with
  | ready last => trivial
  | began n => exact Action.within_reads reads_query fun _ => trivial
  | loading n rows candidates =>
    cases rows with
    | nil =>
      unfold action
      dsimp only
      split <;> trivial
    | cons row rows => exact Action.within_reads requireDelivery_reads fun _ => trivial
  | loadingRecording n row rows candidates delivery =>
    exact Action.within_reads requireRecording_reads fun _ => trivial
  | loadingTranscript n row rows candidates delivery recording =>
    exact Action.within_reads requireTranscript_reads fun _ => trivial
  | claimed n candidate =>
    exact Action.within_always (always_bind ho.permits.startDeliveryAttempt fun number => by
      cases number <;> exact always_done)
  | started candidate a => trivial
  | calling candidate a => trivial
  | answered candidate a n result =>
    refine Action.within_always ?_
    cases result with
    | ok _ => exact always_bind ho.permits.succeedDeliveryTx fun _ => always_done
    | error failure =>
      cases failure with
      | terminal code message => exact always_bind ho.permits.failDeliveryTx fun _ => always_done
      | retryable code message =>
        unfold record
        dsimp only
        split
        · exact always_bind ho.permits.failDeliveryTx fun _ => always_done
        · exact always_bind ho.permits.retryDelivery fun _ => always_done
  | confirming x => exact Action.within_reads requireDelivery_reads fun _ => trivial

end Ticks

namespace Service
variable {c c' : Process} {trace events : List Event} {route : Recording → RoutingDecision} {now : Int}
variable {input : Input Unit}

/-- Only the tick that has its answer writes a Transcript. -/
theorem step_texts (hs : c.step route now input = some (c', events)) :
    Store.TextsFrom (c.transcribers ()).Tells c.store c'.store := by
  have run : ∀ {α : Type} {q : Query α}, q.Always (Store.TextsFrom (c.transcribers ()).Tells) →
      Store.TextsFrom (c.transcribers ()).Tells c.store (q.run c.store).1 :=
    fun hq => hq.run Store.textsFrom_refl Store.TextsFrom.trans c.store
  have ho : Overlooks (Store.TextsFrom (c.transcribers ()).Tells) := Store.overlooks_textsFrom
  obtain ⟨-, he⟩ := step_some hs
  unfold apply at he
  cases input with
  | transcribe i id answer =>
    rw [@settle_store { c with clock := now } _ _ _ (onTranscriber · i) _ he fun _ _ => rfl]
    exact (Transcription.action_texts.run Store.textsFrom_refl Store.TextsFrom.trans).1
  | route i id =>
    rw [@settle_store { c with clock := now } _ _ _ (onRouter · i) _ he fun _ _ => rfl]
    exact (Routing.action_texts.run Store.textsFrom_refl Store.TextsFrom.trans).1
  | deliver i id answer =>
    rw [@settle_store { c with clock := now } _ _ _ (onDeliverer · i) _ he fun _ _ => rfl]
    exact (Delivering.action_texts.run Store.textsFrom_refl Store.TextsFrom.trans).1
  | upload new =>
    rw [@answer_store { c with clock := now } _ _ _ _ _ he]
    exact run (always_execute fun s t n ht => Store.textsFrom_of_eq (Store.insertRecording_frame ht))
  | manualRoute input =>
    rw [@answer_store { c with clock := now } _ _ _ _ _ he]
    exact run ho.manualRoute
  | manualRetryTranscription input =>
    rw [@answer_store { c with clock := now } _ _ _ _ _ he]
    exact run ho.manualRetryTranscription
  | manualRetryDelivery input =>
    rw [@answer_store { c with clock := now } _ _ _ _ _ he]
    exact run ho.manualRetryDelivery
  | refuse | crash =>
    cases he
    exact Store.textsFrom_refl _
  | recover =>
    cases he
    exact run ho.recoverAbandonedAttempts

/-- What the Delivery worker holds was read from rows that are still there. -/
theorem Run.backed (hr : Run route trace c) : (c.deliverers ()).Backed c.store := by
  suffices c.Homed fun _ => True from this.deliverers ()
  induction hr with
  | start => exact initial_homed
  | @step trace events c c' now input _ _ hs ih =>
    obtain ⟨-, he⟩ := step_some hs
    have hclock : ({ c with clock := now } : Process).Homed fun _ => True := ⟨ih.targets, ih.routers, ih.deliverers⟩
    have happ := @Homed.apply _ _ _ _ route hclock (fun _ _ _ => trivial) now input fun _ _ => trivial
    rwa [he] at happ

/-- The worker holds the Transcript that it held, or that it has just heard. -/
theorem step_tells (hs : c.step route now input = some (c', events)) {r : Transcript}
    (h : (c'.transcribers ()).Tells r) : (c.transcribers ()).Tells r ∨
      ∃ drawn answer, input = .transcribe () drawn answer ∧ (c.transcribers ()).Hears ⟨now, drawn, answer⟩ r := by
  obtain ⟨-, he⟩ := step_some hs
  unfold apply at he
  cases input with
  | transcribe i drawn answer =>
    rcases @settle_parts { c with clock := now } _ _ _ _ _ he with rfl | ⟨next, hr, rfl⟩
    · exact h.elim
    · have hpc : (Function.update c.transcribers i next) () = next := update_self ..
      simp only [onTranscriber, hpc] at h
      exact .inr ⟨drawn, answer, rfl,
        (Transcription.action_texts.run Store.textsFrom_refl Store.TextsFrom.trans).2 next events hr r h⟩
  | route i id =>
    rcases @settle_parts { c with clock := now } _ _ _ _ _ he with rfl | ⟨next, -, rfl⟩
    · exact h.elim
    · exact .inl h
  | deliver i id answer =>
    rcases @settle_parts { c with clock := now } _ _ _ _ _ he with rfl | ⟨next, -, rfl⟩
    · exact h.elim
    · exact .inl h
  | refuse | crash =>
    cases he
    exact h.elim
  | recover =>
    cases he
    exact .inl h
  | upload | manualRoute | manualRetryTranscription | manualRetryDelivery =>
    rw [@answer_parts { c with clock := now } _ _ _ _ _ he] at h
    exact .inl h

end Service

namespace Center
variable {ι : Type} [DecidableEq ι] {config : AppConfig} {parsers : Parsers} {traffic : Traffic ι}
variable {c c' : Center ι} {route : Recording → RoutingDecision} {doing : Doing ι}
variable {turns more : List (Turn (Center ι) (Doing ι))}

/-- The provider, called for the Recording over this file, gave this output. -/
def Heard (turns : List (Turn (Center ι) (Doing ι))) (recordingId : String) (file : Option Bytes)
    (output : TranscriptionOutput) : Prop :=
  ∃ t ∈ turns, ∃ now drawn recording attemptId start path,
    t.what = .serve now (.transcribe () drawn (.ok output)) ∧
    t.before.process.transcribers () = .calling recording attemptId start ∧
    recording.id = recordingId ∧ recording.blobPath = some path ∧ t.before.files path = file

/-- The Transcript is what the provider said of the audio that an upload sent, unless that
upload was lost. -/
def Sourced (traffic : Traffic ι) (turns : List (Turn (Center ι) (Doing ι))) (r : Transcript) : Prop :=
  ∃ i file output n, r.recordingId = idOf traffic i ∧ Sent traffic turns i file ∧
    Heard turns r.recordingId file output ∧
    r = ⟨r.recordingId, output.provider, output.text, output.rawJson, output.providerFileId,
      output.providerTranscriptionId, n⟩

omit [DecidableEq ι] in
theorem Sourced.later {r : Transcript} (h : Sourced traffic turns r) : Sourced traffic (turns ++ more) r := by
  obtain ⟨i, file, output, n, hid, hsent, ⟨t, ht, hheard⟩, hr⟩ := h
  exact ⟨i, file, output, n, hid, hsent.later, ⟨t, List.mem_append_left _ ht, hheard⟩, hr⟩

theorem step_texts (hs : c.step traffic route doing = some c') :
    Store.TextsFrom (c.process.transcribers ()).Tells c.process.store c'.process.store := by
  rcases step_cases hs with ⟨i, fault, t', rfl, -, -, ht, rfl⟩ |
    ⟨now, input, p, events, rfl, -, -, hp, rfl⟩ | ⟨now, p, events, rfl, hp, rfl⟩ | ⟨rfl, -, rfl⟩
  · rcases upload_serves ht with he | ⟨new, he⟩
    · rw [he]
      exact Store.textsFrom_refl _
    · rw [he]
      have hq : (SqliteStore.insertRecording new).Always
          (Store.TextsFrom (c.process.transcribers ()).Tells) :=
        always_execute fun s t n ht => Store.textsFrom_of_eq (Store.insertRecording_frame ht)
      exact hq.run Store.textsFrom_refl Store.TextsFrom.trans _
  · exact Service.step_texts hp
  · exact Service.step_texts hp
  · exact Store.textsFrom_refl _

theorem step_tells (hs : c.step traffic route doing = some c') {r : Transcript}
    (h : (c'.process.transcribers ()).Tells r) : (c.process.transcribers ()).Tells r ∨
      ∃ now drawn answer, doing = .serve now (.transcribe () drawn answer) ∧
        (c.process.transcribers ()).Hears ⟨now, drawn, answer⟩ r := by
  have served : ∀ {now input p events}, c.process.step route now input = some (p, events) →
      (p.transcribers ()).Tells r → (c.process.transcribers ()).Tells r ∨
        ∃ drawn answer, input = .transcribe () drawn answer ∧
          (c.process.transcribers ()).Hears ⟨now, drawn, answer⟩ r := fun hp h => Service.step_tells hp h
  rcases step_cases hs with ⟨i, fault, t', rfl, -, -, -, rfl⟩ |
    ⟨now, input, p, events, rfl, -, -, hp, rfl⟩ | ⟨now, p, events, rfl, hp, rfl⟩ | ⟨rfl, -, rfl⟩
  · exact .inl h
  · rcases served hp h with h | ⟨drawn, answer, rfl, hh⟩
    · exact .inl h
    · exact .inr ⟨now, drawn, answer, rfl, hh⟩
  · rcases served hp h with h | ⟨drawn, answer, hi, -⟩
    · exact .inl h
    · cases hi
  · exact .inl h

/-- Every Transcript, stored or held by the worker, has its source. -/
theorem run_sourced (hids : Injective (idOf traffic)) (hslash : ∀ i, '/' ∉ (idOf traffic i).toList)
    (h : History (fun c d c' => c.step traffic route d = some c') (initial config parsers traffic) turns c) :
    (∀ r ∈ c.process.store.transcripts.rows, Sourced traffic turns r) ∧
      ∀ r, (c.process.transcribers ()).Tells r → Sourced traffic turns r := by
  induction h with
  | start => exact ⟨fun r hr => absurd hr List.not_mem_nil, fun r hr => hr.elim⟩
  | @turn turns c c' doing hr hs ih =>
    obtain ⟨hrows, hheld⟩ := ih
    refine ⟨fun r hin => ?_, fun r ht => ?_⟩
    · exact ((step_texts hs r hin).elim (hrows r) (hheld r)).later
    · rcases step_tells hs ht with hold | ⟨now, drawn, answer, rfl, output, recording, attemptId, start, rfl, hpc, rfl⟩
      · exact (hheld r hold).later
      · have hholds := run_holds hr
        rw [hpc] at hholds
        obtain ⟨i, path, hid, -, hpath, hsent⟩ := (run_kept hids hslash hr).sent hholds
        exact ⟨i, c.files path, output, now, hid, hsent.later, ⟨_, List.mem_append_right _ (List.mem_singleton.mpr rfl),
          now, drawn, recording, attemptId, start, path, rfl, hpc, rfl, hpath, rfl⟩, rfl⟩

/-- Whatever a Sink is sent, at a first attempt or a later one and across crashes and
restarts, is what the provider said of the audio that the Client of the Recording sent,
unless that upload's `SELECT` failed after its `INSERT`. -/
theorem sink_hears_provider (hids : Injective (idOf traffic)) (hslash : ∀ i, '/' ∉ (idOf traffic i).toList)
    (h : History (fun c d c' => c.step traffic route d = some c') (initial config parsers traffic) turns c)
    {candidate : DeliveryCandidate} {attemptId : String}
    (hpc : c.process.deliverers () = .calling candidate attemptId) :
    let payload := Payload.build candidate.recording candidate.delivery candidate.transcript
    ∃ i file output, payload.recordingId = idOf traffic i ∧
      (traffic.request i).key config = some (payload.clientId, payload.clientRecordingId) ∧
      Heard turns payload.recordingId file output ∧ payload.transcript.text = output.text ∧
      Sent traffic turns i file := by
  intro payload
  obtain ⟨-, trace, hrun⟩ := run_serves h
  have hb := hrun.backed
  rw [hpc] at hb
  obtain ⟨-, horigin, htext, hrid, htid⟩ := hb
  replace hrid : candidate.recording.id = candidate.transcript.recordingId := hrid.trans htid.symm
  obtain ⟨i, file, output, n, hid, hsent, hheard, hr⟩ := (run_sourced hids hslash h).1 _ htext
  obtain ⟨row, hrow, he⟩ := List.mem_map.mp horigin
  obtain ⟨j, hreg, -⟩ := (run_kept hids hslash h).rows _ (mem_uploaded_of_mem hrow)
  have hsame : row.id = candidate.recording.id := congrArg Origin.id he
  have hkey : (row.clientId, row.clientRecordingId) =
      (candidate.recording.clientId, candidate.recording.clientRecordingId) :=
    congrArg (fun o : Origin => (o.clientId, o.clientRecordingId)) he
  obtain rfl : j = i := hids (hreg.rowId.symm.trans (hsame.trans (hrid.trans hid)))
  refine ⟨j, file, output, hrid.trans hid, hreg.rowKey.trans (congrArg some hkey), ?_, ?_, hsent⟩
  · rwa [show payload.recordingId = candidate.transcript.recordingId from hrid]
  · exact congrArg Transcript.text hr

section Sample

/-- The upload that went through is transcribed after the restart, routed and delivered. -/
def brokenOffTold : List (Doing Bool) :=
  brokenOff ++ (Service.everySecond 7 1 (.transcribe () "t1" (.ok ⟨"soniox", "hello", "[]", none, none⟩)) ++
    Service.everySecond 5 8 (.route () "d1") ++
    Service.everySecond 8 13 (.deliver () "a1" (.error (.retryable "503" "busy")))).map fun q => .serve q.1 q.2

def sentTo (c : Center Bool) : Option DeliveryCandidate :=
  match c.process.deliverers () with
  | .calling candidate _ => some candidate
  | _ => none

theorem calling_of_sentTo {c : Center Bool} {candidate : DeliveryCandidate} (h : sentTo c = some candidate) :
    ∃ attemptId, c.process.deliverers () = .calling candidate attemptId := by
  unfold sentTo at h
  split at h
  · next candidate a hpc =>
    cases h
    exact ⟨a, hpc⟩
  · cases h

theorem broken_off_told : ∃ turns c candidate,
    History (fun c d c' => c.step twoUploads Service.toNotes d = some c')
      (initial Uploads.sampleConfig Uploads.noParsers twoUploads) turns c ∧
    sentTo c = some candidate ∧ ∃ audio output, Heard turns candidate.recording.id (some audio) output ∧
      candidate.transcript.text = output.text ∧
      audioOf Uploads.sampleRequest.multipart.fields = some audio := by
  have hp : (History.play (step twoUploads Service.toNotes)
      (initial Uploads.sampleConfig Uploads.noParsers twoUploads) brokenOffTold).map (fun p =>
        (p.1.all fun t => t.what.answered, (sentTo p.2).isSome)) = some (true, true) := by
    decide +kernel
  obtain ⟨⟨turns, c⟩, hplay, hseen⟩ := Option.map_eq_some_iff.mp hp
  simp only [Prod.mk.injEq, List.all_eq_true] at hseen
  obtain ⟨candidate, hsent⟩ := Option.isSome_iff_exists.mp hseen.2
  obtain ⟨attemptId, hpc⟩ := calling_of_sentTo hsent
  obtain ⟨i, _, output, -, -, hheard, htext, ⟨audio, ha, rfl⟩ | hlost⟩ :=
    sink_hears_provider twoUploads_ids twoUploads_slashless (History.of_play hplay) hpc
  · exact ⟨turns, c, candidate, History.of_play hplay, hsent, audio, output, hheard, htext, ha⟩
  · exact absurd hlost (not_rowLost (keeps_of_answered hseen.1) i)

end Sample
end Center
end Telegraph
