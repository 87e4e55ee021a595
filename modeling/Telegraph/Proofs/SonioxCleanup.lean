import Telegraph.Soniox

namespace Telegraph
open Lib

namespace SonioxExchange

/-- The id a successful upload gave. -/
def uploaded : SonioxExchange → Option String
  | ⟨.uploadFile _ _ _, .ok id⟩ => some id
  | _ => none

/-- The id a successful creation gave. -/
def created : SonioxExchange → Option String
  | ⟨.createTranscription _, .ok id⟩ => some id
  | _ => none

def deletedFile : SonioxExchange → Option String
  | ⟨.deleteFile id, _⟩ => some id
  | _ => none

def deletedTranscription : SonioxExchange → Option String
  | ⟨.deleteTranscription id, _⟩ => some id
  | _ => none

end SonioxExchange

namespace TransportResults

def withDeletes (r : TransportResults) (transcriptionDeletes fileDeletes : Nat → Except SonioxError Unit) :
    TransportResults :=
  { r with transcriptionDeletes := transcriptionDeletes, fileDeletes := fileDeletes }

/-- The polls numbered from `j`, `k` of them. -/
def polled (r : TransportResults) (transcriptionId : String) (j k : Nat) : List SonioxExchange :=
  (List.range' j k).map fun i => ⟨.getTranscription transcriptionId, r.statuses i⟩

/-- A status string that lets the polling go on. -/
def InProgress (answer : Except SonioxError Value) : Prop :=
  ∃ doc status, answer = .ok doc ∧ doc.text "status" = some status ∧ status ≠ "completed" ∧ status ≠ "error"

/-- A poll among the first `n` from the `j`-th on finds `completed`, those before it work in progress. -/
def Completes (r : TransportResults) (j n : Nat) : Prop :=
  ∃ i < n, (∃ doc, r.statuses (j + i) = .ok doc ∧ doc.text "status" = some "completed") ∧
    ∀ i' < i, InProgress (r.statuses (j + i'))

variable {r : TransportResults} {j n : Nat}

theorem completes_now {doc : Value} (h : r.statuses j = .ok doc) (hc : doc.text "status" = some "completed") :
    r.Completes j (n + 1) :=
  ⟨0, by omega, ⟨doc, h, hc⟩, fun i hi => absurd hi (by omega)⟩

theorem completes_next (h : InProgress (r.statuses j)) : r.Completes j (n + 1) ↔ r.Completes (j + 1) n := by
  constructor
  · rintro ⟨i, hi, ⟨doc, hdoc, hc⟩, hbefore⟩
    cases i with
    | zero =>
      obtain ⟨doc', status, hdoc', hs, hne, -⟩ := h
      rw [Nat.add_zero, hdoc'] at hdoc
      cases hdoc
      exact absurd (Option.some.inj (hs.symm.trans hc)) hne
    | succ i =>
      refine ⟨i, by omega, ⟨doc, ?_, hc⟩, fun i' hi' => ?_⟩
      · rw [← hdoc]
        congr 1
        omega
      · have hb := hbefore (i' + 1) (by omega)
        rwa [show j + (i' + 1) = j + 1 + i' by omega] at hb
  · rintro ⟨i, hi, ⟨doc, hdoc, hc⟩, hbefore⟩
    refine ⟨i + 1, by omega, ⟨doc, ?_, hc⟩, fun i' hi' => ?_⟩
    · rw [← hdoc]
      congr 1
      omega
    · cases i' with
      | zero => exact h
      | succ i' =>
        have hb := hbefore i' (by omega)
        rwa [show j + 1 + i' = j + (i' + 1) by omega] at hb

theorem not_completes_now (h : ¬ InProgress (r.statuses j))
    (hc : ∀ doc, r.statuses j = .ok doc → doc.text "status" ≠ some "completed") : ¬ r.Completes j n := by
  rintro ⟨i, hi, ⟨doc, hdoc, hcompleted⟩, hbefore⟩
  cases i with
  | zero => exact hc doc hdoc hcompleted
  | succ i => exact h (hbefore 0 (by omega))

theorem not_completes_zero : ¬ r.Completes j 0 := fun ⟨_, hi, _⟩ => absurd hi (by omega)

end TransportResults

namespace SonioxTranscriber
open TransportResults
variable {t : SonioxTranscriber} {r : TransportResults} {transcriptionId : String}

theorem run_call {α : Type} {c : SonioxCall} {next : Except SonioxError c.Answer → Client α}
    {log : List SonioxExchange} {a : Except SonioxError c.Answer} (h : r.answer log c = a) :
    r.transport.run (.call c next) log = r.transport.run (next a) (log ++ [⟨c, a⟩]) := by
  cases h
  rfl

/-- The log after one more poll. -/
abbrev pollLog (r : TransportResults) (transcriptionId : String) (log : List SonioxExchange) :
    List SonioxExchange :=
  log ++ [⟨.getTranscription transcriptionId, r.statuses (count log SonioxCall.isPoll)⟩]

theorem count_pollLog {log : List SonioxExchange} :
    count (pollLog r transcriptionId log) SonioxCall.isPoll = count log SonioxCall.isPoll + 1 := by
  simp [count, List.countP_append, SonioxCall.isPoll]

theorem polled_succ {log : List SonioxExchange} {k : Nat} :
    pollLog r transcriptionId log ++ r.polled transcriptionId (count log SonioxCall.isPoll + 1) k =
      log ++ r.polled transcriptionId (count log SonioxCall.isPoll) (k + 1) := by
  rw [pollLog, List.append_assoc, polled, polled, List.range'_succ, List.map_cons, List.singleton_append]

/-- The word in a status document decides what one poll leads to. -/
theorem run_poll_succ {n : Nat} {log : List SonioxExchange} :
    r.transport.run (t.poll transcriptionId (n + 1)) log =
      match r.statuses (count log SonioxCall.isPoll) with
      | .error e => (pollLog r transcriptionId log, .ok (.error e.intoWorkerFailure))
      | .ok status => match status.text "status" with
        | none => (pollLog r transcriptionId log,
          .ok (.error (.terminal "soniox_decode" "transcription response missing status")))
        | some word =>
          if word = "completed" then (pollLog r transcriptionId log, .ok (.ok status))
          else if word = "error" then
            (pollLog r transcriptionId log, .ok (.error (providerStatusError status)))
          else r.transport.run (t.poll transcriptionId n) (pollLog r transcriptionId log) := by
  rw [poll, @run_call r _ (.getTranscription transcriptionId) _ log
    (r.statuses (count log SonioxCall.isPoll)) rfl]
  unfold pollLog
  cases r.statuses (count log SonioxCall.isPoll) with
  | error e => rfl
  | ok status =>
    dsimp only
    split
    next h => simp [h, Machine.run]
    next h => simp [h, Machine.run]
    next word hc he h =>
      simp only [h]
      rw [if_neg hc, if_neg he]
    next h => simp [h, Machine.run]

/-- At most `n` polls, one after the other, and a document exactly when one completes. -/
def PollEnds (r : TransportResults) (transcriptionId : String) (n : Nat) (log : List SonioxExchange)
    (ended : List SonioxExchange × Except SonioxError (Except WorkerFailure Value)) : Prop :=
  ∃ k ≤ n, ∃ out, ended = (log ++ r.polled transcriptionId (count log SonioxCall.isPoll) k, .ok out) ∧
    ((∃ doc, out = .ok doc) ↔ r.Completes (count log SonioxCall.isPoll) n)

theorem poll_stops {n : Nat} {log : List SonioxExchange} {failure : WorkerFailure}
    (hstop : ¬ InProgress (r.statuses (count log SonioxCall.isPoll)))
    (hc : ∀ doc, r.statuses (count log SonioxCall.isPoll) = .ok doc →
      doc.text "status" ≠ some "completed") :
    PollEnds r transcriptionId (n + 1) log (pollLog r transcriptionId log, .ok (.error failure)) := by
  refine ⟨1, by omega, .error failure, rfl, ?_⟩
  exact ⟨fun ⟨_, h⟩ => (by cases h), fun h => absurd h (not_completes_now hstop hc)⟩

theorem run_poll (t : SonioxTranscriber) (r : TransportResults) (transcriptionId : String) (n : Nat)
    (log : List SonioxExchange) :
    PollEnds r transcriptionId n log (r.transport.run (t.poll transcriptionId n) log) := by
  induction n generalizing log with
  | zero =>
    refine ⟨0, le_rfl, .error (.retryable "soniox_poll_timeout"
      ("transcription not completed after " ++ toString t.maxPolls ++ " polls")), ?_, ?_⟩
    · rw [polled, List.range'_zero, List.map_nil, List.append_nil]
      rfl
    · exact ⟨fun ⟨_, h⟩ => (by cases h), fun h => absurd h not_completes_zero⟩
  | succ n ih =>
    rw [run_poll_succ]
    cases hs : r.statuses (count log SonioxCall.isPoll) with
    | error e =>
      apply poll_stops
      · rintro ⟨doc, _, hdoc, -⟩
        cases hs.symm.trans hdoc
      · intro doc hdoc
        cases hs.symm.trans hdoc
    | ok status =>
      dsimp only
      cases hw : status.text "status" with
      | none =>
        apply poll_stops
        · rintro ⟨doc, word, hdoc, hword, -⟩
          cases hs.symm.trans hdoc
          cases hw.symm.trans hword
        · intro doc hdoc hword
          cases hs.symm.trans hdoc
          cases hw.symm.trans hword
      | some word =>
        dsimp only
        split
        next hcompleted =>
          refine ⟨1, by omega, .ok status, rfl, ?_⟩
          exact ⟨fun _ => completes_now hs (hcompleted ▸ hw), fun _ => ⟨status, rfl⟩⟩
        next hcompleted =>
          split
          next herror =>
            apply poll_stops
            · rintro ⟨doc, word', hdoc, hword, -, hne⟩
              cases hs.symm.trans hdoc
              cases hw.symm.trans hword
              exact hne herror
            · intro doc hdoc hword
              cases hs.symm.trans hdoc
              cases hw.symm.trans hword
              exact hcompleted rfl
          next herror =>
            obtain ⟨k, hk, out, hrun, hout⟩ := ih (pollLog r transcriptionId log)
            rw [count_pollLog] at hrun hout
            refine ⟨k + 1, by omega, out, ?_, ?_⟩
            · rw [hrun, polled_succ]
            · rw [hout, completes_next ⟨status, word, hs, hw, hcompleted, herror⟩]

/-- The calls of the two deletes, with their answers. -/
def cleanupLog (transcriptionId fileId : String) (a b : Except SonioxError Unit) : List SonioxExchange :=
  [⟨.deleteTranscription transcriptionId, a⟩, ⟨.deleteFile fileId, b⟩]

/-- Whatever the deletes answer, what comes after is not told. -/
theorem run_cleanup {α : Type} {fileId : String} {a : α} {log : List SonioxExchange} : ∃ x y,
    r.transport.run ((cleanup transcriptionId fileId).bind fun _ => (.done a : Client α)) log =
      (log ++ cleanupLog transcriptionId fileId x y, .ok a) := by
  refine ⟨r.answer log (.deleteTranscription transcriptionId), r.answer
    (log ++ [⟨.deleteTranscription transcriptionId, r.answer log (.deleteTranscription transcriptionId)⟩])
    (.deleteFile fileId), ?_⟩
  unfold cleanupLog
  rw [List.append_cons]
  rfl

theorem count_append {a b : List SonioxExchange} {kind : SonioxCall → Bool} :
    count (a ++ b) kind = count a kind + count b kind := List.countP_append

theorem count_polled {kind : SonioxCall → Bool} {j k : Nat} (h : kind (.getTranscription transcriptionId) = false) :
    count (r.polled transcriptionId j k) kind = 0 := by
  unfold count polled
  rw [List.countP_map]
  exact List.countP_eq_zero.mpr fun i _ => by simp [h]

/-- The log of the first call. -/
def uploadLog (request : TranscriptionRequest) (audio : Bytes) (answer : Except SonioxError String) :
    List SonioxExchange :=
  [⟨.uploadFile audio (request.fileName.getD "audio.wav") request.recordingId, answer⟩]

/-- The log of the two calls before the polling. -/
def openingLog (t : SonioxTranscriber) (request : TranscriptionRequest) (audio : Bytes) (fileId : String)
    (answer : Except SonioxError String) : List SonioxExchange :=
  uploadLog request audio (.ok fileId) ++
    [⟨.createTranscription (t.createRequest fileId request.recordingId), answer⟩]

/-- The ways a run can end, with everything that decides between them. -/
inductive Exits (t : SonioxTranscriber) (r : TransportResults) (request : TranscriptionRequest) :
    List SonioxExchange → Except WorkerFailure TranscriptionOutput → Prop where
  | unreadable {e : String} {failure : WorkerFailure} (audio : request.audio = .error e) :
      Exits t r request [] (.error failure)
  | notUploaded {audio : Bytes} {e : SonioxError} {failure : WorkerFailure} (upload : r.uploads 0 = .error e) :
      Exits t r request (uploadLog request audio (.error e)) (.error failure)
  | notCreated {audio : Bytes} {fileId : String} {e : SonioxError} {failure : WorkerFailure}
      {deleted : Except SonioxError Unit} (create : r.creates 0 = .error e) :
      Exits t r request (openingLog t request audio fileId (.error e) ++ [⟨.deleteFile fileId, deleted⟩])
        (.error failure)
  | notCompleted {audio : Bytes} {fileId transcriptionId : String} {failure : WorkerFailure} {k : Nat}
      {x y : Except SonioxError Unit} (polls : k ≤ t.maxPolls) (incomplete : ¬ r.Completes 0 t.maxPolls) :
      Exits t r request (openingLog t request audio fileId (.ok transcriptionId) ++
        r.polled transcriptionId 0 k ++ cleanupLog transcriptionId fileId x y) (.error failure)
  | notFetched {audio : Bytes} {fileId transcriptionId : String} {e : SonioxError} {failure : WorkerFailure}
      {k : Nat} {x y : Except SonioxError Unit} (polls : k ≤ t.maxPolls)
      (transcript : r.transcripts 0 = .error e) :
      Exits t r request (openingLog t request audio fileId (.ok transcriptionId) ++
        r.polled transcriptionId 0 k ++ [⟨.getTranscript transcriptionId, .error e⟩] ++
        cleanupLog transcriptionId fileId x y) (.error failure)
  | transcribed {audio : Bytes} {fileId transcriptionId : String} {doc : Value}
      {output : TranscriptionOutput} {k : Nat} {x y : Except SonioxError Unit}
      (read : request.audio = .ok audio) (upload : r.uploads 0 = .ok fileId)
      (create : r.creates 0 = .ok transcriptionId) (polls : k ≤ t.maxPolls)
      (completes : r.Completes 0 t.maxPolls) (transcript : r.transcripts 0 = .ok doc) :
      Exits t r request (openingLog t request audio fileId (.ok transcriptionId) ++
        r.polled transcriptionId 0 k ++ [⟨.getTranscript transcriptionId, .ok doc⟩] ++
        cleanupLog transcriptionId fileId x y) (.ok output)

theorem run_exits (t : SonioxTranscriber) (r : TransportResults) (request : TranscriptionRequest) :
    ∃ log result, r.transport.run (t.run request) [] = (log, .ok result) ∧ Exits t r request log result := by
  unfold run
  cases haudio : request.audio with
  | error e => exact ⟨[], _, rfl, .unreadable haudio⟩
  | ok audio =>
    dsimp only [readAudio]
    cases hupload : r.uploads 0 with
    | error e =>
      rw [@run_call r _ (.uploadFile ..) _ [] (.error e) hupload]
      exact ⟨_, _, rfl, .notUploaded hupload⟩
    | ok fileId =>
      rw [@run_call r _ (.uploadFile ..) _ [] (.ok fileId) hupload]
      change ∃ log result, r.transport.run (.call (.createTranscription _) _)
        (uploadLog request audio (.ok fileId)) = _ ∧ _
      cases hcreate : r.creates 0 with
      | error e =>
        rw [@run_call r _ (.createTranscription _) _ (uploadLog ..) (.error e) hcreate]
        exact ⟨_, _, rfl, .notCreated hcreate⟩
      | ok transcriptionId =>
        rw [@run_call r _ (.createTranscription _) _ (uploadLog ..) (.ok transcriptionId) hcreate]
        obtain ⟨k, hk, out, hpoll, hout⟩ := run_poll t r transcriptionId t.maxPolls
          (uploadLog request audio (.ok fileId) ++
            [⟨.createTranscription (t.createRequest fileId request.recordingId), .ok transcriptionId⟩])
        rw [show count _ SonioxCall.isPoll = 0 from rfl] at hpoll hout
        dsimp only
        rw [Task.bind_eq, Machine.run_bind, hpoll]
        cases out with
        | error failure =>
          obtain ⟨x, y, hclean⟩ := @run_cleanup r transcriptionId _ fileId
            (.error failure : Except WorkerFailure TranscriptionOutput) (openingLog t request audio fileId
              (.ok transcriptionId) ++ r.polled transcriptionId 0 k)
          have incomplete : ¬ r.Completes 0 t.maxPolls := by
            rw [← hout]
            rintro ⟨doc, h⟩
            cases h
          exact ⟨_, _, hclean, .notCompleted hk incomplete⟩
        | ok status =>
          have completes : r.Completes 0 t.maxPolls := hout.mp ⟨status, rfl⟩
          have hfirst : count (openingLog t request audio fileId (.ok transcriptionId) ++
              r.polled transcriptionId 0 k) SonioxCall.isTranscript = 0 := by
            rw [count_append, count_polled rfl]
            rfl
          have hanswer : r.answer (openingLog t request audio fileId (.ok transcriptionId) ++
              r.polled transcriptionId 0 k) (.getTranscript transcriptionId) = r.transcripts 0 :=
            congrArg r.transcripts hfirst
          change ∃ log result, r.transport.run (.call (.getTranscript transcriptionId) _)
            (openingLog t request audio fileId (.ok transcriptionId) ++ r.polled transcriptionId 0 k) =
              _ ∧ _
          cases htranscript : r.transcripts 0 with
          | error e =>
            rw [@run_call r _ (.getTranscript _) _ _ (.error e) (hanswer.trans htranscript)]
            obtain ⟨x, y, hclean⟩ := @run_cleanup r transcriptionId _ fileId
              (.error e.intoWorkerFailure : Except WorkerFailure TranscriptionOutput) (openingLog t request
                audio fileId (.ok transcriptionId) ++ r.polled transcriptionId 0 k ++
                  [⟨.getTranscript transcriptionId, .error e⟩])
            exact ⟨_, _, hclean, .notFetched hk htranscript⟩
          | ok doc =>
            rw [@run_call r _ (.getTranscript _) _ _ (.ok doc) (hanswer.trans htranscript)]
            obtain ⟨x, y, hclean⟩ := @run_cleanup r transcriptionId _ fileId
              (.ok ⟨provider, Render.renderTranscript doc, t.rawJson status doc, some fileId,
                some transcriptionId⟩ : Except WorkerFailure TranscriptionOutput) (openingLog t request
                audio fileId (.ok transcriptionId) ++ r.polled transcriptionId 0 k ++
                  [⟨.getTranscript transcriptionId, .ok doc⟩])
            exact ⟨_, _, hclean, .transcribed haudio hupload hcreate hk completes htranscript⟩

/-- What holds of a run's log and of what it returns. -/
structure CleansUp (t : SonioxTranscriber) (r : TransportResults) (request : TranscriptionRequest)
    (log : List SonioxExchange) (result : Except WorkerFailure TranscriptionOutput) : Prop where
  files : (∃ id, log.filterMap SonioxExchange.uploaded = [id] ∧
      log.filterMap SonioxExchange.deletedFile = [id]) ∨
    (log.filterMap SonioxExchange.uploaded = [] ∧ log.filterMap SonioxExchange.deletedFile = [])
  transcriptions : (∃ id, log.filterMap SonioxExchange.created = [id] ∧
      log.filterMap SonioxExchange.deletedTranscription = [id]) ∨
    (log.filterMap SonioxExchange.created = [] ∧ log.filterMap SonioxExchange.deletedTranscription = [])
  file_last : ∀ before e after, log = before ++ e :: after → e.deletedFile.isSome = true → after = []
  transcription_last : ∀ before e after, log = before ++ e :: after →
    e.deletedTranscription.isSome = true → ∀ later ∈ after, later.deletedFile.isSome = true
  polls : count log SonioxCall.isPoll ≤ t.maxPolls
  ok_iff : (∃ output, result = .ok output) ↔
    (∃ audio, request.audio = .ok audio) ∧ (∃ id, r.uploads 0 = .ok id) ∧ (∃ id, r.creates 0 = .ok id) ∧
      r.Completes 0 t.maxPolls ∧ ∃ doc, r.transcripts 0 = .ok doc

section Exits
variable {request : TranscriptionRequest} {log : List SonioxExchange}
  {result : Except WorkerFailure TranscriptionOutput}

theorem filterMap_polled {β : Type} {f : SonioxExchange → Option β} {j k : Nat}
    (h : ∀ a, f ⟨.getTranscription transcriptionId, a⟩ = none) :
    (r.polled transcriptionId j k).filterMap f = [] := by
  unfold polled
  rw [List.filterMap_map]
  exact List.filterMap_eq_nil_iff.mpr fun i _ => h _

theorem Exits.files (h : Exits t r request log result) :
    (∃ id, log.filterMap SonioxExchange.uploaded = [id] ∧
      log.filterMap SonioxExchange.deletedFile = [id]) ∨
    (log.filterMap SonioxExchange.uploaded = [] ∧ log.filterMap SonioxExchange.deletedFile = []) := by
  have up : ∀ {id j k}, (r.polled id j k).filterMap SonioxExchange.uploaded = [] :=
    filterMap_polled fun _ => rfl
  have del : ∀ {id j k}, (r.polled id j k).filterMap SonioxExchange.deletedFile = [] :=
    filterMap_polled fun _ => rfl
  cases h with
  | unreadable => exact .inr ⟨rfl, rfl⟩
  | notUploaded => exact .inr ⟨rfl, rfl⟩
  | notCreated => exact .inl ⟨_, rfl, rfl⟩
  | notCompleted | notFetched | transcribed =>
    simp only [List.filterMap_append, up, del]
    exact .inl ⟨_, rfl, rfl⟩

theorem Exits.transcriptions (h : Exits t r request log result) :
    (∃ id, log.filterMap SonioxExchange.created = [id] ∧
      log.filterMap SonioxExchange.deletedTranscription = [id]) ∨
    (log.filterMap SonioxExchange.created = [] ∧
      log.filterMap SonioxExchange.deletedTranscription = []) := by
  have made : ∀ {id j k}, (r.polled id j k).filterMap SonioxExchange.created = [] :=
    filterMap_polled fun _ => rfl
  have del : ∀ {id j k}, (r.polled id j k).filterMap SonioxExchange.deletedTranscription = [] :=
    filterMap_polled fun _ => rfl
  cases h with
  | unreadable => exact .inr ⟨rfl, rfl⟩
  | notUploaded => exact .inr ⟨rfl, rfl⟩
  | notCreated => exact .inr ⟨rfl, rfl⟩
  | notCompleted | notFetched | transcribed =>
    simp only [List.filterMap_append, made, del]
    exact .inl ⟨_, rfl, rfl⟩

/-- The deletes come last, the file's at the very end. -/
theorem Exits.shape (h : Exits t r request log result) : ∃ init tail, log = init ++ tail ∧
    (∀ e ∈ init, e.deletedFile.isSome = false ∧ e.deletedTranscription.isSome = false) ∧
    (tail = [] ∨ (∃ fileId x, tail = [⟨.deleteFile fileId, x⟩]) ∨
      ∃ transcriptionId fileId x y, tail = cleanupLog transcriptionId fileId x y) := by
  have opening : ∀ {audio fileId answer}, ∀ e ∈ openingLog t request audio fileId answer,
      e.deletedFile.isSome = false ∧ e.deletedTranscription.isSome = false := by
    intro audio fileId answer e he
    rcases List.mem_cons.mp he with rfl | he
    · exact ⟨rfl, rfl⟩
    · cases List.mem_singleton.mp he
      exact ⟨rfl, rfl⟩
  have polling : ∀ {id k}, ∀ e ∈ r.polled id 0 k,
      e.deletedFile.isSome = false ∧ e.deletedTranscription.isSome = false := by
    intro id k e he
    obtain ⟨i, -, rfl⟩ := List.mem_map.mp he
    exact ⟨rfl, rfl⟩
  have fetched : ∀ {id answer}, ∀ e ∈ [(⟨.getTranscript id, answer⟩ : SonioxExchange)],
      e.deletedFile.isSome = false ∧ e.deletedTranscription.isSome = false := by
    intro id answer e he
    cases List.mem_singleton.mp he
    exact ⟨rfl, rfl⟩
  cases h with
  | unreadable => exact ⟨[], [], rfl, by simp, .inl rfl⟩
  | notUploaded =>
    refine ⟨_, [], (List.append_nil _).symm, fun e he => ?_, .inl rfl⟩
    cases List.mem_singleton.mp he
    exact ⟨rfl, rfl⟩
  | notCreated => exact ⟨_, _, rfl, opening, .inr (.inl ⟨_, _, rfl⟩)⟩
  | notCompleted =>
    refine ⟨_, _, rfl, fun e he => ?_, .inr (.inr ⟨_, _, _, _, rfl⟩)⟩
    exact (List.mem_append.mp he).elim (opening e) (polling e)
  | notFetched | transcribed =>
    refine ⟨_, _, rfl, fun e he => ?_, .inr (.inr ⟨_, _, _, _, rfl⟩)⟩
    rcases List.mem_append.mp he with he | he
    · exact (List.mem_append.mp he).elim (opening e) (polling e)
    · exact fetched e he

/-- What does not occur in the first part of a list occurs in the second. -/
theorem later_part {α : Type} {init tail before after : List α} {e : α}
    (h : init ++ tail = before ++ e :: after) (hn : e ∉ init) : ∃ between, tail = between ++ e :: after := by
  rcases List.append_eq_append_iff.mp h with ⟨between, -, ht⟩ | ⟨between, hb, he⟩
  · exact ⟨between, ht⟩
  · cases between with
    | nil => exact ⟨[], he.symm⟩
    | cons x between =>
      cases List.head_eq_of_cons_eq he
      exact absurd (hb ▸ List.mem_append_right _ (List.mem_cons_self ..)) hn

theorem Exits.file_last (h : Exits t r request log result) {before after : List SonioxExchange}
    {e : SonioxExchange} (he : log = before ++ e :: after) (hd : e.deletedFile.isSome = true) :
    after = [] := by
  obtain ⟨init, tail, rfl, hinit, htail⟩ := h.shape
  obtain ⟨between, hb⟩ := later_part he fun hm => by simp [(hinit e hm).1] at hd
  rcases htail with rfl | ⟨fileId, x, rfl⟩ | ⟨transcriptionId, fileId, x, y, rfl⟩
  · simp at hb
  · rcases between with _ | ⟨_, between⟩
    · exact (List.cons.inj hb).2.symm
    · simp at hb
  · rcases between with _ | ⟨_, _ | ⟨_, between⟩⟩
    · rw [← (List.cons.inj hb).1] at hd
      cases hd
    · exact (List.cons.inj (List.cons.inj hb).2).2.symm
    · simp [cleanupLog] at hb

theorem Exits.transcription_last (h : Exits t r request log result) {before after : List SonioxExchange}
    {e : SonioxExchange} (he : log = before ++ e :: after) (hd : e.deletedTranscription.isSome = true) :
    ∀ later ∈ after, later.deletedFile.isSome = true := by
  obtain ⟨init, tail, rfl, hinit, htail⟩ := h.shape
  obtain ⟨between, hb⟩ := later_part he fun hm => by simp [(hinit e hm).2] at hd
  rcases htail with rfl | ⟨fileId, x, rfl⟩ | ⟨transcriptionId, fileId, x, y, rfl⟩
  · simp at hb
  · rcases between with _ | ⟨_, between⟩
    · rw [← (List.cons.inj hb).1] at hd
      cases hd
    · simp at hb
  · rcases between with _ | ⟨_, _ | ⟨_, between⟩⟩
    · intro later hl
      rw [← (List.cons.inj hb).2] at hl
      rw [List.mem_singleton.mp hl]
      rfl
    · rw [← (List.cons.inj (List.cons.inj hb).2).1] at hd
      cases hd
    · simp [cleanupLog] at hb

theorem Exits.polls (h : Exits t r request log result) : count log SonioxCall.isPoll ≤ t.maxPolls := by
  have opening : ∀ {audio fileId answer},
      count (openingLog t request audio fileId answer) SonioxCall.isPoll = 0 := rfl
  have cleaning : ∀ {id fileId x y}, count (cleanupLog id fileId x y) SonioxCall.isPoll = 0 := rfl
  have polling : ∀ {id k}, count (r.polled id 0 k) SonioxCall.isPoll ≤ k := by
    intro id k
    have hle := @List.countP_le_length _ (fun e : SonioxExchange => e.call.isPoll) (r.polled id 0 k)
    rwa [polled, List.length_map, List.length_range'] at hle
  cases h with
  | unreadable => exact Nat.zero_le _
  | notUploaded => exact Nat.zero_le _
  | notCreated => exact Nat.zero_le _
  | @notCompleted _ _ id _ k _ _ polls =>
    rw [count_append, count_append, opening, cleaning]
    have hk := @polling id k
    omega
  | @notFetched _ _ id e _ k _ _ polls =>
    rw [count_append, count_append, count_append, opening, cleaning,
      show count [⟨.getTranscript id, .error e⟩] SonioxCall.isPoll = 0 from rfl]
    have hk := @polling id k
    omega
  | @transcribed _ _ id doc _ k _ _ _ _ _ polls =>
    rw [count_append, count_append, count_append, opening, cleaning,
      show count [⟨.getTranscript id, .ok doc⟩] SonioxCall.isPoll = 0 from rfl]
    have hk := @polling id k
    omega

theorem Exits.ok_iff (h : Exits t r request log result) : (∃ output, result = .ok output) ↔
    (∃ audio, request.audio = .ok audio) ∧ (∃ id, r.uploads 0 = .ok id) ∧ (∃ id, r.creates 0 = .ok id) ∧
      r.Completes 0 t.maxPolls ∧ ∃ doc, r.transcripts 0 = .ok doc := by
  cases h with
  | transcribed read upload create polls completes transcript =>
    exact ⟨fun _ => ⟨⟨_, read⟩, ⟨_, upload⟩, ⟨_, create⟩, completes, ⟨_, transcript⟩⟩, fun _ => ⟨_, rfl⟩⟩
  | unreadable audio => simp [audio]
  | notUploaded upload => simp [upload]
  | notCreated create => simp [create]
  | notCompleted polls incomplete => simp [incomplete]
  | notFetched polls transcript => simp [transcript]

end Exits

theorem Exits.cleansUp {request : TranscriptionRequest} {log : List SonioxExchange}
    {result : Except WorkerFailure TranscriptionOutput} (h : Exits t r request log result) :
    CleansUp t r request log result where
  files := h.files
  transcriptions := h.transcriptions
  file_last _ _ _ he hd := h.file_last he hd
  transcription_last _ _ _ he hd := h.transcription_last he hd
  polls := h.polls
  ok_iff := h.ok_iff

section Deletes
variable {d d' : Nat → Except SonioxError Unit}

theorem poll_withDeletes (n : Nat) (log : List SonioxExchange) :
    (r.withDeletes d d').transport.run (t.poll transcriptionId n) log =
      r.transport.run (t.poll transcriptionId n) log := by
  induction n generalizing log with
  | zero => rfl
  | succ n ih =>
    simp only [run_poll_succ, ih]
    rfl

/-- No answer of a delete reaches the result. -/
theorem run_withDeletes (request : TranscriptionRequest) :
    ((r.withDeletes d d').transport.run (t.run request) []).2 = (r.transport.run (t.run request) []).2 := by
  unfold run
  cases request.audio with
  | error e => rfl
  | ok audio =>
    dsimp only [readAudio]
    rw [@run_call r _ (.uploadFile ..) _ [] (r.uploads 0) rfl,
      @run_call (r.withDeletes d d') _ (.uploadFile ..) _ [] (r.uploads 0) rfl]
    cases r.uploads 0 with
    | error e => rfl
    | ok fileId =>
      change ((r.withDeletes d d').transport.run (.call (.createTranscription _) _)
        (uploadLog request audio (.ok fileId))).2 = (r.transport.run (.call (.createTranscription _) _)
        (uploadLog request audio (.ok fileId))).2
      rw [@run_call r _ (.createTranscription _) _ (uploadLog ..) (r.creates 0) rfl,
        @run_call (r.withDeletes d d') _ (.createTranscription _) _ (uploadLog ..) (r.creates 0) rfl]
      cases r.creates 0 with
      | error e => rfl
      | ok transcriptionId =>
        dsimp only
        rw [Task.bind_eq, Machine.run_bind, Machine.run_bind, poll_withDeletes]
        generalize r.transport.run (t.poll transcriptionId t.maxPolls) _ = ended
        obtain ⟨log, out⟩ := ended
        rcases out with e | (failure | status)
        · rfl
        · rfl
        · dsimp only
          rw [@run_call r _ (.getTranscript _) _ log (r.answer log (.getTranscript transcriptionId)) rfl,
            @run_call (r.withDeletes d d') _ (.getTranscript _) _ log
              (r.answer log (.getTranscript transcriptionId)) rfl]
          cases r.answer log (.getTranscript transcriptionId) with
          | error e => rfl
          | ok doc => rfl

end Deletes
end SonioxTranscriber

/-- Whatever the transport answers, a run returns, deletes what the provider holds for it,
and the deletes do not change what it returns. -/
theorem soniox_run_cleans_up (t : SonioxTranscriber) (r : TransportResults) (request : TranscriptionRequest) :
    ∃ log result, r.transport.run (t.run request) [] = (log, .ok result) ∧
      t.CleansUp r request log result ∧
      ∀ transcriptionDeletes fileDeletes,
        ((r.withDeletes transcriptionDeletes fileDeletes).transport.run (t.run request) []).2 = .ok result := by
  obtain ⟨log, result, hrun, hexit⟩ := SonioxTranscriber.run_exits t r request
  refine ⟨log, result, hrun, hexit.cleansUp, fun transcriptionDeletes fileDeletes => ?_⟩
  rw [SonioxTranscriber.run_withDeletes, hrun]

end Telegraph
