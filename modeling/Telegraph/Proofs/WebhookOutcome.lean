import Telegraph.Proofs.CanonicalTags
import Telegraph.WebhookTransport

namespace Telegraph
open Lib

/-- Everything that was received of the body. -/
def ResponseBody.bytes (body : ResponseBody) : Bytes := body.chunks.flatten

/-- The read fails before the excerpt is full. -/
def ResponseBody.CutShort (body : ResponseBody) : Prop :=
  body.failure.isSome ∧ body.bytes.length < ReqwestWebhookTransport.maxBodyExcerpt

/-- The message about a status, with the excerpt when there is one. -/
def statusMessage (status : Nat) (excerpt : String) : String :=
  if (trim excerpt).isEmpty then "HTTP " ++ toString status
  else "HTTP " ++ toString status ++ ": " ++ trim excerpt

/-- The status alone decides; the body shows in the message and nowhere else. -/
structure ByStatus (status : Nat) (bytes : Bytes) (result : Except WorkerFailure Unit) : Prop where
  ok : result = .ok () ↔ 200 ≤ status ∧ status < 300
  retryable : (∃ code message, result = .error (.retryable code message)) ↔
    500 ≤ status ∨ status = 429
  terminal : (∃ code message, result = .error (.terminal code message)) ↔
    ¬(200 ≤ status ∧ status < 300) ∧ ¬(500 ≤ status ∨ status = 429)
  failure : ∀ code message, result = .error (.retryable code message) ∨
      result = .error (.terminal code message) →
    code = "webhook_http_" ++ toString status ∧
      message = statusMessage status (Utf8.lossy (bytes.take ReqwestWebhookTransport.maxBodyExcerpt))

/-- What an exchange has to come to. -/
def Exchange.Judged (result : Except WorkerFailure Unit) : Exchange → Prop
  | .failed error => result = .error (.retryable "webhook_transport" error)
  | .answered status body => ByStatus status body.bytes result

def Exchange.CutShort : Exchange → Prop
  | .failed _ => False
  | .answered _ body => body.CutShort

namespace ReqwestWebhookTransport

/-- The loop collects the first bytes, however they arrive. -/
theorem excerptLoop_eq {failure : Option String} {chunks : List Bytes} {buffer : Bytes}
    (h : buffer.length ≤ maxBodyExcerpt) :
    excerptLoop failure chunks buffer =
      if (buffer ++ chunks.flatten).length < maxBodyExcerpt then
        failure.elim (.ok (buffer ++ chunks.flatten)) .error
      else .ok ((buffer ++ chunks.flatten).take maxBodyExcerpt) := by
  induction chunks generalizing buffer with
  | nil =>
    rw [excerptLoop, List.flatten_nil, List.append_nil, List.take_of_length_le h]
  | cons chunk chunks ih =>
    rw [excerptLoop, List.flatten_cons]
    by_cases hroom : buffer.length < maxBodyExcerpt
    · rw [if_pos hroom]
      by_cases hcap : min (maxBodyExcerpt - buffer.length) chunk.length < chunk.length
      · have hmin : min (maxBodyExcerpt - buffer.length) chunk.length =
            maxBodyExcerpt - buffer.length := by omega
        have hlong : ¬(buffer ++ (chunk ++ chunks.flatten)).length < maxBodyExcerpt := by
          simp only [List.length_append]
          omega
        have htake : (buffer ++ (chunk ++ chunks.flatten)).take maxBodyExcerpt =
            buffer ++ chunk.take (maxBodyExcerpt - buffer.length) := by
          rw [List.take_append, List.take_of_length_le h, List.take_append_of_le_length (by omega)]
        rw [if_pos hcap, if_neg hlong, hmin, htake]
      · have hall : min (maxBodyExcerpt - buffer.length) chunk.length = chunk.length := by omega
        have hfits : (buffer ++ chunk).length ≤ maxBodyExcerpt := by
          rw [List.length_append]
          omega
        rw [if_neg hcap, hall, List.take_length, ih hfits, List.append_assoc]
    · have hlong : ¬(buffer ++ (chunk ++ chunks.flatten)).length < maxBodyExcerpt := by
        rw [List.length_append]
        omega
      have htake : (buffer ++ (chunk ++ chunks.flatten)).take maxBodyExcerpt = buffer := by
        rw [List.take_append_of_le_length (by omega), List.take_of_length_le h]
      rw [if_neg hroom, if_neg hlong, htake]

theorem excerptLoop_start (body : ResponseBody) :
    excerptLoop body.failure body.chunks [] =
      if body.bytes.length < maxBodyExcerpt then body.failure.elim (.ok body.bytes) .error
      else .ok (body.bytes.take maxBodyExcerpt) :=
  excerptLoop_eq (Nat.zero_le _)

theorem readExcerpt_ok {body : ResponseBody} (h : ¬body.CutShort) :
    readExcerpt body = .ok (Utf8.lossy (body.bytes.take maxBodyExcerpt)) := by
  have hloop : excerptLoop body.failure body.chunks [] = .ok (body.bytes.take maxBodyExcerpt) := by
    rw [excerptLoop_start]
    split
    · next hshort =>
      have hnone : body.failure = none := by
        cases hf : body.failure with
        | none => rfl
        | some error => exact absurd ⟨by rw [hf]; rfl, hshort⟩ h
      rw [hnone, Option.elim_none, List.take_of_length_le (Nat.le_of_lt hshort)]
    · rfl
  rw [readExcerpt, hloop]
  rfl

/-- A short text is shown as it was sent, whatever chunks it came in. -/
theorem readExcerpt_text {body : ResponseBody} {text : String} (hbytes : body.bytes = utf8 text)
    (hfit : body.bytes.length ≤ maxBodyExcerpt) (h : ¬body.CutShort) :
    readExcerpt body = .ok text := by
  rw [readExcerpt_ok h, List.take_of_length_le hfit, hbytes, utf8_toList, Utf8.lossy_text]

theorem readExcerpt_error {body : ResponseBody} (h : body.CutShort) :
    ∃ error, readExcerpt body = .error error := by
  obtain ⟨error, herror⟩ := Option.isSome_iff_exists.mp h.1
  refine ⟨error, ?_⟩
  rw [readExcerpt, excerptLoop_start, if_pos h.2, herror]
  rfl

end ReqwestWebhookTransport

namespace WebhookSinkClient
open ReqwestWebhookTransport

theorem mapResponse_byStatus (status : Nat) (bytes : Bytes) :
    ByStatus status bytes (mapResponse ⟨status, Utf8.lossy (bytes.take maxBodyExcerpt)⟩) := by
  rw [mapResponse]
  split
  · next h =>
    have hstatus : 200 ≤ status ∧ status < 300 := h
    constructor <;> simp <;> omega
  · next h =>
    split
    · next hr => constructor <;> simp_all [statusMessage]
    · next hr => constructor <;> simp_all [statusMessage]

variable {lib : WebhookLibraries} {client : WebhookSinkClient} {request : DeliveryRequest}
  {send : WebhookHttpRequest → Exchange} {httpRequest : WebhookHttpRequest}

theorem deliver_response {response : WebhookResponse} (h : prepare lib client request = .ok httpRequest)
    (hpost : post send httpRequest = .ok response) :
    deliver lib client (post send) request = mapResponse response := by
  simp only [deliver, h, hpost, bind, Except.bind]

theorem deliver_error {error : String} (h : prepare lib client request = .ok httpRequest)
    (hpost : post send httpRequest = .error error) :
    deliver lib client (post send) request = .error (.retryable "webhook_transport" error) := by
  simp only [deliver, h, hpost, bind, Except.bind]

/-- A status is reported under its own code, never as a failure of the transport. -/
theorem ByStatus.not_transport {status : Nat} {bytes : Bytes} {error : String} :
    ¬ByStatus status bytes (.error (.retryable "webhook_transport" error)) := by
  intro h
  have hcode := (h.failure _ _ (Or.inl rfl)).1
  have hlist := congrArg String.toList hcode
  rw [String.toList_append] at hlist
  have hstart := congrArg (List.take 9) hlist
  rw [List.take_append_of_le_length (by decide)] at hstart
  exact absurd hstart (by decide)

/-- What a response comes to is judged by its status exactly when its body is not cut short. -/
theorem deliver_judged_iff (h : prepare lib client request = .ok httpRequest) :
    (send httpRequest).Judged (deliver lib client (post send) request) ↔
      ¬(send httpRequest).CutShort := by
  cases hsend : send httpRequest with
  | failed error =>
    have hpost : post send httpRequest = .error error := by rw [post, hsend]
    simp [deliver_error h hpost, Exchange.Judged, Exchange.CutShort]
  | answered status body =>
    simp only [Exchange.Judged, Exchange.CutShort]
    constructor
    · intro hjudged hcut
      obtain ⟨error, hread⟩ := readExcerpt_error hcut
      have hpost : post send httpRequest = .error error := by
        simp only [post, hsend, hread, bind, Except.bind]
      rw [deliver_error h hpost] at hjudged
      exact ByStatus.not_transport hjudged
    · intro hcut
      have hpost : post send httpRequest =
          .ok ⟨status, Utf8.lossy (body.bytes.take maxBodyExcerpt)⟩ := by
        simp only [post, hsend, readExcerpt_ok hcut, bind, Except.bind]
      rw [deliver_response h hpost]
      exact mapResponse_byStatus status body.bytes

/-- A Sink, and a Delivery to it. -/
def notes : WebhookSinkClient := ⟨[⟨"notes", "https://notes.test/hook", [1]⟩]⟩

def plain : WebhookLibraries := ⟨fun payload => .ok payload.transcript.text.toUTF8.data.toList,
  fun secret body => secret ++ body, id⟩

def toNotes : DeliveryRequest where
  recording := { id := "r", clientId := "phone", clientRecordingId := "1", status := .delivering,
                 originalFilename := none, blobPath := none, audioSizeBytes := none,
                 audioDurationMs := none, sampleRateHz := none, channels := none,
                 bitsPerSample := none, tags := ⟨[]⟩, recordedAt := none, receivedAt := 0,
                 selectedSinkName := some "notes", latestError := none, createdAt := 0,
                 updatedAt := 0 }
  delivery := { id := "d", recordingId := "r", sinkName := "notes", status := .delivering,
                selectedAt := 0, completedAt := none, retryDeadlineAt := none, latestError := none }
  transcript := { recordingId := "r", provider := "soniox", text := "hi", rawJson := "{}",
                  providerFileId := none, providerTranscriptionId := none, createdAt := 0 }

/-- The server answers, and the connection may break while it sends the body. -/
def sends (status : Nat) (failure : Option String) (_ : WebhookHttpRequest) : Exchange :=
  .answered status ⟨[[111], [107]], failure⟩

theorem status_judged :
    (Exchange.answered 429 ⟨[[111], [107]], none⟩).Judged
      (deliver plain notes (post (sends 429 none)) toNotes) := by
  obtain ⟨httpRequest, hprepare⟩ : ∃ x, prepare plain notes toNotes = .ok x := ⟨_, rfl⟩
  exact (deliver_judged_iff hprepare).mpr (by simp [sends, Exchange.CutShort, ResponseBody.CutShort])

/-- A delivery that was accepted is tried again. -/
theorem accepted_delivery_retried :
    deliver plain notes (post (sends 200 (some "connection reset"))) toNotes =
      .error (.retryable "webhook_transport" "connection reset") := by
  decide +kernel

end WebhookSinkClient
end Telegraph
