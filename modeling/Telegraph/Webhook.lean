import Telegraph.Config
import Telegraph.Lib.Hex
import Telegraph.BlobStore
import Telegraph.Workers

namespace Telegraph
open Lib

structure TranscriptPayload where
  text : String
deriving DecidableEq, Repr

/-- The JSON payload POSTed to a Webhook Sink. -/
structure WebhookPayload where
  event : String
  recordingId : String
  deliveryId : String
  clientId : String
  clientRecordingId : String
  recordedAt : Option String
  receivedAt : String
  tags : List String
  transcript : TranscriptPayload
deriving DecidableEq, Repr

namespace Payload

def event : String := "recording.transcribed"

def build (recording : Recording) (delivery : Delivery) (transcript : Transcript) :
    WebhookPayload where
  event := event
  recordingId := recording.id
  deliveryId := delivery.id
  clientId := recording.clientId
  clientRecordingId := recording.clientRecordingId
  recordedAt := recording.recordedAt.map OffsetDateTime.format
  receivedAt := Timestamp.format recording.receivedAt
  tags := recording.tags.values
  transcript := ⟨transcript.text⟩

end Payload

structure DeliveryRequest where
  recording : Recording
  delivery : Delivery
  transcript : Transcript

structure ResolvedSink where
  name : String
  url : String
  secret : Bytes
deriving DecidableEq, Repr

inductive WebhookBuildError where
  | missingSecret (envName : String)
  | blankSecret (envName : String)
deriving DecidableEq, Repr

structure WebhookHttpRequest where
  url : String
  headers : List (String × String)
  body : Bytes

structure WebhookResponse where
  status : Nat
  bodyExcerpt : String

/-- `serde_json::to_vec` with its error's text, HMAC-SHA256, and the `Debug` form of
a text, which are libraries. -/
structure WebhookLibraries where
  toVec : WebhookPayload → Except String Bytes
  hmacSha256 : Bytes → Bytes → Bytes
  debug : String → String

structure WebhookSinkClient where
  sinks : List ResolvedSink

namespace WebhookSinkClient

def headerSignature : String := "X-Webhook-Signature"
def headerRequestId : String := "X-Request-ID"
def headerDeliveryId : String := "X-Telegraph-Delivery-Id"

/-- `hmac::sign` -/
def sign (lib : WebhookLibraries) (secret body : Bytes) : String :=
  Hex.text (lib.hmacSha256 secret body)

def readSecret (env : String → Option String) (envName : String) :
    Except WebhookBuildError Bytes :=
  match env envName with
  | none => .error (.missingSecret envName)
  | some value =>
    if (trim value).isEmpty then .error (.blankSecret envName)
    else .ok value.toUTF8.data.toList

def resolveSink (env : String → Option String) : Sink → Except WebhookBuildError ResolvedSink
  | .webhook webhook => do
    let secret ← readSecret env webhook.secretEnv
    .ok ⟨webhook.name, webhook.url, secret⟩

def resolveSinks (env : String → Option String) (sinks : List Sink) :
    Except WebhookBuildError (List ResolvedSink) :=
  sinks.mapM (resolveSink env)

def fromConfig (env : String → Option String) (sinks : List Sink) :
    Except WebhookBuildError WebhookSinkClient := do
  let resolved ← resolveSinks env sinks
  .ok ⟨resolved⟩

def find (client : WebhookSinkClient) (name : String) : Option ResolvedSink :=
  client.sinks.find? (·.name == name)

def mapResponse (response : WebhookResponse) : Except WorkerFailure Unit :=
  if 200 ≤ response.status ∧ response.status < 300 then .ok ()
  else
    let excerpt := trim response.bodyExcerpt
    let message :=
      if excerpt.isEmpty then "HTTP " ++ toString response.status
      else "HTTP " ++ toString response.status ++ ": " ++ excerpt
    let code := "webhook_http_" ++ toString response.status
    if 500 ≤ response.status ∨ response.status = 429 then .error (.retryable code message)
    else .error (.terminal code message)

/-- The part of `deliver` before the transport is called. -/
def prepare (lib : WebhookLibraries) (client : WebhookSinkClient) (request : DeliveryRequest) :
    Except WorkerFailure WebhookHttpRequest :=
  match client.find request.delivery.sinkName with
  | none => .error (.terminal "unknown_sink"
      ("no configured sink named " ++ lib.debug request.delivery.sinkName))
  | some sink =>
    match lib.toVec (Payload.build request.recording request.delivery request.transcript) with
    | .error message => .error (.terminal "payload_serialize" message)
    | .ok body => .ok
      { url := sink.url
        headers := [("Content-Type", "application/json"),
          (headerSignature, sign lib sink.secret body),
          (headerRequestId, request.delivery.id),
          (headerDeliveryId, request.delivery.id)]
        body := body }

/-- `transport` answers the request, or says why there was no response. -/
def deliver (lib : WebhookLibraries) (client : WebhookSinkClient)
    (transport : WebhookHttpRequest → Except String WebhookResponse) (request : DeliveryRequest) :
    Except WorkerFailure Unit := do
  let httpRequest ← prepare lib client request
  match transport httpRequest with
  | .ok response => mapResponse response
  | .error error => .error (.retryable "webhook_transport" error)

end WebhookSinkClient

namespace Delivering

/-- The request `tick_once` hands to the Sink client. -/
def request (candidate : DeliveryCandidate) : DeliveryRequest :=
  ⟨candidate.recording, candidate.delivery, candidate.transcript⟩

end Delivering

structure ConfigRouter where
  rules : List RoutingRule

namespace ConfigRouter

def fromConfig (config : AppConfig) : ConfigRouter := ⟨config.routingRules⟩

/-- The `for` loop of `route` over the rules that are left. -/
def firstMatch (recording : Recording) : List RoutingRule → RoutingDecision
  | [] => .backlog
  | rule :: rules =>
    if rule.matches recording.tags then .sink rule.sinkName else firstMatch recording rules

def route (router : ConfigRouter) (recording : Recording) : RoutingDecision :=
  firstMatch recording router.rules

end ConfigRouter
end Telegraph
