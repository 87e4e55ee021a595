import Telegraph.Lib.Utf8
import Telegraph.Webhook

namespace Telegraph
open Lib

/-- The chunks of a response's body, and the error of the read after the last one when the
body does not end there. -/
structure ResponseBody where
  chunks : List Bytes
  failure : Option String

/-- What the HTTP client makes of a request: the error of sending it, or a response. -/
inductive Exchange where
  | failed (error : String)
  | answered (status : Nat) (body : ResponseBody)

namespace ReqwestWebhookTransport

def maxBodyExcerpt : Nat := 2048

/-- The loop of `read_excerpt`. -/
def excerptLoop (failure : Option String) : List Bytes → Bytes → Except String Bytes
  | [], buffer =>
    if buffer.length < maxBodyExcerpt then failure.elim (.ok buffer) .error else .ok buffer
  | chunk :: chunks, buffer =>
    if buffer.length < maxBodyExcerpt then
      let take := min (maxBodyExcerpt - buffer.length) chunk.length
      -- the cap is reached within the chunk
      if take < chunk.length then .ok (buffer ++ chunk.take take)
      else excerptLoop failure chunks (buffer ++ chunk.take take)
    else .ok buffer

def readExcerpt (body : ResponseBody) : Except String String := do
  let buffer ← excerptLoop body.failure body.chunks []
  .ok (Utf8.lossy buffer)

/-- `send` is the HTTP client. -/
def post (send : WebhookHttpRequest → Exchange) (request : WebhookHttpRequest) :
    Except String WebhookResponse :=
  match send request with
  | .failed error => .error error
  | .answered status body => do
    let bodyExcerpt ← readExcerpt body
    .ok ⟨status, bodyExcerpt⟩

end ReqwestWebhookTransport
end Telegraph
