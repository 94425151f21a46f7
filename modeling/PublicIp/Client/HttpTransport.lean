import PublicIp.Client.Config
import PublicIp.Client.Dialogue
import PublicIp.Http.Channel
import PublicIp.Http.Protocol
import PublicIp.Http.Reply
import PublicIp.Http.Url
import PublicIp.Text.Quoted

/-!
# The transport over HTTP

`HttpTransport.connect` checks where the agent is said to be. A call is a POST of the envelope to one
of two paths below the endpoint; `HttpTransport.prepare` makes the request, and all checks that can
fail before anything is sent are there. `Http.Outcome.content` says what a reply means.
-/

namespace PublicIp

open Json

/-- The body of a complete reply, if the call succeeded. -/
def Http.Response.content (response : Http.Response) : Except ApiError String :=
  if Http.isRedirect response.status then .error (.transport "redirected nowhere")
  else
    match String.fromUTF8? response.body with
    | none => .error (.transport "reply is not text")
    | some body =>
      if 200 ≤ response.status ∧ response.status < 300 then .ok body
      else if response.status = 404 then .error (.notFound body)
      else .error (.http response.status body)

/-- The body of the reply to a call, if the call succeeded. -/
def Http.Outcome.content (outcome : Http.Outcome) : Except ApiError String :=
  match outcome, outcome.final? with
  | .silent, _ => .error .deadlineExceeded
  | _, none => .error (.transport "connection closed before a complete reply")
  | _, some response => response.content

structure HttpTransport where
  endpoint : String
  subscription : String
  credential : Credential
  deriving DecidableEq

namespace HttpTransport

/-- What an endpoint starts with. -/
def schemes : List String := ["http://", "https://"]

def hasScheme (endpoint : String) : Bool :=
  schemes.any fun scheme => scheme.toList.isPrefixOf endpoint.toList

/-- A transport to the agent for one subscription. -/
def connect (config : AgentConfig) (subscription : String) (credential : Credential) :
    Except ApiError HttpTransport :=
  if subscription = "" then .error (.invalidInput "subscription id not specified")
  else if hasScheme config.endpoint then
    .ok { endpoint := trimSlashes config.endpoint, subscription, credential }
  else
    .error (.invalidConfiguration
      ("agent endpoint must be an http(s) URL, got [" ++ config.endpoint ++ "]"))

/-- A description that does not show the token. -/
def description (transport : HttpTransport) : String :=
  "HttpTransport \x7b endpoint: " ++ Text.quoted transport.endpoint
    ++ ", subscription_id: " ++ Text.quoted transport.subscription
    ++ ", authorizer: " ++ transport.credential.description ++ " \x7d"

/-- The request that carries an envelope, unless the deadline is over, there is no credential to
show, a value cannot stand in its header field, or the endpoint does not make a URL. What shows the
credential has to be visible. Where there is no credential, a user that the endpoint names is shown. -/
def prepare (transport : HttpTransport) (deadline : Deadline) (now : Nat) (path body : String) :
    Except ApiError Http.Request := do
  let _ ← deadline.remaining now
  let authorization ← transport.credential.authorization
  let legal := Http.isFieldValue transport.subscription && authorization.all Http.isVisible
  match Http.Url.ofString? (transport.endpoint ++ path), legal with
  | none, _ => .error (.transport "not a URL")
  | some _, false => .error (.transport "illegal header value")
  | some url, true =>
    let shown := authorization.orElse fun _ => url.user?.map Http.basic
    return {
      method := "POST"
      target := url.target
      headers :=
        [(Http.contentTypeField, "application/json"),
          (Http.subscriptionField, transport.subscription)]
          ++ (shown.map fun value => (Http.authorizationField, value)).toList
          ++ [("content-length", toString body.utf8ByteSize)]
      body := body.toUTF8 }

/-- Sends an envelope and reads the reply. -/
def call {α σ : Type} (transport : HttpTransport) (channel : Http.Channel σ) (reply : Codec α)
    (deadline : Deadline) (path body : String) (state : σ) : Except ApiError α × σ :=
  match transport.prepare deadline (channel.now state) path body with
  | .error error => (.error error, state)
  | .ok request =>
    let (outcome, state) := channel.exchange request state
    let result := outcome.content.bind fun text =>
      (reply.decodeString text).mapError fun _ => .deserialization "not the expected reply"
    (result, state)

/-- The calls of the agent over a channel. -/
def toTransport {σ : Type} (transport : HttpTransport) (channel : Http.Channel σ) : Transport σ where
  invoke deadline request :=
    transport.call channel Response.codec deadline Http.invokePath (Request.codec.encode request)
  precheck deadline request :=
    transport.call channel PrecheckResponse.codec deadline Http.precheckPath
      (PrecheckRequest.codec.encode request)

end HttpTransport

end PublicIp
