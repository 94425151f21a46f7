import PublicIp.Agent.Registry
import PublicIp.Http.Channel
import PublicIp.Http.MediaType
import PublicIp.Http.Protocol
import PublicIp.Http.Url

/-!
# The agent as an HTTP service

`Service.handle` answers a request. A service with a token looks at nothing but the authorization
field of a request that does not show it. The checks of all other requests come in a fixed order:
path, method, content type, size, and then the body. `Service.channel` connects a client to a
service that runs, with its registry and its supply of ids as the state in between.

A service may meet the entries of its registry in any order (`Service.Scan`). A search sorts what it
finds, so only a precheck shows the order, by the holder of an address that it names.
-/

namespace PublicIp.Agent

open Json

/-- A service that runs: its registry, how many ids were drawn, and what was noted, in order. -/
structure Service.State where
  registry : Registry := ∅
  drawn : Nat := 0
  events : List Event := []
  deriving Inhabited

/-- The order in which a service meets the entries of its registry. It may be another one in each
state, and a service that has carried out an operation or a precheck is in a state of its own. -/
structure Service.Scan where
  order : Service.State → List Entry
  perm : ∀ state, (order state).Perm state.registry.values

/-- The order of the keys. -/
def Service.Scan.ascending : Service.Scan where
  order state := state.registry.values
  perm state := List.Perm.refl state.registry.values

/-- A service, with the token that requests must show if there is one. -/
structure Service where
  token : Option String := none
  scan : Service.Scan := .ascending

namespace Service

/-- Whether the first authorization field of a request shows a token. -/
def shows (token : String) (request : Http.Request) : Bool :=
  (request.header? Http.authorizationField).any fun value =>
    Http.isVisible value && value == Http.bearer token

def admits (service : Service) (request : Http.Request) : Bool :=
  service.token.all (shows · request)

/-- The most bytes of the body of a request. -/
def maxBodySize : Nat := 2097152

/-- The value in the body of a request, or the reply that refuses it. The replies with the status 400
and 422 tell what was wrong after a colon, which is left out here. -/
def readBody {α : Type} (codec : Codec α) (request : Http.Request) : Except Http.Response α :=
  if !(request.header? Http.contentTypeField).any Http.isJson then
    .error (.ofText 415 "Expected request with \x60Content-Type: application/json\x60")
  else if maxBodySize < request.body.size then
    .error (.ofText 413 "Failed to buffer the request body: length limit exceeded")
  else
    match codec.decodeBytes request.body with
    | .ok value => .ok value
    | .error .malformed => .error (.ofText 400 "Failed to parse the request body as JSON")
    | .error .mismatch =>
      .error (.ofText 422 "Failed to deserialize the JSON body into the target type")

/-- The reply to an operation. -/
def replyTo : Except Refusal Answer → Http.Response
  | .ok answer => .ofText 200 (Answer.codec.encode answer)
  | .error (.incomplete name) => .ofText 400 (Refusal.incomplete name).text
  | .error (.missing name) => .ofText 404 (Refusal.missing name).text

/-- A reply that changes nothing. -/
def refuse (registry : Registry) (response : Http.Response) : Effect Http.Response :=
  { answer := response, registry }

/-- Answers a request that was admitted, where the entries are met in some order. -/
def route (ids : Nat → String) (order : List Entry) (request : Http.Request) (registry : Registry) :
    Effect Http.Response :=
  let path := Http.path request.target
  if path ≠ Http.invokePath ∧ path ≠ Http.precheckPath then refuse registry (.ofText 404 "")
  else if request.method ≠ "POST" then refuse registry (.ofText 405 "")
  else if path = Http.invokePath then
    match readBody Invocation.codec request with
    | .error response => refuse registry response
    | .ok invocation =>
      let effect := registry.invoke ids invocation
      { effect with answer := replyTo effect.answer }
  else
    match readBody precheckCodec request with
    | .error response => refuse registry response
    | .ok wanted =>
      let effect := registry.precheck order wanted
      { effect with answer := .ofText 200 (Verdict.codec.encode effect.answer) }

/-- Answers a request, where the entries are met in some order. -/
def handle (service : Service) (ids : Nat → String) (order : List Entry) (request : Http.Request)
    (registry : Registry) : Effect Http.Response :=
  if service.admits request then route ids order request registry
  else refuse registry (.ofText 401 "")

/-- Answers the next request, with ids from a supply. -/
def serve (service : Service) (supply : Nat → String) (request : Http.Request) (state : State) :
    Http.Response × State :=
  let effect := service.handle (fun n => supply (state.drawn + n)) (service.scan.order state) request
    state.registry
  (effect.answer, {
    registry := effect.registry
    drawn := state.drawn + effect.drawn
    events := state.events ++ effect.events })

/-- The channel to a service that runs. -/
def channel (service : Service) (supply : Nat → String) (now : Nat) : Http.Channel State where
  now _ := now
  exchange request state :=
    let (response, state) := service.serve supply request.received state
    (.reply response, state)

end Service

end PublicIp.Agent
