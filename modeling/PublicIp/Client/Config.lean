import PublicIp.ApiError
import PublicIp.Environment
import PublicIp.Http.Protocol

/-!
# Settings of the client

Where the agent is, how long to wait for a connection, and what credential to show.
-/

namespace PublicIp

/-- A text without the slashes it ends in. -/
def trimSlashes (s : String) : String :=
  String.ofList (s.toList.reverse.dropWhile (· = '/')).reverse

structure AgentConfig where
  endpoint : String
  /-- Milliseconds to wait for a connection. -/
  connectTimeout : Nat
  deriving DecidableEq, Repr

namespace AgentConfig

def defaultConnectTimeout : Nat := 10000

def ofEndpoint (endpoint : String) : AgentConfig := ⟨trimSlashes endpoint, defaultConnectTimeout⟩

instance : Inhabited AgentConfig := ⟨ofEndpoint "http://127.0.0.1:55000"⟩

/-- The environment variable that overrides the endpoint. -/
def endpointVariable : String := "PIP_AGENT_URL"

/-- The settings for a value of `endpointVariable`. -/
def ofEnvironment (value : Option String) : AgentConfig :=
  match givenText value with
  | some endpoint => ofEndpoint endpoint
  | none => default

end AgentConfig

/-- What the client shows to the agent. -/
inductive Credential
  | anonymous
  | bearer (token : String)
  deriving DecidableEq

namespace Credential

/-- The environment variable that holds a token. -/
def tokenVariable : String := "PIP_AGENT_TOKEN"

/-- The credential for a value of `tokenVariable`. -/
def ofEnvironment (value : Option String) : Credential :=
  match givenText value with
  | some token => .bearer token
  | none => .anonymous

/-- The value of the authorization field, if one is sent. -/
def authorization : Credential → Except ApiError (Option String)
  | .anonymous => .ok none
  | .bearer token =>
    if token = "" then .error (.invalidConfiguration "bearer token is empty")
    else .ok (some (Http.bearer token))

/-- A description that does not show the token. -/
def description : Credential → String
  | .anonymous => "Anonymous"
  | .bearer _ => "BearerToken \x7b token: \"<redacted>\" \x7d"

end Credential

end PublicIp
