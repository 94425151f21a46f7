import PublicIp.Agent.Service
import PublicIp.Environment
import PublicIp.Text.Whole

/-!
# The settings of the agent program

The program is set up by its environment: the number to listen on at the local host, a token that
requests must show, and how much to log.
-/

namespace PublicIp.Agent

/-- The environment variables of the program; a value that is no text counts as unset. -/
structure Environment where
  portText : Option String := none
  token : Option String := none
  logFilter : Option String := none
  deriving DecidableEq

namespace Environment

def portVariable : String := "PORT"

def tokenVariable : String := "MOCK_AGENT_TOKEN"

def logVariable : String := "RUST_LOG"

end Environment

structure Settings where
  portNumber : Nat
  /-- The address to listen on, its number written as it was given. -/
  address : String
  service : Service
  /-- Whether events are logged. -/
  logs : Bool

/-- Why the program did not start. -/
inductive StartError
  | invalidPort
  deriving DecidableEq, Repr

def StartError.message : StartError → String
  | .invalidPort => "invalid port value"

namespace Settings

def host : String := "127.0.0.1"

/-- The number of an address is at most 65535. -/
def portNumber? (text : String) : Option Nat :=
  (Text.whole? 10 text.toList).filter (· ≤ 65535)

/-- The log filters that leave events of the level "info" out. -/
def quietFilters : List String := ["", "off", "error", "warn", "0", "1", "2"]

def ofEnvironment (environment : Environment) : Except StartError Settings :=
  let written := environment.portText.getD "55000"
  match portNumber? written with
  | none => .error .invalidPort
  | some portNumber => .ok {
      portNumber
      address := host ++ ":" ++ written
      service := { token := givenText environment.token }
      logs := environment.logFilter.all fun filter => !quietFilters.contains (Http.lowerCase filter) }

/-- The address that is bound. -/
def boundAddress (settings : Settings) : String := host ++ ":" ++ toString settings.portNumber

/-- The service as it starts. -/
def initial (settings : Settings) : Service.State := { events := [.listening settings.address] }

/-- The lines that are logged. -/
def logLines (settings : Settings) (state : Service.State) : List String :=
  if settings.logs then state.events.map Event.text else []

end Settings

end PublicIp.Agent
