import PublicIp.Client.Deadline
import PublicIp.Envelope

/-!
# Dialogues of the client with the agent

A `Dialogue` is what one operation of the client does, step by step: it notes events, and sends
envelopes of which it awaits the reply. It does not say how envelopes travel; `Dialogue.run` carries
it out over any `Transport`. A call that fails ends the dialogue with that failure.
-/

namespace PublicIp

/-- What the client notes about its work. -/
inductive ClientEvent
  | lookup (location name : String)
  | put (location name : String)
  | delete (location name : String)
  | precheck (location : String) (count : Nat)
  | skipped (index : Nat)
  /-- The reply to a creation held more than one record. -/
  | surplus (location name : String) (count : Nat)
  deriving DecidableEq, Repr

namespace ClientEvent

inductive Level
  | debug
  | warn
  deriving DecidableEq, Repr

/-- A detail of an event. -/
inductive Detail
  | text (s : String)
  | count (n : Nat)
  deriving DecidableEq, Repr

def level : ClientEvent → Level
  | .surplus .. => .warn
  | _ => .debug

def message : ClientEvent → String
  | .lookup .. => "get public IP address"
  | .put .. => "create or update public IP address"
  | .delete .. => "delete public IP address"
  | .precheck .. => "precheck public IP addresses"
  | .skipped .. => "skipping absent precheck entry"
  | .surplus .. => "agent returned more than one record"

/-- The details, by name. -/
def details : ClientEvent → List (String × Detail)
  | .lookup location name | .put location name | .delete location name =>
    [("location", .text location), ("name", .text name)]
  | .precheck location count => [("location", .text location), ("count", .count count)]
  | .skipped index => [("index", .count index)]
  | .surplus location name count =>
    [("location", .text location), ("name", .text name), ("count", .count count)]

end ClientEvent

/-- The two calls that an agent answers, over a state of what lies between. -/
structure Transport (σ : Type) where
  invoke : Deadline → Request → σ → Except ApiError Response × σ
  precheck : Deadline → PrecheckRequest → σ → Except ApiError PrecheckResponse × σ

inductive Dialogue (α : Type)
  | done (result : Except ApiError α)
  | note (event : ClientEvent) (next : Dialogue α)
  | invoke (request : Request) (next : Response → Dialogue α)
  | precheck (request : PrecheckRequest) (next : PrecheckResponse → Dialogue α)

/-- A step of a dialogue that was carried out. -/
inductive Step
  | noted (event : ClientEvent)
  | invoked (request : Request)
  | prechecked (request : PrecheckRequest)
  deriving DecidableEq, Repr

namespace Dialogue

variable {α β σ : Type}

def bind : Dialogue α → (α → Dialogue β) → Dialogue β
  | .done (.ok a), f => f a
  | .done (.error e), _ => .done (.error e)
  | .note event next, f => .note event (next.bind f)
  | .invoke request next, f => .invoke request fun response => (next response).bind f
  | .precheck request next, f => .precheck request fun response => (next response).bind f

instance : Monad Dialogue where
  pure a := .done (.ok a)
  bind := bind

instance : MonadLift (Except ApiError) Dialogue := ⟨.done⟩

/-- Ends with a failure. -/
def fail (error : ApiError) : Dialogue α := .done (.error error)

/-- Notes an event. -/
def noting (event : ClientEvent) : Dialogue Unit := .note event (pure ())

/-- Sends an envelope. -/
def sending (request : Request) : Dialogue Response := .invoke request pure

/-- Asks for a precheck. -/
def asking (request : PrecheckRequest) : Dialogue PrecheckResponse := .precheck request pure

/-- Carries out a dialogue: its result, the steps that were taken, and the state afterwards. -/
def run (transport : Transport σ) (deadline : Deadline) :
    Dialogue α → σ → Except ApiError α × List Step × σ
  | .done result, state => (result, [], state)
  | .note event next, state =>
    let (result, steps, state) := next.run transport deadline state
    (result, .noted event :: steps, state)
  | .invoke request next, state =>
    match transport.invoke deadline request state with
    | (.error error, state) => (.error error, [.invoked request], state)
    | (.ok response, state) =>
      let (result, steps, state) := (next response).run transport deadline state
      (result, .invoked request :: steps, state)
  | .precheck request next, state =>
    match transport.precheck deadline request state with
    | (.error error, state) => (.error error, [.prechecked request], state)
    | (.ok response, state) =>
      let (result, steps, state) := (next response).run transport deadline state
      (result, .prechecked request :: steps, state)

end Dialogue

end PublicIp
