import PublicIp.Message

/-!
# What the agent stores

An `Entry` is an address as the agent holds it. The agent has a schema of its own: it takes any
texts for allocation and version, and keeps status and tags as whatever values they are. The
envelopes of the agent are read and written here too.
-/

namespace PublicIp.Agent

open Json

structure Entry where
  name : String := ""
  id : String := ""
  location : String := ""
  ipAddress : String := ""
  allocation : String := ""
  ipVersion : String := ""
  label : String := ""
  reverseFqdn : String := ""
  status : Option Value := none
  tags : Option Value := none
  deriving Repr, Inhabited

/-- An operation as the agent receives it. -/
structure Invocation where
  operation : Operation
  entries : List Entry := []
  deriving Inhabited

/-- The answer to an operation that was carried out. -/
structure Answer where
  entries : List Entry := []
  error : String := ""
  deriving Inhabited

/-- The answer to a precheck. -/
structure Verdict where
  accepted : Bool
  error : String := ""
  deriving DecidableEq, Inhabited

/-- A text that is not written when it is empty. -/
def Entry.optionalText (name : String) : Field := ⟨name, .defaulted (.text "") true, .text⟩

def Entry.codec : Codec Entry where
  schema := .record [
    .text "name",
    .text "id",
    .text "locationName",
    .text "ipAddress",
    optionalText "allocation",
    optionalText "ipVersion",
    .text "domainNameLabel",
    .text "reverseFqdn",
    Message.part "status" .raw,
    Message.part "tags" .raw]
  toDatum entry := .record [
    some (.text entry.name),
    some (.text entry.id),
    some (.text entry.location),
    some (.text entry.ipAddress),
    some (.text entry.allocation),
    some (.text entry.ipVersion),
    some (.text entry.label),
    some (.text entry.reverseFqdn),
    Codec.raw.toSlot entry.status,
    Codec.raw.toSlot entry.tags]
  ofDatum?
    | .record [some (.text name), some (.text id), some (.text location), some (.text ipAddress),
        some (.text allocation), some (.text ipVersion), some (.text label),
        some (.text reverseFqdn), status, tags] => do
      let status ← Codec.raw.ofSlot? status
      let tags ← Codec.raw.ofSlot? tags
      return { name, id, location, ipAddress, allocation, ipVersion, label, reverseFqdn, status,
               tags }
    | _ => none

def Invocation.codec : Codec Invocation where
  schema := .record [
    ⟨"operationType", .required, Operation.codec.schema⟩,
    .list addressesField Entry.codec.schema]
  toDatum invocation := .record [
    some (Operation.codec.toDatum invocation.operation),
    some (Entry.codec.list.toDatum invocation.entries)]
  ofDatum?
    | .record [some operation, some entries] => do
      let operation ← Operation.codec.ofDatum? operation
      let entries ← Entry.codec.list.ofDatum? entries
      return { operation, entries }
    | _ => none

/-- The addresses that a precheck asks about. -/
def precheckCodec : Codec (List Entry) where
  schema := .record [.list addressesField Entry.codec.schema]
  toDatum entries := .record [some (Entry.codec.list.toDatum entries)]
  ofDatum?
    | .record [some entries] => Entry.codec.list.ofDatum? entries
    | _ => none

def Answer.codec : Codec Answer where
  schema := .record [
    ⟨addressesField, .required, .list Entry.codec.schema⟩,
    ⟨"error", .required, .text⟩]
  toDatum answer := .record [
    some (Entry.codec.list.toDatum answer.entries),
    some (.text answer.error)]
  ofDatum?
    | .record [some entries, some (.text error)] => do
      let entries ← Entry.codec.list.ofDatum? entries
      return { entries, error }
    | _ => none

/-- The agent always gives the truth value. -/
def acceptedCodec : Codec Bool where
  schema := .record [⟨"value", .required, .flag⟩]
  toDatum b := .record [some (.flag b)]
  ofDatum?
    | .record [some (.flag b)] => some b
    | _ => none

def Verdict.codec : Codec Verdict where
  schema := .record [
    ⟨"result", .required, acceptedCodec.schema⟩,
    ⟨"error", .required, .text⟩]
  toDatum verdict := .record [
    some (acceptedCodec.toDatum verdict.accepted),
    some (.text verdict.error)]
  ofDatum?
    | .record [some accepted, some (.text error)] => do
      let accepted ← acceptedCodec.ofDatum? accepted
      return { accepted, error }
    | _ => none

end PublicIp.Agent
