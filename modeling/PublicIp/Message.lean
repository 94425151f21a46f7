import PublicIp.Record

/-!
# Messages of the agent protocol

A `Message` is a public IP address as client and agent pass it to each other, and the envelopes
carry lists of them. Texts that are not given are empty. The field names in the schemas are a
contract with the agent.
-/

namespace PublicIp

open Json

structure Tag where
  key : String := ""
  value : String := ""
  deriving DecidableEq, Repr, Inhabited

/-- What the agent reports about an address, each part if it is present. -/
structure Status where
  health : Option String := none
  provisioning : Option String := none
  lastError : Option String := none
  version : Option String := none
  deriving DecidableEq, Repr, Inhabited

structure Message where
  name : String := ""
  id : String := ""
  location : String := ""
  ipAddress : String := ""
  allocation : Allocation := .dynamic
  ipVersion : IpVersion := .v4
  label : String := ""
  reverseFqdn : String := ""
  status : Option Status := none
  tags : Option (List Tag) := none
  deriving DecidableEq, Repr, Inhabited

inductive Operation
  | get
  | post
  | delete
  deriving DecidableEq, Repr, Inhabited

/-- The envelope of an operation on addresses. -/
structure Request where
  operation : Operation
  addresses : List Message := []
  deriving DecidableEq, Repr, Inhabited

structure Response where
  addresses : List Message := []
  result : Option Bool := none
  error : String := ""
  deriving DecidableEq, Repr, Inhabited

/-- The envelope of a question whether addresses could be created. -/
structure PrecheckRequest where
  addresses : List Message := []
  deriving DecidableEq, Repr, Inhabited

structure PrecheckResponse where
  result : Option Bool := none
  error : String := ""
  deriving DecidableEq, Repr, Inhabited

namespace Operation

def word : Operation → String
  | .get => "GET"
  | .post => "POST"
  | .delete => "DELETE"

def ofWord? : String → Option Operation
  | "GET" => some .get
  | "POST" => some .post
  | "DELETE" => some .delete
  | _ => none

def codec : Codec Operation where
  schema := .choice ["GET", "POST", "DELETE"]
  toDatum operation := .choice operation.word
  ofDatum?
    | .choice word => ofWord? word
    | _ => none

end Operation

def Tag.codec : Codec Tag where
  schema := .record [.text "key", .text "value"]
  toDatum tag := .record [some (.text tag.key), some (.text tag.value)]
  ofDatum?
    | .record [some (.text key), some (.text value)] => some { key, value }
    | _ => none

/-- Tags stand in an object of their own. -/
def Tag.listCodec : Codec (List Tag) where
  schema := .record [.list "tags" Tag.codec.schema]
  toDatum tags := .record [some (Tag.codec.list.toDatum tags)]
  ofDatum?
    | .record [some tags] => Tag.codec.list.ofDatum? tags
    | _ => none

namespace Status

def healthCodec : Codec String := .wrappedText "currentState"

def provisioningCodec : Codec String := .wrappedText "currentState"

def errorCodec : Codec String := .wrappedText "message"

def versionCodec : Codec String := .wrappedText "number"

end Status

/-- A part of a message that may be missing in every form. -/
def Message.part (name : String) (schema : Schema) : Field := ⟨name, .optional true, schema⟩

def Status.codec : Codec Status where
  schema := .record [
    Message.part "health" healthCodec.schema,
    Message.part "provisioningStatus" provisioningCodec.schema,
    Message.part "lastError" errorCodec.schema,
    Message.part "version" versionCodec.schema]
  toDatum status := .record [
    healthCodec.toSlot status.health,
    provisioningCodec.toSlot status.provisioning,
    errorCodec.toSlot status.lastError,
    versionCodec.toSlot status.version]
  ofDatum?
    | .record [health, provisioning, lastError, version] => do
      let health ← healthCodec.ofSlot? health
      let provisioning ← provisioningCodec.ofSlot? provisioning
      let lastError ← errorCodec.ofSlot? lastError
      let version ← versionCodec.ofSlot? version
      return { health, provisioning, lastError, version }
    | _ => none

def Message.codec : Codec Message where
  schema := .record [
    .text "name",
    .text "id",
    .text "locationName",
    .text "ipAddress",
    ⟨"allocation", .defaulted (Allocation.codec.toDatum .dynamic) false, Allocation.codec.schema⟩,
    ⟨"ipVersion", .defaulted (IpVersion.codec.toDatum .v4) false, IpVersion.codec.schema⟩,
    .text "domainNameLabel",
    .text "reverseFqdn",
    part "status" Status.codec.schema,
    part "tags" Tag.listCodec.schema]
  toDatum message := .record [
    some (.text message.name),
    some (.text message.id),
    some (.text message.location),
    some (.text message.ipAddress),
    some (Allocation.codec.toDatum message.allocation),
    some (IpVersion.codec.toDatum message.ipVersion),
    some (.text message.label),
    some (.text message.reverseFqdn),
    Status.codec.toSlot message.status,
    Tag.listCodec.toSlot message.tags]
  ofDatum?
    | .record [some (.text name), some (.text id), some (.text location), some (.text ipAddress),
        some allocation, some ipVersion, some (.text label), some (.text reverseFqdn), status,
        tags] => do
      let allocation ← Allocation.codec.ofDatum? allocation
      let ipVersion ← IpVersion.codec.ofDatum? ipVersion
      let status ← Status.codec.ofSlot? status
      let tags ← Tag.listCodec.ofSlot? tags
      return { name, id, location, ipAddress, allocation, ipVersion, label, reverseFqdn, status,
               tags }
    | _ => none

/-- A truth value stands in an object of its own, and is false when it is not given. -/
def verdictCodec : Codec Bool where
  schema := .record [⟨"value", .defaulted (.flag false) false, .flag⟩]
  toDatum b := .record [some (.flag b)]
  ofDatum?
    | .record [some (.flag b)] => some b
    | _ => none

/-- The field that carries the addresses of an envelope. -/
def addressesField : String := "publicIPAddresses"

def Request.codec : Codec Request where
  schema := .record [
    ⟨"operationType", .required, Operation.codec.schema⟩,
    .list addressesField Message.codec.schema]
  toDatum request := .record [
    some (Operation.codec.toDatum request.operation),
    some (Message.codec.list.toDatum request.addresses)]
  ofDatum?
    | .record [some operation, some addresses] => do
      let operation ← Operation.codec.ofDatum? operation
      let addresses ← Message.codec.list.ofDatum? addresses
      return { operation, addresses }
    | _ => none

def Response.codec : Codec Response where
  schema := .record [
    .list addressesField Message.codec.schema,
    Message.part "result" verdictCodec.schema,
    .text "error"]
  toDatum response := .record [
    some (Message.codec.list.toDatum response.addresses),
    verdictCodec.toSlot response.result,
    some (.text response.error)]
  ofDatum?
    | .record [some addresses, result, some (.text error)] => do
      let addresses ← Message.codec.list.ofDatum? addresses
      let result ← verdictCodec.ofSlot? result
      return { addresses, result, error }
    | _ => none

def PrecheckRequest.codec : Codec PrecheckRequest where
  schema := .record [.list addressesField Message.codec.schema]
  toDatum request := .record [some (Message.codec.list.toDatum request.addresses)]
  ofDatum?
    | .record [some addresses] => do
      let addresses ← Message.codec.list.ofDatum? addresses
      return { addresses }
    | _ => none

def PrecheckResponse.codec : Codec PrecheckResponse where
  schema := .record [Message.part "result" verdictCodec.schema, .text "error"]
  toDatum response := .record [verdictCodec.toSlot response.result, some (.text response.error)]
  ofDatum?
    | .record [result, some (.text error)] => do
      let result ← verdictCodec.ofSlot? result
      return { result, error }
    | _ => none

end PublicIp
