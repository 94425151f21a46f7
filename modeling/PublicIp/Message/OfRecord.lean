import PublicIp.ApiError
import PublicIp.Message

/-!
# Records as messages

`Record.toMessage` makes the message for a record at a location, and `Message.toRecord` the record
for a message. Both are copies, with empty texts on one side for absent ones on the other; what a
message has no room for is lost. `Record.normal` states what is left of a record on the way to a
message and back.
-/

namespace PublicIp

/-- A text, if it is not empty. -/
def nonEmpty (s : String) : Option String := if s = "" then none else some s

/-- The tags of a map, in the order of their keys. -/
def Tag.ofMap (tags : TextMap) : List Tag := tags.entries.map fun (key, value) => ⟨key, value⟩

/-- Of tags with one key the last counts. -/
def Tag.toMap (tags : List Tag) : TextMap := .ofList (tags.map fun tag => (tag.key, tag.value))

namespace Status

def healthKey : String := "HealthState"

def provisioningKey : String := "ProvisionState"

def errorKey : String := "Error"

def versionKey : String := "Version"

/-- The parts that are present, each with the key it is listed under. -/
def parts (status : Status) : List (String × String) :=
  [(healthKey, status.health), (provisioningKey, status.provisioning),
    (errorKey, status.lastError), (versionKey, status.version)].filterMap
    fun (key, part) => part.map (key, ·)

def toMap (status : Status) : TextMap := .ofList status.parts

end Status

/-- The message for a record. The location is that of the operation; the record's own one does not
matter. -/
def Record.toMessage (record : Record) (location : String) : Except ApiError Message :=
  if location = "" then .error (.invalidInput "location not specified")
  else
    match record.name with
    | none => .error (.invalidConfiguration "missing name for public IP address")
    | some name =>
      let properties := record.properties.getD {}
      let dnsSettings := properties.dnsSettings.getD {}
      .ok {
        name
        id := record.id.getD ""
        location
        ipAddress := properties.ipAddress.getD ""
        allocation := properties.allocation.getD .dynamic
        ipVersion := properties.ipVersion.getD .v4
        label := dnsSettings.label.getD ""
        reverseFqdn := dnsSettings.reverseFqdn.getD ""
        tags := record.tags.map Tag.ofMap }

/-- The DNS settings of a message, if it has any. -/
def Message.dnsSettings (message : Message) : Option DnsSettings :=
  if message.label = "" ∧ message.reverseFqdn = "" then none
  else some { label := nonEmpty message.label, reverseFqdn := nonEmpty message.reverseFqdn }

def Message.toRecord (message : Message) : Record where
  name := some message.name
  id := nonEmpty message.id
  location := nonEmpty message.location
  tags := message.tags.map Tag.toMap
  properties := some {
    ipAddress := nonEmpty message.ipAddress
    allocation := some message.allocation
    ipVersion := some message.ipVersion
    dnsSettings := message.dnsSettings
    statuses := (message.status.map Status.toMap).getD ∅ }

/-- DNS settings with empty texts dropped, if anything is left of them. -/
def DnsSettings.normal (settings : DnsSettings) : Option DnsSettings :=
  match settings.label.bind nonEmpty, settings.reverseFqdn.bind nonEmpty with
  | none, none => none
  | label, reverseFqdn => some { label, reverseFqdn }

/-- Properties with allocation and version filled in, and without what messages do not carry. -/
def Properties.normal (properties : Properties) : Properties where
  ipAddress := properties.ipAddress.bind nonEmpty
  allocation := some (properties.allocation.getD .dynamic)
  ipVersion := some (properties.ipVersion.getD .v4)
  dnsSettings := properties.dnsSettings.bind DnsSettings.normal

/-- The record at a location, reduced to what messages carry. -/
def Record.normal (record : Record) (location : String) : Record where
  name := record.name
  id := record.id.bind nonEmpty
  location := some location
  tags := record.tags
  properties := some (record.properties.getD {}).normal

end PublicIp
