import PublicIp.Json.Codec

/-!
# Records of public IP addresses

A `Record` is a public IP address as a caller sees it. Every part is optional, so that one type
serves look-ups, which give a name only, and descriptions of a whole address; which parts an
operation needs is checked where a message is built from a record.
-/

namespace PublicIp

open Json

/-- Whether the address stays the same while nothing is attached to it. -/
inductive Allocation
  | dynamic
  | static
  deriving DecidableEq, Repr, Inhabited

inductive IpVersion
  | v4
  | v6
  deriving DecidableEq, Repr, Inhabited

/-- Texts by name. -/
abbrev TextMap := OrderedMap String String

structure DnsSettings where
  label : Option String := none
  fqdn : Option String := none
  reverseFqdn : Option String := none
  deriving DecidableEq, Inhabited

structure Properties where
  ipAddress : Option String := none
  allocation : Option Allocation := none
  ipVersion : Option IpVersion := none
  dnsSettings : Option DnsSettings := none
  idleTimeoutInMinutes : Option UInt32 := none
  /-- What the agent reports, by the name of the part. -/
  statuses : TextMap := ∅
  deriving DecidableEq, Inhabited

structure Record where
  name : Option String := none
  id : Option String := none
  location : Option String := none
  kind : Option String := none
  tags : Option TextMap := none
  properties : Option Properties := none
  deriving DecidableEq, Inhabited

/-- The record of a look-up by name. -/
def Record.named (name : String) : Record := { name := some name }

namespace Allocation

def word : Allocation → String
  | .dynamic => "Dynamic"
  | .static => "Static"

def ofWord? : String → Option Allocation
  | "Dynamic" => some .dynamic
  | "Static" => some .static
  | _ => none

def codec : Codec Allocation where
  schema := .choice ["Static", "Dynamic"]
  toDatum allocation := .choice allocation.word
  ofDatum?
    | .choice word => ofWord? word
    | _ => none

end Allocation

namespace IpVersion

def word : IpVersion → String
  | .v4 => "IPv4"
  | .v6 => "IPv6"

def ofWord? : String → Option IpVersion
  | "IPv4" => some .v4
  | "IPv6" => some .v6
  | _ => none

def codec : Codec IpVersion where
  schema := .choice ["IPv4", "IPv6"]
  toDatum version := .choice version.word
  ofDatum?
    | .choice word => ofWord? word
    | _ => none

end IpVersion

/-- A part of a record. In an array it may be `null` but not absent. -/
def Record.part (name : String) (schema : Schema) : Field := ⟨name, .optional false, schema⟩

def DnsSettings.codec : Codec DnsSettings where
  schema := .record [
    Record.part "domainNameLabel" .text,
    Record.part "fqdn" .text,
    Record.part "reverseFqdn" .text]
  toDatum settings := .record [
    Codec.text.toSlot settings.label,
    Codec.text.toSlot settings.fqdn,
    Codec.text.toSlot settings.reverseFqdn]
  ofDatum?
    | .record [label, fqdn, reverseFqdn] => do
      let label ← Codec.text.ofSlot? label
      let fqdn ← Codec.text.ofSlot? fqdn
      let reverseFqdn ← Codec.text.ofSlot? reverseFqdn
      return { label, fqdn, reverseFqdn }
    | _ => none

/-- The codec of whole numbers of minutes. -/
def minutesCodec : Codec UInt32 where
  schema := .count
  toDatum minutes := .count minutes.toNat
  ofDatum?
    | .count n => some (UInt32.ofNat n)
    | _ => none

def Properties.codec : Codec Properties where
  schema := .record [
    Record.part "ipAddress" .text,
    Record.part "allocationMethod" Allocation.codec.schema,
    Record.part "ipVersion" IpVersion.codec.schema,
    Record.part "dnsSettings" DnsSettings.codec.schema,
    Record.part "idleTimeoutInMinutes" .count,
    ⟨"statuses", .defaulted (.map ∅) true, .map⟩]
  toDatum properties := .record [
    Codec.text.toSlot properties.ipAddress,
    Allocation.codec.toSlot properties.allocation,
    IpVersion.codec.toSlot properties.ipVersion,
    DnsSettings.codec.toSlot properties.dnsSettings,
    minutesCodec.toSlot properties.idleTimeoutInMinutes,
    some (.map properties.statuses)]
  ofDatum?
    | .record [ipAddress, allocation, ipVersion, dnsSettings, minutes, some (.map statuses)] => do
      let ipAddress ← Codec.text.ofSlot? ipAddress
      let allocation ← Allocation.codec.ofSlot? allocation
      let ipVersion ← IpVersion.codec.ofSlot? ipVersion
      let dnsSettings ← DnsSettings.codec.ofSlot? dnsSettings
      let idleTimeoutInMinutes ← minutesCodec.ofSlot? minutes
      return { ipAddress, allocation, ipVersion, dnsSettings, idleTimeoutInMinutes, statuses }
    | _ => none

def Record.codec : Codec Record where
  schema := .record [
    Record.part "name" .text,
    Record.part "id" .text,
    Record.part "location" .text,
    Record.part "type" .text,
    Record.part "tags" .map,
    Record.part "properties" Properties.codec.schema]
  toDatum record := .record [
    Codec.text.toSlot record.name,
    Codec.text.toSlot record.id,
    Codec.text.toSlot record.location,
    Codec.text.toSlot record.kind,
    Codec.map.toSlot record.tags,
    Properties.codec.toSlot record.properties]
  ofDatum?
    | .record [name, id, location, kind, tags, properties] => do
      let name ← Codec.text.ofSlot? name
      let id ← Codec.text.ofSlot? id
      let location ← Codec.text.ofSlot? location
      let kind ← Codec.text.ofSlot? kind
      let tags ← Codec.map.ofSlot? tags
      let properties ← Properties.codec.ofSlot? properties
      return { name, id, location, kind, tags, properties }
    | _ => none

end PublicIp
