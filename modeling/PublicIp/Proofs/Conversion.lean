import PublicIp.Proofs.Agent.Represent
import PublicIp.Proofs.Tags

/-!
# Back and forth between records and messages

A record comes back from the message made for it as its normal form (`Record.returns_normal`), and a
message comes back from the record made of it as it is sent again (`Message.returns_resent`). The two
also say what is lost on the way: records make one message if they have one normal form, and messages
make one record if they differ in nothing but the order and the repetitions of their tags and in whether
a status without parts is there.
-/

namespace PublicIp

theorem DnsSettings.bind_normal_bind_normal (settings : Option DnsSettings) :
    (settings.bind normal).bind normal = settings.bind normal := by
  let message : Message :=
    { label := (settings.getD {}).label.getD ""
      reverseFqdn := (settings.getD {}).reverseFqdn.getD "" }
  have kept := normal_getD settings
  have once := normal_eq settings message rfl rfl
  have twice := normal_eq (settings.bind normal) message kept.1.symm kept.2.symm
  exact twice.symm.trans once

namespace Record

variable {record other : Record} {location place : String}

theorem toMessage_eq_ok (located : location ≠ "") (named : record.name ≠ none) :
    record.toMessage location = .ok (record.message location) :=
  toMessage_of_fit ((Ledger.defect?_eq_none_iff location record).2
    ⟨located, Option.ne_none_iff_exists'.1 named⟩)

theorem toMessage_eq_error_iff (error : ApiError) :
    record.toMessage location = .error error ↔
      location = "" ∧ error = .invalidInput "location not specified" ∨
        location ≠ "" ∧ record.name = none ∧
          error = .invalidConfiguration "missing name for public IP address" := by
  unfold toMessage
  by_cases empty : location = ""
  · simp [empty, eq_comm]
  · cases named : record.name with
    | none => simp [empty, eq_comm]
    | some name => simp [empty]

theorem toMessage_normal (record : Record) (location : String) :
    (record.normal location).toMessage location = record.toMessage location := by
  have same : Ledger.defect? location (record.normal location) = Ledger.defect? location record := rfl
  rw [toMessage_eq, toMessage_eq, same, message_normal]

theorem normal_normal (record : Record) (location : String) :
    (record.normal location).normal location = record.normal location := by
  have text (part : Option String) : (part.bind nonEmpty).bind nonEmpty = part.bind nonEmpty := by
    rw [← nonEmpty_getD part, nonEmpty_bind_nonEmpty]
  simp only [normal, Properties.normal, Option.getD_some, text, DnsSettings.bind_normal_bind_normal]

theorem toMessage_eq_iff (located : location ≠ "") (named : record.name ≠ none)
    (otherLocated : place ≠ "") (otherNamed : other.name ≠ none) :
    record.toMessage location = other.toMessage place ↔
      location = place ∧ record.normal location = other.normal place := by
  constructor
  · intro same
    rw [toMessage_eq_ok located named, toMessage_eq_ok otherLocated otherNamed] at same
    have messages : record.message location = other.message place := Except.ok.inj same
    obtain ⟨name, named⟩ := Option.ne_none_iff_exists'.1 named
    obtain ⟨otherName, otherNamed⟩ := Option.ne_none_iff_exists'.1 otherNamed
    refine ⟨congrArg Message.location messages, ?_⟩
    rw [← toRecord_message located named, messages, toRecord_message otherLocated otherNamed]
  · rintro ⟨rfl, same⟩
    rw [← toMessage_normal record, same, toMessage_normal]

/-- A message can be made for a record if there is a location and the record has a name. From the message
the normal form of the record comes back, which is sent like the record and is its own normal form, and
two records are sent alike just if they have the same normal form at the same location. -/
theorem returns_normal (record : Record) (location : String) :
    (location ≠ "" → record.name ≠ none →
      (∃ message, record.toMessage location = .ok message ∧
        message.toRecord = record.normal location) ∧
      ∀ (other : Record) (place : String), place ≠ "" → other.name ≠ none →
        (record.toMessage location = other.toMessage place ↔
          location = place ∧ record.normal location = other.normal place)) ∧
    (record.normal location).toMessage location = record.toMessage location ∧
    (record.normal location).normal location = record.normal location ∧
    ∀ error, record.toMessage location = .error error ↔
      location = "" ∧ error = .invalidInput "location not specified" ∨
        location ≠ "" ∧ record.name = none ∧
          error = .invalidConfiguration "missing name for public IP address" := by
  refine ⟨fun located named => ⟨?_, fun other place => toMessage_eq_iff located named⟩,
    toMessage_normal record location, normal_normal record location, toMessage_eq_error_iff⟩
  obtain ⟨name, hasName⟩ := Option.ne_none_iff_exists'.1 named
  exact ⟨record.message location, toMessage_eq_ok located named, toRecord_message located hasName⟩

/-- Empty texts are lost, and so are DNS settings with nothing else in them and all that messages have no
room for. -/
theorem returns_normal_sparse :
    let record : Record :=
      { name := some "a", id := some "", location := some "b", kind := some "c",
        tags := some (.ofList [("y", ""), ("x", "1")]),
        properties := some {
          allocation := some .static
          dnsSettings := some { label := some "", fqdn := some "d" }
          idleTimeoutInMinutes := some 4
          statuses := .ofList [("Error", "e")] } }
    let normal : Record :=
      { name := some "a", location := some "f",
        tags := some (.ofList [("x", "1"), ("y", "")]),
        properties := some { allocation := some .static, ipVersion := some .v4 } }
    (∃ message, record.toMessage "f" = .ok message ∧ message.toRecord = normal) ∧
      record.toMessage "f" = normal.toMessage "f" ∧ record.toMessage "f" ≠ normal.toMessage "b" := by
  intro record normal
  have form : record.normal "f" = normal := by decide
  obtain ⟨sent, again, -, -⟩ := returns_normal record "f"
  obtain ⟨⟨message, made, back⟩, alike⟩ := sent (by decide) (by decide)
  refine ⟨⟨message, made, back.trans form⟩, form ▸ again.symm, fun same => ?_⟩
  have moved := ((alike normal "b" (by decide) (by decide)).1 same).1
  exact absurd moved (by decide)

end Record

namespace Status

theorem nodup_keys_parts (status : Status) : (status.parts.map Prod.fst).Nodup := by
  have listed : (status.parts.map Prod.fst).Sublist
      [healthKey, provisioningKey, errorKey, versionKey] := by
    unfold parts
    cases status.health <;> cases status.provisioning <;> cases status.lastError <;>
      cases status.version <;> simp
  exact listed.nodup (by decide)

theorem find?_toMap_eq_some_iff (status : Status) (key value : String) :
    status.toMap.find? key = some value ↔ (key, value) ∈ status.parts :=
  OrderedMap.find?_ofList_eq_some_iff status.nodup_keys_parts key value

theorem ofMap_toMap (status : Status) : ofMap status.toMap = status := by
  have part (key : String) (given : Option String)
      (listed : ∀ value, (key, value) ∈ status.parts ↔ given = some value) :
      status.toMap.find? key = given :=
    Option.ext fun value => (status.find?_toMap_eq_some_iff key value).trans (listed value)
  obtain ⟨health, provisioning, lastError, version⟩ := status
  refine congr (congr (congr (congrArg Status.mk ?_) ?_) ?_) ?_ <;>
    exact part _ _ fun value => by simp [parts, healthKey, provisioningKey, errorKey, versionKey]

theorem toMap_inj {a b : Status} : a.toMap = b.toMap ↔ a = b := by
  constructor
  · intro same
    rw [← ofMap_toMap a, same, ofMap_toMap]
  · exact congrArg toMap

end Status

namespace Message

/-- The two DNS texts of a message can be read off its settings. -/
theorem dnsSettings_getD (message : Message) :
    (message.dnsSettings.getD {}).label.getD "" = message.label ∧
      (message.dnsSettings.getD {}).reverseFqdn.getD "" = message.reverseFqdn := by
  unfold dnsSettings
  split
  · next empty => exact ⟨empty.1.symm, empty.2.symm⟩
  · exact ⟨getD_nonEmpty message.label, getD_nonEmpty message.reverseFqdn⟩

/-- The message that is made for the record of a message. -/
def resent (message : Message) (location : String) : Message :=
  { message with
    location := location
    status := none
    tags := message.tags.map Tag.canonical }

theorem message_toRecord (message : Message) (location : String) :
    message.toRecord.message location = message.resent location := by
  have dns := message.dnsSettings_getD
  have tags : (message.tags.map Tag.toMap).map Tag.ofMap = message.tags.map Tag.canonical :=
    Option.map_map ..
  simp [Record.message, toRecord, resent, getD_nonEmpty, dns, tags]

theorem toMessage_toRecord (message : Message) {location : String} (located : location ≠ "") :
    message.toRecord.toMessage location = .ok (message.resent location) := by
  have named : message.toRecord.name ≠ none := Option.some_ne_none message.name
  rw [Record.toMessage_eq_ok located named, message_toRecord]

/-- Two messages differ at most in the order and the repetitions of their tags, and in whether a status
without parts is there. -/
structure Alike (message other : Message) : Prop where
  name : message.name = other.name
  id : message.id = other.id
  location : message.location = other.location
  ipAddress : message.ipAddress = other.ipAddress
  allocation : message.allocation = other.allocation
  ipVersion : message.ipVersion = other.ipVersion
  label : message.label = other.label
  reverseFqdn : message.reverseFqdn = other.reverseFqdn
  tags : message.tags.map Tag.canonical = other.tags.map Tag.canonical
  status : message.status.getD {} = other.status.getD {}

theorem statuses_toRecord (message : Message) :
    (message.toRecord.properties.getD {}).statuses = (message.status.getD {}).toMap := by
  unfold toRecord
  cases message.status <;> rfl

theorem map_toMap_tags (message : Message) :
    message.tags.map Tag.toMap = (message.tags.map Tag.canonical).map Tag.toMap := by
  cases message.tags with
  | none => rfl
  | some tags => exact congrArg some (Tag.toMap_ofMap (Tag.toMap tags)).symm

theorem toRecord_eq_iff (message other : Message) :
    message.toRecord = other.toRecord ↔ Alike message other := by
  constructor
  · intro same
    have resent {α : Type} (part : Message → α) :
        part (message.resent "") = part (other.resent "") := by
      rw [← message_toRecord, same, message_toRecord]
    have location : nonEmpty message.location = nonEmpty other.location :=
      congrArg Record.location same
    have status : (message.status.getD {}).toMap = (other.status.getD {}).toMap := by
      rw [← statuses_toRecord, same, statuses_toRecord]
    exact {
      name := resent Message.name
      id := resent Message.id
      location := by rw [← getD_nonEmpty message.location, location, getD_nonEmpty]
      ipAddress := resent Message.ipAddress
      allocation := resent Message.allocation
      ipVersion := resent Message.ipVersion
      label := resent Message.label
      reverseFqdn := resent Message.reverseFqdn
      tags := resent Message.tags
      status := Status.toMap_inj.1 status }
  · intro alike
    have statuses (message : Message) :
        (message.status.map Status.toMap).getD ∅ = (message.status.getD {}).toMap :=
      message.statuses_toRecord
    simp only [toRecord, dnsSettings, map_toMap_tags, statuses, alike.name, alike.id, alike.location,
      alike.ipAddress, alike.allocation, alike.ipVersion, alike.label, alike.reverseFqdn, alike.tags,
      alike.status]

/-- From the record made of a message the message comes back without its status, with its tags in their
canonical form: in order, the last one with each key. Two messages make the same record just if they
are alike. -/
theorem returns_resent (message : Message) :
    (∀ location, location ≠ "" →
      message.toRecord.toMessage location =
        .ok { message with
          location := location
          status := none
          tags := message.tags.map Tag.canonical }) ∧
    (∀ tags given, given = Tag.canonical tags ↔
      Tag.InOrder given ∧ ∀ tag, tag ∈ given ↔ Tag.LastOf tags tag) ∧
    ∀ other, message.toRecord = other.toRecord ↔ Alike message other :=
  ⟨fun _ located => message.toMessage_toRecord located, Tag.eq_canonical_iff, message.toRecord_eq_iff⟩

/-- Of two tags with one key the first is lost, and a status without parts is as good as none. -/
theorem returns_resent_repeated :
    let message : Message :=
      { name := "a", location := "b", reverseFqdn := "c"
        status := some {}, tags := some [⟨"y", "1"⟩, ⟨"x", "2"⟩, ⟨"y", "3"⟩] }
    let tidy : Message :=
      { name := "a", location := "b", reverseFqdn := "c", tags := some [⟨"x", "2"⟩, ⟨"y", "3"⟩] }
    message.toRecord.toMessage "b" = .ok tidy ∧ message.toRecord = tidy.toRecord ∧
      message.toRecord ≠ { tidy with tags := none }.toRecord := by
  intro message tidy
  obtain ⟨sent, -, alike⟩ := returns_resent message
  refine ⟨(sent "b" (by decide)).trans (by decide), (alike tidy).2 ?_, fun same => ?_⟩
  · constructor <;> decide
  · exact absurd ((alike _).1 same).tags (by decide)

end Message

end PublicIp
