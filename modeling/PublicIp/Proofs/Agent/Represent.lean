import Mathlib.Data.List.Find
import Mathlib.Data.List.Perm.Basic
import PublicIp.Proofs.Agent.Operations
import PublicIp.Proofs.Ledger
import PublicIp.Proofs.Tags

/-!
# The registry of a ledger

The agent represents a ledger by its registry: each record by the entry for the message in which it is
given. The operations of the registry on single messages of the client do what the ledger says.
-/

namespace PublicIp

open Agent (Answer Effect Entry Event Key Provision Registry)

theorem nonEmpty_getD (text : Option String) : nonEmpty (text.getD "") = text.bind nonEmpty := by
  cases text <;> rfl

theorem getD_bind_nonEmpty (text : Option String) : (text.bind nonEmpty).getD "" = text.getD "" := by
  cases text with
  | none => rfl
  | some s =>
    by_cases empty : s = ""
    · subst empty
      rfl
    · simp [nonEmpty, empty]

theorem getD_nonEmpty (s : String) : (nonEmpty s).getD "" = s := by
  unfold nonEmpty
  by_cases empty : s = "" <;> simp [empty]

theorem nonEmpty_bind_nonEmpty (s : String) : (nonEmpty s).bind nonEmpty = nonEmpty s := by
  unfold nonEmpty
  by_cases empty : s = "" <;> simp [empty]

theorem DnsSettings.normal_getD (settings : Option DnsSettings) :
    ((settings.bind normal).getD {}).label.getD "" = (settings.getD {}).label.getD "" ∧
      ((settings.bind normal).getD {}).reverseFqdn.getD "" =
        (settings.getD {}).reverseFqdn.getD "" := by
  cases settings with
  | none => exact ⟨rfl, rfl⟩
  | some settings =>
    have label := getD_bind_nonEmpty settings.label
    have reverse := getD_bind_nonEmpty settings.reverseFqdn
    simp only [Option.bind_some, Option.getD_some, normal]
    rw [← label, ← reverse]
    cases settings.label.bind nonEmpty <;> cases settings.reverseFqdn.bind nonEmpty <;>
      exact ⟨rfl, rfl⟩

/-- The DNS settings of a message for a record are those that are left of the record's. -/
theorem DnsSettings.normal_eq (settings : Option DnsSettings) (message : Message)
    (label : message.label = (settings.getD {}).label.getD "")
    (reverse : message.reverseFqdn = (settings.getD {}).reverseFqdn.getD "") :
    message.dnsSettings = settings.bind normal := by
  have kept : settings.bind normal = (settings.getD {}).normal := by cases settings <;> rfl
  rw [kept, Message.dnsSettings, normal, ← nonEmpty_getD, ← nonEmpty_getD, ← label, ← reverse]
  unfold nonEmpty
  by_cases hl : message.label = "" <;> by_cases hr : message.reverseFqdn = "" <;> simp [hl, hr]

namespace Record

theorem toMessage_eq (record : Record) (location : String) :
    record.toMessage location =
      match Ledger.defect? location record with
      | some error => .error error
      | none => .ok (record.message location) := by
  unfold toMessage Ledger.defect?
  by_cases empty : location = ""
  · simp [empty]
  · cases named : record.name with
    | none => simp [empty]
    | some name => simp [empty, message, named]

theorem toMessage_of_fit {record : Record} {location : String}
    (fit : Ledger.defect? location record = none) :
    record.toMessage location = .ok (record.message location) := by
  rw [toMessage_eq, fit]

theorem toMessage_of_defect {record : Record} {location : String} {error : ApiError}
    (defect : Ledger.defect? location record = some error) :
    record.toMessage location = .error error := by
  rw [toMessage_eq, defect]

/-- A message is turned into what is left of the record that it was made for. -/
theorem toRecord_message {record : Record} {location name : String} (located : location ≠ "")
    (named : record.name = some name) :
    (record.message location).toRecord = record.normal location := by
  have dns := DnsSettings.normal_eq (record.properties.getD {}).dnsSettings
    (record.message location) rfl rfl
  have tags : (record.tags.map Tag.ofMap).map Tag.toMap = record.tags := by
    cases record.tags with
    | none => rfl
    | some tags => exact congrArg some (Tag.toMap_ofMap tags)
  have place : nonEmpty location = some location := if_neg located
  unfold Message.toRecord normal Properties.normal
  rw [dns]
  simp [message, named, nonEmpty_getD, tags, place]

theorem message_normal (record : Record) (location : String) :
    (record.normal location).message location = record.message location := by
  have dns := DnsSettings.normal_getD (record.properties.getD {}).dnsSettings
  unfold message normal Properties.normal
  simp [getD_bind_nonEmpty, dns]

/-- The entry by which the agent represents a record. -/
def entry (record : Record) : Entry := .ofMessage record.reported

end Record

/-- What a record is like that stands under a key. -/
structure Stands (key : Key) (record : Record) : Prop where
  located : key.location ≠ ""
  named : key.name ≠ ""
  location : record.location = some key.location
  name : record.name = some key.name
  id : record.id.bind nonEmpty = record.id
  /-- The client gets the record back from the message in which it is given. -/
  returns : record.reported.toRecord = record

theorem Stands.key_entry {key : Key} {record : Record} (stands : Stands key record) :
    record.entry.key = key := by
  simp [Record.entry, Record.reported, Record.message, Entry.ofMessage, Entry.key, stands.location,
    stands.name]

/-- A message with an id in place of its own. -/
def Message.identified (message : Message) (id : String) : Message := { message with id := id }

/-- A message that has just been stored, as the agent gives it. -/
def Message.marked (message : Message) (id : String) (provision : Provision) : Message :=
  { message with
    id := id
    status := some { health := some "OK", provisioning := some provision.word } }

namespace Ledger

/-- Whether every record stands rightly under its key. -/
def Sound (ledger : Ledger) : Prop :=
  ∀ key record, ledger.records.find? key = some record → Stands key record

/-- The registry that represents a ledger. -/
def registry (ledger : Ledger) : Registry := ledger.records.map Record.entry

theorem find?_registry (ledger : Ledger) (key : Key) :
    ledger.registry.find? key = (ledger.records.find? key).map Record.entry :=
  OrderedMap.find?_map ..

theorem sound_empty : Sound {} := OrderedMap.all_empty

theorem ofMap_statuses (provision : Provision) :
    Status.ofMap (statuses provision) =
      { health := some "OK", provisioning := some provision.word } := by
  cases provision <;> decide

theorem toRecord_marked (message : Message) (id : String) (provision : Provision) :
    (message.marked id provision).toRecord =
      { message.toRecord with
        id := nonEmpty id
        properties := some { (message.toRecord.properties.getD {}) with
          statuses := statuses provision } } := rfl

def provision (ledger : Ledger) (key : Key) : Provision :=
  if (ledger.records.find? key).isSome then .updated else .created

/-- A record that is stored makes the same message as before, but for its id. -/
theorem message_stored (ledger : Ledger) (fresh : String) (key : Key) (record : Record) :
    (ledger.stored fresh key record).message key.location =
      (record.message key.location).identified ((ledger.stored fresh key record).id.getD "") := by
  rw [← record.message_normal]
  rfl

theorem reported_stored (ledger : Ledger) (fresh : String) (key : Key) (record : Record) :
    (ledger.stored fresh key record).reported =
      (record.message key.location).marked ((ledger.stored fresh key record).id.getD "")
        (ledger.provision key) := by
  have message := ledger.message_stored fresh key record
  have status : Status.ofMap (((ledger.stored fresh key record).properties.getD {}).statuses) =
      { health := some "OK", provisioning := some (ledger.provision key).word } :=
    ofMap_statuses _
  unfold Record.reported
  rw [status]
  exact congrArg (fun message : Message => { message with
    status := some { health := some "OK", provisioning := some (ledger.provision key).word } })
    message

theorem nonEmpty_id_stored {ledger : Ledger} (sound : ledger.Sound) (fresh : String) (key : Key)
    (record : Record) :
    (ledger.stored fresh key record).id.bind nonEmpty = (ledger.stored fresh key record).id := by
  unfold stored
  simp only
  cases held : ledger.records.find? key with
  | none => exact nonEmpty_bind_nonEmpty fresh
  | some old => exact (sound key old held).id

theorem stands_stored {ledger : Ledger} (sound : ledger.Sound) (fresh : String) {key : Key}
    (located : key.location ≠ "") (named : key.name ≠ "") {record : Record}
    (name : record.name = some key.name) : Stands key (ledger.stored fresh key record) where
  located := located
  named := named
  location := rfl
  name := name
  id := nonEmpty_id_stored sound fresh key record
  returns := by
    have plain := Record.toRecord_message located name
    have id := nonEmpty_id_stored sound fresh key record
    rw [reported_stored, toRecord_marked, plain, nonEmpty_getD, id]
    rfl

theorem sound_store {ledger : Ledger} (sound : ledger.Sound) (fresh : String) {key : Key}
    (located : key.location ≠ "") (named : key.name ≠ "") {record : Record}
    (name : record.name = some key.name) : (ledger.store fresh key record).Sound := by
  have stands := stands_stored sound fresh located named name
  exact OrderedMap.all_insert sound stands

theorem ofMessage_marked (message : Message) (id : String) (provision : Provision) :
    Entry.ofMessage (message.marked id provision) =
      { Entry.ofMessage message with id := id, status := some provision.status } := rfl

theorem key_ofMessage (record : Record) (key : Key) (name : record.name = some key.name) :
    (Entry.ofMessage (record.message key.location)).key = key := by
  simp [Entry.ofMessage, Record.message, Entry.key, name]

/-- The agent admits the message for a record as what the ledger stores. -/
theorem admitted_registry (ledger : Ledger) (fresh : String) {key : Key} {record : Record}
    (name : record.name = some key.name) :
    ledger.registry.admitted fresh (.ofMessage (record.message key.location)) =
      (ledger.stored fresh key record).entry := by
  have place := key_ofMessage record key name
  have id : ((ledger.registry.find? key).map Entry.id).getD fresh =
      (ledger.stored fresh key record).id.getD "" := by
    rw [find?_registry]
    unfold stored
    simp only
    cases ledger.records.find? key with
    | none => exact (getD_nonEmpty fresh).symm
    | some old => rfl
  have provision : ledger.registry.provision (.ofMessage (record.message key.location)) =
      ledger.provision key := by
    unfold Registry.provision Ledger.provision
    rw [place, find?_registry, Option.isSome_map]
  unfold Record.entry Registry.admitted
  rw [reported_stored, ofMessage_marked, place, id, provision]

theorem registry_store (ledger : Ledger) (fresh : String) {key : Key} {record : Record}
    (name : record.name = some key.name) :
    (ledger.store fresh key record).registry =
      ledger.registry.store fresh (.ofMessage (record.message key.location)) := by
  unfold registry store Registry.store
  rw [OrderedMap.map_insert, key_ofMessage record key name]
  exact congrArg _ (admitted_registry ledger fresh name).symm

theorem post_registry (ledger : Ledger) (ids : Nat → String) {key : Key}
    (located : key.location ≠ "") (named : key.name ≠ "") {record : Record}
    (name : record.name = some key.name) :
    let effect := ledger.registry.post ids [.ofMessage (record.message key.location)]
    effect.answer = .ok { entries := [(ledger.stored (ids 0) key record).entry] } ∧
      effect.registry = (ledger.store (ids 0) key record).registry ∧
        ledger.drawn + effect.drawn = (ledger.store (ids 0) key record).drawn := by
  have complete : Registry.isComplete (.ofMessage (record.message key.location)) = true := by
    have place := key_ofMessage record key name
    rw [Registry.isComplete_iff]
    exact ⟨by rw [← place] at named; exact named, located⟩
  rw [Registry.post_singleton _ _ complete]
  refine ⟨by rw [admitted_registry ledger (ids 0) name], (registry_store ledger (ids 0) name).symm, ?_⟩
  show ledger.drawn + ledger.registry.drawnAfter 0 _ = _
  unfold Registry.drawnAfter Registry.provision store
  rw [key_ofMessage record key name, find?_registry, Option.isSome_map]
  cases ledger.records.find? key <;> simp

theorem defect?_eq_none_iff (location : String) (record : Record) :
    defect? location record = none ↔ location ≠ "" ∧ ∃ name, record.name = some name := by
  unfold defect?
  by_cases empty : location = ""
  · simp [empty]
  · cases record.name <;> simp [empty]

theorem isWanted_entry {key : Key} {record : Record} (stands : Stands key record) (wanted : Entry) :
    Registry.isWanted wanted record.entry = true ↔
      key.location = wanted.location ∧ (wanted.name = "" ∨ key.name = wanted.name) := by
  have place := stands.key_entry
  obtain rfl := place.symm
  simp [Registry.isWanted, Entry.key]

theorem wantedBy_registry {ledger : Ledger} (sound : ledger.Sound) (wanted : Entry) :
    ledger.registry.wantedBy wanted =
      (ledger.found wanted.location wanted.name).map Record.entry := by
  have scanned : ledger.registry.wantedBy wanted =
      (ledger.records.entries.filter fun entry =>
        Registry.isWanted wanted entry.2.entry).map fun entry => entry.2.entry := by
    unfold Registry.wantedBy registry
    rw [OrderedMap.values_map, OrderedMap.values, List.map_map, List.filter_map]
    rfl
  have stands : ∀ entry ∈ ledger.records.entries, Stands entry.1 entry.2 := fun entry mem =>
    sound entry.1 entry.2 ((ledger.records.find?_eq_some_iff ..).2 mem)
  rw [scanned]
  unfold found
  by_cases any : wanted.name = ""
  · have same : ∀ entry ∈ ledger.records.entries,
        Registry.isWanted wanted entry.2.entry = decide (entry.1.location = wanted.location) := by
      intro entry mem
      have wants := isWanted_entry (stands entry mem) wanted
      simp only [any, true_or, and_true] at wants
      rw [Bool.eq_iff_iff, wants, decide_eq_true_iff]
    rw [if_pos any, List.filter_congr same, List.map_map]
    rfl
  · have same : ∀ entry ∈ ledger.records.entries,
        Registry.isWanted wanted entry.2.entry =
          decide (entry.1 = ⟨wanted.location, wanted.name⟩) := by
      intro entry mem
      have wants := isWanted_entry (stands entry mem) wanted
      rw [Bool.eq_iff_iff, wants, decide_eq_true_iff, Key.mk.injEq]
      simp [any]
    rw [if_neg any, List.filter_congr same, ledger.records.filter_key]
    cases ledger.records.find? ⟨wanted.location, wanted.name⟩ <;> rfl

theorem stands_found {ledger : Ledger} (sound : ledger.Sound) {location name : String}
    {record : Record} (mem : record ∈ ledger.found location name) :
    ∃ key, Stands key record ∧ key.location = location ∧ (name = "" ∨ key.name = name) := by
  unfold found at mem
  split at mem
  · next any =>
    obtain ⟨⟨key, other⟩, among, rfl⟩ := List.mem_map.1 mem
    obtain ⟨held, here⟩ := List.mem_filter.1 among
    have found := (ledger.records.find?_eq_some_iff key other).2 held
    exact ⟨key, sound key other found, by simpa using here, .inl any⟩
  · have held := Option.mem_toList.1 mem
    exact ⟨⟨location, name⟩, sound _ record held, rfl, .inr rfl⟩

theorem toRecord_found {ledger : Ledger} (sound : ledger.Sound) (location name : String) :
    ((ledger.found location name).map Record.reported).map Message.toRecord =
      ledger.found location name := by
  have each : ∀ record ∈ ledger.found location name,
      (Message.toRecord ∘ Record.reported) record = record := by
    intro record mem
    obtain ⟨key, stands, -⟩ := stands_found sound mem
    exact stands.returns
  rw [List.map_map, List.map_congr_left each, List.map_id']

/-- A look-up that succeeds finds what is there, and changes nothing. -/
theorem get_eq_ok {ledger next : Ledger} {link : Link} {location name : String}
    {records : List Record} (got : ledger.get link location name = (.ok records, next)) :
    location ≠ "" ∧ records = ledger.found location name ∧ next = ledger ∧ link.carries
      (Request.codec.encode ⟨.get, [(Record.named name).message location]⟩).utf8ByteSize = true := by
  unfold get look Link.call at got
  cases defect : defect? location (.named name) with
  | some error => simp [defect] at got
  | none =>
    have located := ((defect?_eq_none_iff location _).1 defect).1
    rw [defect] at got
    simp only at got
    split at got
    · next carried =>
      split at got
      · obtain ⟨found, same⟩ := Prod.mk.inj got
        exact ⟨located, (Except.ok.inj found).symm, same.symm, carried⟩
      · simp at got
    · simp at got

theorem find?_of_got {ledger next : Ledger} {link : Link} {location name : String}
    (given : name ≠ "") {records : List Record}
    (got : ledger.get link location name = (.ok records, next)) {record : Record}
    (mem : record ∈ records) : ledger.records.find? ⟨location, name⟩ = some record := by
  obtain ⟨-, rfl, -, -⟩ := get_eq_ok got
  unfold found at mem
  rw [if_neg given] at mem
  exact Option.mem_toList.1 mem

theorem delete_registry (ledger : Ledger) {key : Key} {record : Record}
    (name : record.name = some key.name) :
    let effect := ledger.registry.delete [.ofMessage (record.message key.location)]
    effect.drawn = 0 ∧
      match ledger.records.find? key with
      | none => effect.answer = .error (.missing key.name) ∧ effect.registry = ledger.registry
      | some _ => effect.answer = .ok {} ∧
          effect.registry = registry { ledger with records := ledger.records.erase key } := by
  have place := key_ofMessage record key name
  have own : (Entry.ofMessage (record.message key.location)).name = key.name := by rw [← place]; rfl
  refine ⟨Registry.drawn_delete _ _, ?_⟩
  unfold Registry.delete
  rw [place, find?_registry]
  cases held : ledger.records.find? key with
  | none => exact ⟨by rw [own]; rfl, rfl⟩
  | some old =>
    refine ⟨rfl, ?_⟩
    show ledger.registry.erase key = _
    unfold registry
    rw [OrderedMap.map_erase]

theorem sound_erase {ledger : Ledger} (sound : ledger.Sound) (key : Key) :
    Sound { ledger with records := ledger.records.erase key } :=
  OrderedMap.all_erase sound key

theorem ipAddress_entry (record : Record) (address : String) (full : address ≠ "") :
    record.entry.ipAddress = address ↔ (record.properties.getD {}).ipAddress = some address := by
  show (record.properties.getD {}).ipAddress.getD "" = address ↔ _
  cases (record.properties.getD {}).ipAddress with
  | none => simpa using Ne.symm full
  | some other => simp

/-- Whatever order the entries are met in is one of the records. -/
theorem exists_order {ledger : Ledger} {order : List Entry} (met : order.Perm ledger.registry.values) :
    ∃ records : List Record, records.Perm ledger.records.values ∧ records.map Record.entry = order := by
  unfold registry at met
  rw [OrderedMap.values_map] at met
  have represented : List.Forall₂ (fun entry record => entry = Record.entry record)
      (ledger.records.values.map Record.entry) ledger.records.values :=
    List.forall₂_map_left_iff.2 (List.forall₂_same.2 fun _ _ => rfl)
  obtain ⟨records, same, perm⟩ := List.perm_comp_forall₂ met represented
  refine ⟨records, perm, ?_⟩
  rw [← List.forall₂_eq_eq_eq, List.forall₂_map_left_iff]
  exact same.flip.imp fun _ _ => Eq.symm

theorem holder?_entry {ledger : Ledger} (sound : ledger.Sound) {order : List Record}
    (met : order.Perm ledger.records.values) (location : String) {record : Record}
    {address name : String} (given : (record.properties.getD {}).ipAddress = some address)
    (full : address ≠ "") (named : record.name = some name) :
    ((order.map Record.entry).find? fun entry =>
        Agent.Blocks (.ofMessage (record.message location)) entry) =
      (holder? order location record).map Record.entry := by
  have wanted : (Entry.ofMessage (record.message location)).location = location ∧
      (Entry.ofMessage (record.message location)).ipAddress = address ∧
        (Entry.ofMessage (record.message location)).name = name := by
    refine ⟨rfl, ?_, ?_⟩ <;> simp [Entry.ofMessage, Record.message, given, named]
  unfold holder?
  rw [List.find?_map]
  congr 1
  refine List.find?_congr fun other mem => ?_
  obtain ⟨key, held⟩ := (ledger.records.mem_values_iff other).1 (met.subset mem)
  have stands := sound key other held
  have place := stands.key_entry
  have location_eq : other.entry.location = key.location := by rw [← place]; rfl
  have name_eq : other.entry.name = key.name := by rw [← place]; rfl
  rw [Function.comp_apply, decide_eq_decide, Agent.Blocks, wanted.1, wanted.2.1, wanted.2.2,
    location_eq, name_eq, ipAddress_entry other address full, given, named, stands.location,
    stands.name]
  simp

theorem objectionIn?_entry {ledger : Ledger} (sound : ledger.Sound) {order : List Record}
    (met : order.Perm ledger.records.values) {location name : String} (located : location ≠ "")
    {record : Record} (named : record.name = some name) :
    Agent.objectionIn? (order.map Record.entry) (.ofMessage (record.message location)) =
      objection? order location record := by
  have place : (Entry.ofMessage (record.message location)).location ≠ "" := located
  unfold Agent.objectionIn? objection?
  rw [if_neg place]
  have address : (Entry.ofMessage (record.message location)).ipAddress =
      (record.properties.getD {}).ipAddress.getD "" := rfl
  cases given : (record.properties.getD {}).ipAddress with
  | none => rw [address, given]; rfl
  | some text =>
    rw [address, given, Option.getD_some, Option.bind_some]
    unfold nonEmpty
    by_cases empty : text = ""
    · rw [if_pos empty, if_pos empty]
      rfl
    · rw [if_neg empty, if_neg empty, Option.bind_some,
        holder?_entry sound met location given empty named, Option.map_map]
      rfl

theorem objectionTo_entries {ledger : Ledger} (sound : ledger.Sound) {order : List Record}
    (met : order.Perm ledger.records.values) {location : String} {records : List Record}
    (fit : ∀ record ∈ records, defect? location record = none) :
    Agent.objectionTo (order.map Record.entry)
        ((records.map (·.message location)).map .ofMessage) =
      records.findSome? (objection? order location) := by
  unfold Agent.objectionTo
  induction records with
  | nil => rfl
  | cons record rest ih =>
    obtain ⟨located, name, named⟩ :=
      (defect?_eq_none_iff location record).1 (fit record List.mem_cons_self)
    have others := ih fun other mem => fit other (List.mem_cons_of_mem _ mem)
    rw [List.map_cons, List.map_cons, List.findSome?_cons, List.findSome?_cons,
      objectionIn?_entry sound met located named, others]

/-- The agent judges records as the ledger does. -/
theorem precheck_registry {ledger : Ledger} (sound : ledger.Sound) {order : List Record}
    (met : order.Perm ledger.records.values) {location : String} {records : List Record}
    (fit : ∀ record ∈ records, defect? location record = none) :
    (ledger.registry.precheck (order.map Record.entry)
        ((records.map (·.message location)).map .ofMessage)).answer =
      verdict order location records := by
  unfold Registry.precheck verdict
  rw [objectionTo_entries sound met fit]

end Ledger

end PublicIp
