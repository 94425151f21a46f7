import PublicIp.Agent.Service
import PublicIp.Client.Verb
import PublicIp.Proofs.Agent.Messages

/-!
# The ledger

A `Ledger` is what the operations of the client are about: the records at each location by name, each
reduced to what can be stored of it. `Ledger.perform` says what an operation answers and what it does to
the ledger. Nothing of envelopes, schemas or requests is left in that, but for the sizes of the two texts
of a call: a `Link` does not carry all of them. A precheck meets the records in some order, which may be
another one each time: `Ledger.Tells` says what a run of operations may be answered.
-/

namespace PublicIp

open Agent (Answer Entry Key Provision Verdict)

/-- The message for a record that has a name. -/
def Record.message (record : Record) (location : String) : Message where
  name := record.name.getD ""
  id := record.id.getD ""
  location := location
  ipAddress := (record.properties.getD {}).ipAddress.getD ""
  allocation := (record.properties.getD {}).allocation.getD .dynamic
  ipVersion := (record.properties.getD {}).ipVersion.getD .v4
  label := ((record.properties.getD {}).dnsSettings.getD {}).label.getD ""
  reverseFqdn := ((record.properties.getD {}).dnsSettings.getD {}).reverseFqdn.getD ""
  tags := record.tags.map Tag.ofMap

def Status.ofMap (statuses : TextMap) : Status where
  health := statuses.find? healthKey
  provisioning := statuses.find? provisioningKey
  lastError := statuses.find? errorKey
  version := statuses.find? versionKey

/-- The message in which the agent gives a record of the ledger. -/
def Record.reported (record : Record) : Message :=
  { record.message (record.location.getD "") with
    status := some (Status.ofMap (record.properties.getD {}).statuses) }

/-- How large the envelopes and the replies may be, in bytes. -/
structure Link where
  carries : Nat → Bool
  returns : Nat → Bool

namespace Link

def unlimited : Link := ⟨fun _ => true, fun _ => true⟩

/-- The limits of the agent and of the client over HTTP. -/
def http : Link := ⟨(· ≤ Agent.Service.maxBodySize), (· < Http.replyLimit)⟩

theorem carries_http (size : Nat) :
    http.carries size = true ↔ size ≤ Agent.Service.maxBodySize :=
  decide_eq_true_iff

theorem not_carries_http {size : Nat} (large : ¬ size ≤ Agent.Service.maxBodySize) :
    http.carries size = false :=
  decide_eq_false large

theorem returns_http (size : Nat) : http.returns size = true ↔ size < Http.replyLimit :=
  decide_eq_true_iff

def refusal : String := "Failed to buffer the request body: length limit exceeded"

/-- The answer to an envelope that is not carried. -/
def refused : ApiError := .http 413 refusal

/-- The answer to a call whose reply does not return. -/
def cutOff : ApiError := .transport "connection closed before a complete reply"

/-- What comes of a call with some envelope and reply, and what it leaves behind. -/
def call {α σ : Type} (link : Link) (envelope reply : String) (answer : Except ApiError α)
    (after before : σ) : Except ApiError α × σ :=
  if link.carries envelope.utf8ByteSize then
    (if link.returns reply.utf8ByteSize then answer else .error cutOff, after)
  else (.error refused, before)

section Call

variable {α σ : Type} {link : Link} {envelope reply : String} (answer : Except ApiError α)
  (after before : σ)

theorem snd_call :
    (link.call envelope reply answer after before).2 =
      if link.carries envelope.utf8ByteSize then after else before := by
  unfold call
  split <;> rfl

theorem call_of_large (large : link.carries envelope.utf8ByteSize = false) :
    link.call envelope reply answer after before = (.error refused, before) := by
  unfold call
  rw [large]
  rfl

theorem call_of_carried (carried : link.carries envelope.utf8ByteSize = true)
    (returned : link.returns reply.utf8ByteSize = true) :
    link.call envelope reply answer after before = (answer, after) := by
  unfold call
  rw [carried, returned]
  rfl

end Call

end Link

structure Ledger where
  records : OrderedMap Key Record := ∅
  /-- How many ids were drawn. -/
  drawn : Nat := 0

namespace Ledger

/-- The record with a name at a location, or all records at the location, by name, if the name is
empty. -/
def found (ledger : Ledger) (location name : String) : List Record :=
  if name = "" then (ledger.records.entries.filter (·.1.location = location)).map (·.2)
  else (ledger.records.find? ⟨location, name⟩).toList

/-- The text in which the agent gives records. -/
def recordsText (records : List Record) : String :=
  Answer.codec.encode { entries := (records.map Record.reported).map .ofMessage }

def look (ledger : Ledger) (link : Link) (location name : String) :
    Except ApiError (List Record) × Ledger :=
  link.call (Request.codec.encode ⟨.get, [(Record.named name).message location]⟩)
    (recordsText (ledger.found location name)) (.ok (ledger.found location name)) ledger ledger

def statuses (provision : Provision) : TextMap :=
  .ofList [(Status.healthKey, "OK"), (Status.provisioningKey, provision.word)]

/-- A record as it is stored under a key: the normal form, with the id that was there or a fresh
one. -/
def stored (ledger : Ledger) (fresh : String) (key : Key) (record : Record) : Record :=
  let old := ledger.records.find? key
  { record.normal key.location with
    id := match old with
      | some old => old.id
      | none => nonEmpty fresh
    properties := some { (record.properties.getD {}).normal with
      statuses := statuses (if old.isSome then .updated else .created) } }

/-- The ledger after a record is stored under a key. -/
def store (ledger : Ledger) (fresh : String) (key : Key) (record : Record) : Ledger where
  records := ledger.records.insert key (ledger.stored fresh key record)
  drawn := if (ledger.records.find? key).isSome then ledger.drawn else ledger.drawn + 1

/-- Stores a record under its name, which may not be empty. -/
def save (ledger : Ledger) (link : Link) (supply : Nat → String) (location name : String)
    (record : Record) : Except ApiError Record × Ledger :=
  let envelope := Request.codec.encode ⟨.post, [record.message location]⟩
  if name = "" then
    let text := "public IP address [] needs a name and a location"
    link.call envelope text (.error (.http 400 text)) ledger ledger
  else
    let fresh := supply ledger.drawn
    let stored := ledger.stored fresh ⟨location, name⟩ record
    link.call envelope (recordsText [stored]) (.ok stored)
      (ledger.store fresh ⟨location, name⟩ record) ledger

def missing (name : String) : String := "public IP address [" ++ name ++ "] not found"

/-- Removes what stands under a key. The envelope shows the record that was found there. -/
def remove (ledger : Ledger) (link : Link) (key : Key) (shown : Record) :
    Except ApiError Unit × Ledger :=
  let envelope := Request.codec.encode ⟨.delete, [shown.message key.location]⟩
  match ledger.records.find? key with
  | none => link.call envelope (missing key.name) (.error (.notFound (missing key.name))) ledger ledger
  | some _ =>
    link.call envelope (recordsText []) (.ok ()) { ledger with records := ledger.records.erase key }
      ledger

/-- Who holds the address of a record at a location under another name, among records that are met in
some order. -/
def holder? (order : List Record) (location : String) (record : Record) : Option Record :=
  order.find? fun other =>
    other.location = some location ∧
      (other.properties.getD {}).ipAddress = (record.properties.getD {}).ipAddress ∧
        other.name ≠ record.name

/-- Why a record could not be created at a location. -/
def objection? (order : List Record) (location : String) (record : Record) : Option String :=
  ((record.properties.getD {}).ipAddress.bind nonEmpty).bind fun address =>
    (holder? order location record).map fun holder =>
      Agent.assigned address (holder.name.getD "")

/-- Whether records could be created at a location. The first objection counts. -/
def verdict (order : List Record) (location : String) (records : List Record) : Verdict :=
  .ofObjection (records.findSome? (objection? order location))

/-- Asks whether records could be created, where those of the ledger are met in some order. -/
def ask (ledger : Ledger) (link : Link) (order : List Record) (location : String)
    (records : List Record) : Except ApiError Bool × Ledger :=
  let verdict := verdict order location records
  link.call (PrecheckRequest.codec.encode ⟨records.map (·.message location)⟩)
    (Verdict.codec.encode verdict)
    (if verdict.accepted then .ok true else .error (.remote verdict.error)) ledger ledger

/-- Why a record is no part of an envelope for a location. -/
def defect? (location : String) (record : Record) : Option ApiError :=
  if location = "" then some (.invalidInput "location not specified")
  else if record.name = none then
    some (.invalidConfiguration "missing name for public IP address")
  else none

def get (ledger : Ledger) (link : Link) (location name : String) :
    Except ApiError (List Record) × Ledger :=
  match defect? location (.named name) with
  | some error => (.error error, ledger)
  | none => ledger.look link location name

def put (ledger : Ledger) (link : Link) (supply : Nat → String) (location : String) :
    Option Record → Except ApiError Record × Ledger
  | none => (.error (.invalidConfiguration "missing public IP address properties"), ledger)
  | some record =>
    if record.properties = none then
      (.error (.invalidConfiguration "missing public IP address properties"), ledger)
    else
      match defect? location record with
      | some error => (.error error, ledger)
      | none => ledger.save link supply location (record.name.getD "") record

theorem put_of_fit {location : String} {record : Record} (described : record.properties ≠ none)
    (fit : defect? location record = none) (ledger : Ledger) (link : Link) (supply : Nat → String) :
    ledger.put link supply location (some record) =
      ledger.save link supply location (record.name.getD "") record := by
  unfold put
  simp only [if_neg described, fit]

theorem save_of_named {name : String} (given : name ≠ "") (ledger : Ledger) (link : Link)
    (supply : Nat → String) (location : String) (record : Record) :
    ledger.save link supply location name record =
      link.call (Request.codec.encode ⟨.post, [record.message location]⟩)
        (recordsText [ledger.stored (supply ledger.drawn) ⟨location, name⟩ record])
        (.ok (ledger.stored (supply ledger.drawn) ⟨location, name⟩ record))
        (ledger.store (supply ledger.drawn) ⟨location, name⟩ record) ledger := by
  unfold save
  rw [if_neg given]

def delete (ledger : Ledger) (link : Link) (location name : String) :
    Except ApiError Unit × Ledger :=
  if name = "" then (.error (.invalidInput "name not specified"), ledger)
  else
    match ledger.get link location name with
    | (.error error, ledger) => (.error error, ledger)
    | (.ok [], ledger) => (.error (.notFound (missing name)), ledger)
    | (.ok (record :: _), ledger) => ledger.remove link ⟨location, name⟩ record

def precheck (ledger : Ledger) (link : Link) (order : List Record) (location : String)
    (records : List (Option Record)) : Except ApiError Bool × Ledger :=
  let present := records.filterMap id
  match present.findSome? (defect? location) with
  | some error => (.error (error.inContext PrecheckRequest.context), ledger)
  | none => ledger.ask link order location present

/-- What an operation of the client answers, and what it does, where the records are met in some
order. Only the answer to a precheck depends on the order. -/
def perform (ledger : Ledger) (link : Link) (supply : Nat → String) (order : List Record) :
    Verb → Except ApiError Reply × Ledger
  | .get location name =>
    let (answer, ledger) := ledger.get link location name
    (answer.map .records, ledger)
  | .put location _ record =>
    let (answer, ledger) := ledger.put link supply location record
    (answer.map .record, ledger)
  | .delete location name =>
    let (answer, ledger) := ledger.delete link location name
    (answer.map fun _ => .deleted, ledger)
  | .precheck location records =>
    let (answer, ledger) := ledger.precheck link order location records
    (answer.map .passed, ledger)

section Perform

variable (ledger : Ledger) (link : Link) (supply : Nat → String) (order : List Record)

theorem perform_get (location name : String) :
    ledger.perform link supply order (.get location name) =
      ((ledger.get link location name).1.map .records, (ledger.get link location name).2) := rfl

theorem perform_put (location argument : String) (record : Option Record) :
    ledger.perform link supply order (.put location argument record) =
      ((ledger.put link supply location record).1.map .record,
        (ledger.put link supply location record).2) := rfl

theorem perform_delete (location name : String) :
    ledger.perform link supply order (.delete location name) =
      ((ledger.delete link location name).1.map fun _ => .deleted,
        (ledger.delete link location name).2) := rfl

theorem perform_precheck (location : String) (records : List (Option Record)) :
    ledger.perform link supply order (.precheck location records) =
      ((ledger.precheck link order location records).1.map .passed,
        (ledger.precheck link order location records).2) := rfl

end Perform

/-- Whether operations in turn may get some answers from a ledger and leave another one. At each of them
the records may be met in any order. -/
inductive Tells (link : Link) (supply : Nat → String) :
    List Verb → Ledger → List (Except ApiError Reply) → Ledger → Prop
  | nil (ledger : Ledger) : Tells link supply [] ledger [] ledger
  | cons {verb : Verb} {rest : List Verb} {ledger last : Ledger} {order : List Record}
      {answers : List (Except ApiError Reply)} (met : order.Perm ledger.records.values)
      (later : Tells link supply rest (ledger.perform link supply order verb).2 answers last) :
      Tells link supply (verb :: rest) ledger
        ((ledger.perform link supply order verb).1 :: answers) last

theorem Tells.cons_cases {link : Link} {supply : Nat → String} {verb : Verb} {rest : List Verb}
    {ledger last : Ledger} {answers : List (Except ApiError Reply)}
    (told : Tells link supply (verb :: rest) ledger answers last) :
    ∃ order : List Record, order.Perm ledger.records.values ∧
      ∃ others, answers = (ledger.perform link supply order verb).1 :: others ∧
        Tells link supply rest (ledger.perform link supply order verb).2 others last := by
  cases told with
  | cons met later => exact ⟨_, met, _, rfl, later⟩

theorem Tells.concat {link : Link} {supply : Nat → String} {verbs : List Verb}
    {ledger last : Ledger} {answers : List (Except ApiError Reply)}
    (told : Tells link supply verbs ledger answers last) {order : List Record}
    (met : order.Perm last.records.values) (verb : Verb) :
    Tells link supply (verbs ++ [verb]) ledger
      (answers ++ [(last.perform link supply order verb).1])
      (last.perform link supply order verb).2 := by
  induction told with
  | nil ledger => exact .cons met (.nil _)
  | cons first _ ih => exact .cons first (ih met)

/-- The answers to operations in turn, and the ledger after them, where the records are met in the order
of their keys. -/
def performAll (link : Link) (supply : Nat → String) :
    List Verb → Ledger → List (Except ApiError Reply) × Ledger
  | [], ledger => ([], ledger)
  | verb :: rest, ledger =>
    let (answer, ledger) := ledger.perform link supply ledger.records.values verb
    let (answers, ledger) := performAll link supply rest ledger
    (answer :: answers, ledger)

theorem tells_performAll (link : Link) (supply : Nat → String) (verbs : List Verb)
    (ledger : Ledger) :
    Tells link supply verbs ledger (performAll link supply verbs ledger).1
      (performAll link supply verbs ledger).2 := by
  induction verbs generalizing ledger with
  | nil => exact .nil ledger
  | cons verb rest ih => exact .cons (.refl _) (ih _)

end Ledger

end PublicIp
