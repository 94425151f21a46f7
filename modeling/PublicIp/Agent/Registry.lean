import PublicIp.Agent.Entry

/-!
# The registry of the agent

The agent keeps one entry for each location and name, and carries out operations on it one at a
time. An operation is a function of the registry; one that creates entries draws their ids from a
given supply, `ids 0` first. What the agent notes about its work is part of the effect.
-/

namespace PublicIp.Agent

open Json

/-- What identifies an entry. Keys are ordered by location, and by name within a location. -/
structure Key where
  location : String
  name : String
  deriving DecidableEq, Repr, Inhabited

namespace Key

instance : Ord Key := ⟨compareLex (compareOn Key.location) (compareOn Key.name)⟩

instance : Std.TransOrd Key :=
  inferInstanceAs (Std.TransCmp (compareLex (compareOn Key.location) (compareOn Key.name)))

instance : Std.LawfulEqOrd Key where
  eq_of_compare {a b} h := by
    have h : (compare a.location b.location).then (compare a.name b.name) = .eq := h
    rw [Ordering.then_eq_eq] at h
    cases a; cases b
    simp_all

end Key

def Entry.key (entry : Entry) : Key := ⟨entry.location, entry.name⟩

/-- Whether an entry was there before it was stored. -/
inductive Provision
  | created
  | updated
  deriving DecidableEq, Repr

namespace Provision

def word : Provision → String
  | .created => "CREATED"
  | .updated => "UPDATED"

/-- The status of an entry that has just been stored. -/
def status (provision : Provision) : Value :=
  .object [
    ("health", .object [("currentState", .text "OK")]),
    ("provisioningStatus", .object [("currentState", .text provision.word)])]

end Provision

/-- What the agent notes about its work. -/
inductive Event
  | listening (address : String)
  | found (count : Nat)
  | stored (name location : String) (provision : Provision)
  | removed (name location : String)
  | prechecked (count : Nat) (accepted : Bool)
  deriving DecidableEq, Repr

def Event.text : Event → String
  | .listening address => "listening on " ++ address
  | .found count => "get count=" ++ toString count
  | .stored name location provision =>
    "upsert name=" ++ name ++ " location=" ++ location ++ " state=\"" ++ provision.word ++ "\""
  | .removed name location => "delete name=" ++ name ++ " location=" ++ location
  | .prechecked count accepted => "precheck count=" ++ toString count ++ " ok=" ++ toString accepted

/-- Why an operation was not carried out. -/
inductive Refusal
  /-- An entry to be stored has no name or no location. -/
  | incomplete (name : String)
  /-- An entry to be deleted is not there. -/
  | missing (name : String)
  deriving DecidableEq, Repr

def Refusal.text : Refusal → String
  | .incomplete name => "public IP address [" ++ name ++ "] needs a name and a location"
  | .missing name => "public IP address [" ++ name ++ "] not found"

/-- Whether an entry holds the wanted address at the wanted location under another name. -/
def Blocks (wanted entry : Entry) : Prop :=
  entry.location = wanted.location ∧ entry.ipAddress = wanted.ipAddress ∧
    entry.name ≠ wanted.name

instance (wanted : Entry) : DecidablePred (Blocks wanted) := fun entry =>
  inferInstanceAs (Decidable
    (entry.location = wanted.location ∧ entry.ipAddress = wanted.ipAddress ∧
      entry.name ≠ wanted.name))

/-- What is said of an address that is held under a name. -/
def assigned (address holder : String) : String :=
  "IP address " ++ address ++ " is already assigned to [" ++ holder ++ "]"

/-- Why an entry could not be created, where the entries that there are are met in some order. The
holder of an address that is met first is named. -/
def objectionIn? (order : List Entry) (wanted : Entry) : Option String :=
  if wanted.location = "" then some ("public IP address [" ++ wanted.name ++ "] has no location")
  else if wanted.ipAddress = "" then none
  else (order.find? fun entry => Blocks wanted entry).map fun holder =>
    assigned wanted.ipAddress holder.name

/-- The first objection to a batch. -/
def objectionTo (order batch : List Entry) : Option String := batch.findSome? (objectionIn? order)

/-- The verdict for an objection, if there is one. -/
def Verdict.ofObjection (objection : Option String) : Verdict where
  accepted := objection.isNone
  error := objection.getD ""

abbrev Registry := OrderedMap Key Entry

/-- What an operation answers, and what it leaves behind. -/
structure Effect (α : Type) where
  answer : α
  registry : Registry
  events : List Event := []
  /-- How many ids were drawn from the supply. -/
  drawn : Nat := 0

namespace Registry

/-- Whether an entry is at the wanted location, and has the wanted name if one is given. -/
def isWanted (wanted entry : Entry) : Bool :=
  entry.location = wanted.location ∧ (wanted.name = "" ∨ entry.name = wanted.name)

/-- The entries that are wanted, by name. -/
def wantedBy (registry : Registry) (wanted : Entry) : List Entry :=
  registry.values.filter (isWanted wanted)

def get (registry : Registry) (wanted : List Entry) : Effect (Except Refusal Answer) :=
  let found := wanted.flatMap registry.wantedBy
  { answer := .ok { entries := found }, registry, events := [.found found.length] }

/-- Whether an entry is stored for the first time. -/
def provision (registry : Registry) (entry : Entry) : Provision :=
  if (registry.find? entry.key).isSome then .updated else .created

/-- An entry as it is stored: it keeps the id it had or gets a fresh one, and its status is the
agent's. -/
def admitted (registry : Registry) (fresh : String) (entry : Entry) : Entry :=
  { entry with
    id := ((registry.find? entry.key).map Entry.id).getD fresh
    status := some (registry.provision entry).status }

/-- Stores entries in turn. -/
def storeAll (registry : Registry) (ids : Nat → String) (drawn : Nat) :
    List Entry → Effect (List Entry)
  | [] => { answer := [], registry, drawn }
  | entry :: rest =>
    let provision := registry.provision entry
    let stored := registry.admitted (ids drawn) entry
    let drawn := if provision = .created then drawn + 1 else drawn
    let effect := storeAll (registry.insert entry.key stored) ids drawn rest
    { effect with
      answer := stored :: effect.answer
      events := .stored entry.name entry.location provision :: effect.events }

/-- Whether an entry can be stored. -/
def isComplete (entry : Entry) : Bool := entry.name ≠ "" ∧ entry.location ≠ ""

/-- Nothing is stored unless all entries can be. -/
def post (registry : Registry) (ids : Nat → String) (entries : List Entry) :
    Effect (Except Refusal Answer) :=
  match entries.find? (!isComplete ·) with
  | some entry => { answer := .error (.incomplete entry.name), registry }
  | none =>
    let effect := registry.storeAll ids 0 entries
    { effect with answer := .ok { entries := effect.answer } }

/-- Deletes entries in turn, up to the first one that is not there. -/
def delete (registry : Registry) : List Entry → Effect (Except Refusal Answer)
  | [] => { answer := .ok {}, registry }
  | entry :: rest =>
    match registry.find? entry.key with
    | none => { answer := .error (.missing entry.name), registry }
    | some _ =>
      let effect := delete (registry.erase entry.key) rest
      { effect with events := .removed entry.name entry.location :: effect.events }

/-- The first objection to what is wanted counts. It depends on the order in which the entries that
there are are met, which may be any one. A precheck changes nothing. -/
def precheck (registry : Registry) (order wanted : List Entry) : Effect Verdict :=
  let verdict := Verdict.ofObjection (objectionTo order wanted)
  { answer := verdict, registry, events := [.prechecked wanted.length verdict.accepted] }

/-- Carries out an operation. -/
def invoke (registry : Registry) (ids : Nat → String) (invocation : Invocation) :
    Effect (Except Refusal Answer) :=
  match invocation.operation with
  | .get => registry.get invocation.entries
  | .post => registry.post ids invocation.entries
  | .delete => registry.delete invocation.entries

end Registry

end PublicIp.Agent
