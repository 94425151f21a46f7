import PublicIp.Json.Value

/-!
# Shapes of JSON texts

A `Schema` describes what a text must look like to be accepted, and a `Datum` holds what was read by
one. `Schema.read` takes a tree in the order of the text, so of two faults the first one decides.
`Schema.write` is its counterpart.

A record is written as an object with its fields in order, and is read from an object with its
members in any order, or from an array with its fields in order. Members that are no fields are
skipped; a field may not be given twice.
-/

namespace PublicIp.Json

inductive Datum
  | text (s : String)
  | flag (b : Bool)
  | count (n : Nat)
  | choice (name : String)
  | raw (value : Value)
  | map (entries : OrderedMap String String)
  | list (items : List Datum)
  | record (slots : List (Option Datum))
  deriving Inhabited

/-- What the absence of a field means. -/
inductive Presence
  /-- It may not be absent. -/
  | required
  /-- Absence and `null` both mean that there is none. Only with `positional` may it be absent from
  the end of an array too. -/
  | optional (positional : Bool)
  /-- Absence means the given datum. With `hidden` that datum is not written. -/
  | defaulted (datum : Datum) (hidden : Bool)

mutual

inductive Schema
  | text
  | flag
  /-- A whole number below `2 ^ 32`. -/
  | count
  /-- One of some names, or an object that maps one of them to `null`. -/
  | choice (names : List String)
  /-- Any value. -/
  | raw
  /-- An object of texts. -/
  | map
  | list (item : Schema)
  | record (fields : List Field)

structure Field where
  name : String
  presence : Presence
  schema : Schema

end

namespace Schema

/-- Reads from a tree with at most the given depth. -/
abbrev Reader := Nat → Tree → Except Fault Datum

structure FieldReader where
  name : String
  presence : Presence
  read : Reader

/-- Opens a container. -/
def enter (depth : Nat) (read : Nat → Except Fault Datum) : Except Fault Datum :=
  match depth with
  | 0 => .error .malformed
  | depth + 1 => read depth

def textOfTree : Tree → Except Fault String
  | .leaf (.string (some s)) => .ok s
  | .leaf token => .error token.misfit
  | _ => .error .mismatch

def readFlag : Tree → Except Fault Datum
  | .leaf (.bool b) => .ok (.flag b)
  | .leaf token => .error token.misfit
  | _ => .error .mismatch

def readCount : Tree → Except Fault Datum
  | .leaf (.number numeral) =>
    match numeral.number? with
    | some (.natural n) => if n < UInt32.size then .ok (.count n) else .error .mismatch
    | some _ => .error .mismatch
    | none => .error .malformed
  | .leaf token => .error token.misfit
  | _ => .error .mismatch

def readName (names : List String) (name : String) : Except Fault Datum :=
  if name ∈ names then .ok (.choice name) else .error .mismatch

/-- What a name of a choice is mapped to. -/
def readNull : Tree → Except Fault Unit
  | .leaf .null => .ok ()
  | .leaf token => .error token.misfit
  | _ => .error .mismatch

def readChoice (names : List String) (depth : Nat) : Tree → Except Fault Datum
  | .leaf (.string (some name)) => readName names name
  | .leaf _ => .error .malformed
  | .array _ => .error .malformed
  | .object members => enter depth fun _ =>
    match members with
    | (.string (some name), value) :: rest => do
      let choice ← readName names name
      readNull value
      if rest.isEmpty then return choice else .error .malformed
    | _ => .error .malformed

def readMap (depth : Nat) : Tree → Except Fault Datum
  | .leaf token => .error token.misfit
  | .array _ => .error .mismatch
  | .object members => enter depth fun _ => do
    let entries ← members.mapM fun (key, value) => do
      let key ← key.key
      let value ← textOfTree value
      return (key, value)
    return .map (.ofList entries)

def readList (item : Reader) (depth : Nat) : Tree → Except Fault Datum
  | .leaf token => .error token.misfit
  | .object _ => .error .mismatch
  | .array items => enter depth fun depth => do
    let items ← items.mapM (item depth)
    return .list items

namespace FieldReader

/-- Reads the value of a field. -/
def slot (field : FieldReader) (depth : Nat) (tree : Tree) : Except Fault (Option Datum) :=
  match field.presence, tree with
  | .optional _, .leaf .null => .ok none
  | _, tree => some <$> field.read depth tree

/-- What a field holds that no member of an object gives. -/
def absent (field : FieldReader) : Except Fault (Option Datum) :=
  match field.presence with
  | .required => .error .mismatch
  | .optional _ => .ok none
  | .defaulted datum _ => .ok (some datum)

/-- What a field holds that lies beyond the end of an array. -/
def beyond (field : FieldReader) : Except Fault (Option Datum) :=
  match field.presence with
  | .required | .optional false => .error .mismatch
  | .optional true => .ok none
  | .defaulted datum _ => .ok (some datum)

end FieldReader

/-- The slots of a record given as an array. -/
def readItems (depth : Nat) : List FieldReader → List Tree → Except Fault (List (Option Datum))
  | [], [] => .ok []
  | [], _ :: _ => .error .malformed
  | field :: fields, [] => do
    let slot ← field.beyond
    let slots ← readItems depth fields []
    return slot :: slots
  | field :: fields, item :: items => do
    let slot ← field.slot depth item
    let slots ← readItems depth fields items
    return slot :: slots

/-- The fields that the members of an object give, the last one first. -/
def readMembers (fields : List FieldReader) (depth : Nat) (found : List (String × Option Datum)) :
    List (Token × Tree) → Except Fault (List (String × Option Datum))
  | [] => .ok found
  | (key, value) :: rest => do
    let key ← key.key
    match fields.find? (·.name = key) with
    | none => if value.whole then readMembers fields depth found rest else .error .malformed
    | some field =>
      if (found.lookup key).isSome then .error .mismatch
      else
        let slot ← field.slot depth value
        readMembers fields depth ((key, slot) :: found) rest

/-- The slot of a field among those that an object gives. -/
def collect (found : List (String × Option Datum)) (field : FieldReader) :
    Except Fault (Option Datum) :=
  match found.lookup field.name with
  | some slot => .ok slot
  | none => field.absent

def readRecord (fields : List FieldReader) (depth : Nat) : Tree → Except Fault Datum
  | .leaf token => .error token.misfit
  | .array items => enter depth fun depth => .record <$> readItems depth fields items
  | .object members => enter depth fun depth => do
    let found ← readMembers fields depth [] members
    let slots ← fields.mapM (collect found)
    return .record slots

mutual

def read : Schema → Reader
  | .text => fun _ tree => .text <$> textOfTree tree
  | .flag => fun _ tree => readFlag tree
  | .count => fun _ tree => readCount tree
  | .choice names => readChoice names
  | .raw => fun depth tree => .raw <$> Value.read depth tree
  | .map => readMap
  | .list item => readList item.read
  | .record fields => readRecord (fieldReaders fields)

def fieldReaders : List Field → List FieldReader
  | [] => []
  | ⟨name, presence, schema⟩ :: rest => ⟨name, presence, schema.read⟩ :: fieldReaders rest

end

/-- Whether a datum is the empty text or the empty map. -/
def isBlank : Datum → Bool
  | .text s => s.isEmpty
  | .map entries => entries.isEmpty
  | _ => false

/-- Whether a datum is left out of the output. -/
def hides (presence : Presence) (datum : Datum) : Bool :=
  match presence with
  | .defaulted _ true => isBlank datum
  | _ => false

mutual

def write : Schema → Datum → Tree
  | .text, .text s => .ofString s
  | .flag, .flag b => .ofBool b
  | .count, .count n => .ofNat n
  | .choice _, .choice name => .ofString name
  | .raw, .raw value => value.tree
  | .map, .map entries => .ofMembers (entries.entries.map fun (key, s) => (key, .ofString s))
  | .list item, .list items => .array (items.map item.write)
  | .record fields, .record slots => .ofMembers (writeFields fields slots)
  | _, _ => .broken

def writeFields : List Field → List (Option Datum) → List (String × Tree)
  | ⟨_, _, _⟩ :: fields, none :: slots => writeFields fields slots
  | ⟨name, presence, schema⟩ :: fields, some datum :: slots =>
    if hides presence datum then writeFields fields slots
    else (name, schema.write datum) :: writeFields fields slots
  | _, _ => []

end

end Schema

end PublicIp.Json
