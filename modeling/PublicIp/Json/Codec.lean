import PublicIp.Json.Schema

/-!
# Codecs

A `Codec` ties a type to a schema: the schema says which texts are accepted and how they are
written, and the two functions pass between values and what the schema reads. `decode` takes a whole
text: what follows the value may only be blank, but a fault in the value comes first.
-/

namespace PublicIp.Json

open Text (Symbol symbolsOfBytes symbolsOfString)

structure Codec (α : Type) where
  schema : Schema
  toDatum : α → Datum
  ofDatum? : Datum → Option α

namespace Codec

variable {α : Type} (codec : Codec α)

def ofTree (tree : Tree) : Except Fault α := do
  let datum ← codec.schema.read depthLimit tree
  match codec.ofDatum? datum with
  | some value => return value
  | none => .error .mismatch

def toTree (value : α) : Tree := codec.schema.write (codec.toDatum value)

def decode (symbols : List Symbol) : Except Fault α := do
  let (tree, rest) := Tree.read (tokens symbols)
  let value ← codec.ofTree tree
  if rest.isEmpty then return value else .error .malformed

def decodeString (s : String) : Except Fault α := codec.decode (symbolsOfString s)

def decodeBytes (bytes : ByteArray) : Except Fault α := codec.decode (symbolsOfBytes bytes)

def encode (value : α) : String := (codec.toTree value).text

/-- The codec of lists. -/
def list : Codec (List α) where
  schema := .list codec.schema
  toDatum values := .list (values.map codec.toDatum)
  ofDatum?
    | .list items => items.mapM codec.ofDatum?
    | _ => none

/-- A value of an optional field. -/
def ofSlot? : Option Datum → Option (Option α)
  | none => some none
  | some datum => (codec.ofDatum? datum).map some

def toSlot (value : Option α) : Option Datum := value.map codec.toDatum

end Codec

/-- The codec of texts. -/
def Codec.text : Codec String where
  schema := .text
  toDatum := .text
  ofDatum?
    | .text s => some s
    | _ => none

/-- The codec of string maps. -/
def Codec.map : Codec (OrderedMap String String) where
  schema := .map
  toDatum := .map
  ofDatum?
    | .map entries => some entries
    | _ => none

/-- The codec of values of any shape. -/
def Codec.raw : Codec Value where
  schema := .raw
  toDatum := .raw
  ofDatum?
    | .raw value => some value
    | _ => none

namespace Field

/-- A text that is empty when absent. -/
def text (name : String) : Field := ⟨name, .defaulted (.text "") false, .text⟩

/-- A list that is empty when absent. -/
def list (name : String) (item : Schema) : Field := ⟨name, .defaulted (.list []) false, .list item⟩

end Field

/-- An object with a single text, as a text. -/
def Codec.wrappedText (name : String) : Codec String where
  schema := .record [.text name]
  toDatum s := .record [some (.text s)]
  ofDatum?
    | .record [some (.text s)] => some s
    | _ => none

end PublicIp.Json
