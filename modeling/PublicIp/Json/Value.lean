import PublicIp.Json.Tree
import PublicIp.OrderedMap

/-!
# JSON values that are kept as they come

A `Value` is read from a tree when nothing is known about its shape. Members of objects are kept in
ascending order of their keys, the last one for each key. Unlike a value that is skipped, one that is
kept may hold only strings that are texts, numbers that are finite, and a bounded depth.
-/

namespace PublicIp.Json

/-- Why a text was not accepted: it is `malformed` if it is no JSON, or no JSON that could be kept,
and a `mismatch` if it is JSON of another shape than was asked for. -/
inductive Fault
  | malformed
  | mismatch
  deriving DecidableEq, Repr

inductive Value
  | null
  | bool (value : Bool)
  | number (value : Number)
  | text (value : String)
  | array (items : List Value)
  | object (members : List (String × Value))
  deriving Repr, Inhabited

/-- The fault of a token that stands in place of a value of another kind. -/
def Token.misfit : Token → Fault
  | .null | .bool _ | .openArray | .openObject => .mismatch
  | .number numeral => if numeral.number?.isSome then .mismatch else .malformed
  | .string (some _) => .mismatch
  | _ => .malformed

/-- The key of a member. -/
def Token.key : Token → Except Fault String
  | .string (some key) => .ok key
  | _ => .error .malformed

/-- The most containers that may stand around each other in what is kept. -/
def depthLimit : Nat := 127

namespace Value

def ofToken : Token → Except Fault Value
  | .null => .ok .null
  | .bool b => .ok (.bool b)
  | .string (some s) => .ok (.text s)
  | .number numeral =>
    match numeral.number? with
    | some n => .ok (.number n)
    | none => .error .malformed
  | _ => .error .malformed

/-- Reads a value of at most the given depth. -/
def read : Nat → Tree → Except Fault Value
  | _, .leaf token => ofToken token
  | 0, _ => .error .malformed
  | depth + 1, .array items => do
    let items ← items.mapM (read depth)
    return .array items
  | depth + 1, .object members => do
    let members ← members.mapM fun (key, value) => do
      let key ← key.key
      let value ← read depth value
      return (key, value)
    return .object (Entries.insertAll members [])

mutual

def tree : Value → Tree
  | .null => .null
  | .bool b => .ofBool b
  | .number n => .leaf (.number n.numeral)
  | .text s => .ofString s
  | .array items => .array (itemTrees items)
  | .object members => .object (memberTrees members)

def itemTrees : List Value → List Tree
  | [] => []
  | item :: rest => item.tree :: itemTrees rest

def memberTrees : List (String × Value) → List (Token × Tree)
  | [] => []
  | (key, value) :: rest => (.string (some key), value.tree) :: memberTrees rest

end

end Value

end PublicIp.Json
