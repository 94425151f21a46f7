import PublicIp.Json.Token

/-!
# The tree of a JSON text

`Tree.read` builds a tree from any run of tokens. Where the tokens stop being JSON the tree holds a
leaf that is no scalar, or a member that has no string for its key, so a tree is `whole` exactly if
it was read without fault, and a fault stands in the tree behind everything that precedes it in the
text. `Tree.tokens` lists the tokens a tree is written with.
-/

namespace PublicIp.Json

inductive Tree
  | leaf (token : Token)
  | array (items : List Tree)
  | object (members : List (Token × Tree))
  deriving Repr

namespace Tree

/-- Stands where a value is missing. -/
def broken : Tree := .leaf .junk

mutual

/-- Whether the tree is that of a JSON value. -/
def whole : Tree → Bool
  | .leaf token => token.isScalar
  | .array items => wholeItems items
  | .object members => wholeMembers members

def wholeItems : List Tree → Bool
  | [] => true
  | item :: rest => item.whole && wholeItems rest

def wholeMembers : List (Token × Tree) → Bool
  | [] => true
  | (.string _, value) :: rest => value.whole && wholeMembers rest
  | _ :: _ => false

end

mutual

/-- The value at the start of the tokens, and the tokens that follow it. Each token needs at most
two levels of fuel. -/
def readWithin : Nat → List Token → Tree × List Token
  | _, [] => (broken, [])
  | 0, tokens => (broken, tokens)
  | _ + 1, .openArray :: .closeArray :: rest => (.array [], rest)
  | fuel + 1, .openArray :: rest =>
    let (items, rest) := readItems fuel rest
    (.array items, rest)
  | _ + 1, .openObject :: .closeObject :: rest => (.object [], rest)
  | fuel + 1, .openObject :: rest =>
    let (members, rest) := readMembers fuel rest
    (.object members, rest)
  | _ + 1, token :: rest => (.leaf token, rest)

/-- The items of an array from the first one on. -/
def readItems : Nat → List Token → List Tree × List Token
  | 0, tokens => ([broken], tokens)
  | fuel + 1, tokens =>
    let (item, rest) := readWithin fuel tokens
    match rest with
    | .comma :: rest =>
      let (items, rest) := readItems fuel rest
      (item :: items, rest)
    | .closeArray :: rest => ([item], rest)
    | rest => ([item, broken], rest)

/-- The members of an object from the first one on. What stands in place of a key is kept. -/
def readMembers : Nat → List Token → List (Token × Tree) × List Token
  | 0, tokens => ([(.junk, broken)], tokens)
  | fuel + 1, .string key :: .colon :: rest =>
    let (value, rest) := readWithin fuel rest
    match rest with
    | .comma :: rest =>
      let (members, rest) := readMembers fuel rest
      ((.string key, value) :: members, rest)
    | .closeObject :: rest => ([(.string key, value)], rest)
    | rest => ([(.string key, value), (.junk, broken)], rest)
  | _ + 1, token :: rest => ([(token, broken)], rest)
  | _ + 1, [] => ([(.junk, broken)], [])

end

/-- The value a run of tokens starts with, and the tokens that follow it. -/
def read (tokens : List Token) : Tree × List Token := readWithin (2 * tokens.length + 1) tokens

mutual

/-- The tokens of a tree, in the order of the text. -/
def tokens : Tree → List Token
  | .leaf token => [token]
  | .array [] => [.openArray, .closeArray]
  | .array (item :: rest) => .openArray :: item.tokens ++ itemTokens rest
  | .object [] => [.openObject, .closeObject]
  | .object ((key, value) :: rest) =>
    .openObject :: key :: .colon :: value.tokens ++ memberTokens rest

/-- The tokens after an item of an array: the other items, and the end. -/
def itemTokens : List Tree → List Token
  | [] => [.closeArray]
  | item :: rest => .comma :: item.tokens ++ itemTokens rest

def memberTokens : List (Token × Tree) → List Token
  | [] => [.closeObject]
  | (key, value) :: rest => .comma :: key :: .colon :: value.tokens ++ memberTokens rest

end

/-- The text of a tree, without blanks. -/
def text (tree : Tree) : String := String.ofList (tree.tokens.flatMap Token.text)

/-- A leaf for a text. -/
def ofString (s : String) : Tree := .leaf (.string (some s))

/-- A leaf for a whole number. -/
def ofNat (n : Nat) : Tree := .leaf (.number (Number.natural n).numeral)

def ofBool (b : Bool) : Tree := .leaf (.bool b)

def null : Tree := .leaf .null

/-- An object from its members. -/
def ofMembers (members : List (String × Tree)) : Tree :=
  .object (members.map fun (key, value) => (.string (some key), value))

end Tree

end PublicIp.Json
