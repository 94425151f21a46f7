import PublicIp.Http.Basic

/-!
# Media types

Whether the value of a content-type field announces JSON. A media type is a type and a subtype with
a slash between them, and then parameters, each after a semicolon; case does not matter. It announces
JSON if it is `application/json`, with or without a suffix after a plus sign, or another application
type with the suffix `json`.
-/

namespace PublicIp.Http

/-- The characters of quoted values. -/
def isQuotedChar (c : Char) : Bool := ' ' ≤ c ∧ c ≠ '\x7f'

/-- What follows the value of a parameter, if it is the end or a semicolon. A quoted value is not
empty, and one without quotes is only empty at the end. -/
def afterValue : List Char → Option (List Char)
  | '"' :: first :: rest =>
    let text := rest.takeWhile (· ≠ '"')
    match rest.dropWhile (· ≠ '"') with
    | [] => none
    | _ :: rest =>
      match rest.dropWhile (· = ' ') with
      | [] => if (first :: text).all isQuotedChar then some [] else none
      | ';' :: rest => if (first :: text).all isQuotedChar then some (';' :: rest) else none
      | _ => none
  | value =>
    match value.dropWhile isTokenChar with
    | [] => some []
    | ';' :: rest => if value.head?.any isTokenChar then some (';' :: rest) else none
    | _ => none

/-- Whether a text is a run of parameters: each a semicolon, spaces, and a name with a value. The
last one may be missing after its semicolon. -/
def areParameters : Nat → List Char → Bool
  | _, [] => true
  | fuel + 1, ';' :: rest =>
    match rest.dropWhile (· = ' ') with
    | [] => true
    | name =>
      match name.dropWhile isTokenChar with
      | '=' :: value =>
        name.head?.any isTokenChar && (afterValue value).any (areParameters fuel)
      | _ => false
  | _, _ => false

/-- Cuts a subtype at its last plus sign. A plus sign at the start belongs to the name. -/
def splitSuffix (subtype : List Char) : List Char × Option (List Char) :=
  let suffix := (subtype.reverse.takeWhile (· ≠ '+')).reverse
  let kept := subtype.length - suffix.length
  if 1 < kept then (subtype.take (kept - 1), some suffix) else (subtype, none)

/-- Whether a content type announces JSON. -/
def isJson (contentType : String) : Bool :=
  let lower := contentType.toList.map Char.toLower
  match lower.dropWhile isTokenChar with
  | '/' :: rest =>
    let (name, suffix) := splitSuffix (rest.takeWhile isTokenChar)
    isVisible contentType
      && lower.takeWhile isTokenChar == "application".toList
      && (name == "json".toList || suffix == some "json".toList)
      && areParameters rest.length (rest.dropWhile isTokenChar)
  | _ => false

end PublicIp.Http
