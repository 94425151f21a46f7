/-!
# URLs and the targets of requests

A URL is a scheme, an authority, and then a path and a query, which are the target of a request to
it. The authority is a host, perhaps with a number after a colon, and perhaps with a user before it.
Some characters may stand in the query and not in the path, and the other way round; characters
beyond ASCII may stand in both. `Url.ofString?` reads a URL, and `path` takes the path from the
target of a request, which may be a whole URL itself.
-/

namespace PublicIp.Http

/-- The characters of schemes. -/
def isSchemeChar (c : Char) : Bool := c.isAlphanum || "+-.~".toList.contains c

/-- Whether a character may stand in a target at all. -/
def isTargetChar (c : Char) : Bool := ' ' < c ∧ c ≠ '\x7f' ∧ c ≠ '<' ∧ c ≠ '>'

def isPathChar (c : Char) : Bool := isTargetChar c ∧ c ≠ '\x60'

def isQueryChar (c : Char) : Bool := isTargetChar c ∧ c ≠ '"'

/-- Whether a character ends the authority. -/
def endsAuthority (c : Char) : Bool := c = '/' ∨ c = '?' ∨ c = '#'

/-- The characters of authorities that have no meaning of their own there. -/
def isAuthorityChar (c : Char) : Bool := c.isAlphanum || "-._~!$&\x27()*+,;=".toList.contains c

/-- What has been seen of an authority. Colons and percent signs are those that may still turn out to
belong to the host. -/
structure AuthorityState where
  colons : Nat := 0
  percent : Bool := false
  opened : Bool := false
  closed : Bool := false
  /-- Whether the last character was the sign that separates the user from the host. -/
  atSign : Bool := false
  deriving DecidableEq

namespace AuthorityState

/-- As many colons as an address between brackets and its number may have. -/
def maxColons : Nat := 8

/-- The state after one more character. What stands between brackets, or before the sign that ends the
user, may hold colons and percent signs. -/
def step (state : AuthorityState) (c : Char) : Option AuthorityState :=
  match c with
  | ':' =>
    if state.colons < maxColons then some { state with colons := state.colons + 1, atSign := false }
    else none
  | '%' => some { state with percent := true, atSign := false }
  | '@' => some { state with colons := 0, percent := false, atSign := true }
  | '[' =>
    if state.percent || state.opened then none else some { state with opened := true, atSign := false }
  | ']' =>
    if state.opened && !state.closed then
      some { state with colons := 0, percent := false, closed := true, atSign := false }
    else none
  | c => if isAuthorityChar c then some { state with atSign := false } else none

/-- Whether an authority may end here. -/
def isComplete (state : AuthorityState) : Bool :=
  state.opened == state.closed && decide (state.colons ≤ 1) && !state.percent && !state.atSign

/-- The state after a text. -/
def run : AuthorityState → List Char → Option AuthorityState
  | state, [] => some state
  | state, c :: rest => (state.step c).bind (run · rest)

end AuthorityState

/-- What follows the last occurrence of a character, or everything if there is none. -/
def afterLast (c : Char) (chars : List Char) : List Char :=
  (chars.reverse.takeWhile (· ≠ c)).reverse

/-- The host of an authority, without the number after it. -/
def hostPart (authority : List Char) : List Char :=
  match afterLast '@' authority with
  | '[' :: rest => '[' :: rest.takeWhile (· ≠ ']') ++ [']']
  | rest => rest.takeWhile (· ≠ ':')

/-- Whether a text is an authority. The host is not empty. -/
def isAuthority (chars : List Char) : Bool :=
  ((({} : AuthorityState).run chars).any AuthorityState.isComplete) && !(hostPart chars).isEmpty

/-- What follows the scheme of a URL. -/
def afterScheme? (chars : List Char) : Option (List Char) :=
  match chars.dropWhile isSchemeChar with
  | ':' :: '/' :: '/' :: rest => some rest
  | _ => none

/-- A target without the fragment. -/
def withoutFragment (chars : List Char) : List Char := chars.takeWhile (· ≠ '#')

/-- The path of a target. -/
def pathPart (chars : List Char) : List Char := (withoutFragment chars).takeWhile (· ≠ '?')

/-- The query of a target, with its question mark. -/
def queryPart (chars : List Char) : List Char := (withoutFragment chars).dropWhile (· ≠ '?')

/-- A path starts with a slash, also where it is not written. -/
def rooted : List Char → List Char
  | '/' :: rest => '/' :: rest
  | chars => '/' :: chars

/-- As much of a URL as a request to it needs. -/
structure Url where
  authority : String
  /-- The path and the query. -/
  target : String
  deriving DecidableEq

namespace Url

/-- The most bytes of a URL. -/
def maxSize : Nat := 65534

def ofString? (text : String) : Option Url :=
  (afterScheme? text.toList).bind fun rest =>
    let authority := rest.takeWhile (!endsAuthority ·)
    let target := rest.dropWhile (!endsAuthority ·)
    if isAuthority authority && (pathPart target).all isPathChar
        && (queryPart target).all isQueryChar && decide (text.utf8ByteSize ≤ maxSize) then
      some {
        authority := String.ofList authority
        target := String.ofList (rooted (withoutFragment target)) }
    else none

/-- The user, with a password after a colon if there is one. -/
def user? (url : Url) : Option String :=
  let chars := url.authority.toList
  if chars.contains '@' then
    some (String.ofList (chars.take (chars.length - (afterLast '@' chars).length - 1)))
  else none

end Url

/-- The path that a request asks for. A target that is neither a path nor a URL has none. -/
def path (target : String) : String :=
  match target.toList with
  | '/' :: rest => String.ofList (pathPart ('/' :: rest))
  | chars =>
    match afterScheme? chars with
    | some rest => String.ofList (rooted (pathPart (rest.dropWhile (!endsAuthority ·))))
    | none => ""

end PublicIp.Http
