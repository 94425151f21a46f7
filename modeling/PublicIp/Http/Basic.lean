/-!
# HTTP requests and replies

As much of HTTP as a client and an agent exchange here: requests with a target, header fields and a
body, and replies with a status and a body. `Outcome` is what becomes of a request that is sent.
-/

namespace PublicIp.Http

/-- The name and the value of a header field. -/
abbrev HeaderField := String × String

/-- The name in lower case; names that differ in case only are the same. -/
def lowerCase (s : String) : String := String.ofList (s.toList.map Char.toLower)

/-- The value of the first field of a name, which is given in lower case. -/
def valueOf? (headers : List HeaderField) (name : String) : Option String :=
  (headers.find? fun (field, _) => lowerCase field = name).map (·.2)

/-- The characters of tokens, such as the names of fields. -/
def isTokenChar (c : Char) : Bool :=
  c.isAlphanum || "!#$%&\x27*+-.^_\x60|~".toList.contains c

/-- Whether a character may stand in the value of a header field. -/
def isFieldChar (c : Char) : Bool := c = '\t' ∨ (' ' ≤ c ∧ c ≠ '\x7f')

/-- Whether a text may be the value of a header field. -/
def isFieldValue (s : String) : Bool := s.toList.all isFieldChar

/-- Whether a text is made of visible ASCII characters, spaces and tabs. -/
def isVisible (s : String) : Bool := s.toList.all fun c => c = '\t' ∨ (' ' ≤ c ∧ c < '\x7f')

/-- A value as it is received: blanks around it do not belong to it. -/
def received (s : String) : String :=
  let blank (c : Char) : Bool := c = ' ' ∨ c = '\t'
  String.ofList ((s.toList.dropWhile blank).reverse.dropWhile blank).reverse

structure Request where
  method : String
  target : String
  headers : List HeaderField
  body : ByteArray

/-- The value of the first field of a name, which is given in lower case. -/
def Request.header? (request : Request) (name : String) : Option String :=
  valueOf? request.headers name

/-- A request as it is received. -/
def Request.received (request : Request) : Request :=
  { request with headers := request.headers.map fun (name, value) => (name, Http.received value) }

/-- A reply without header fields of its own, but for the size of its body. It names no place to be
redirected to, no charset and no packing. -/
structure Response where
  status : Nat
  body : ByteArray

/-- A reply with a text for its body. -/
def Response.ofText (status : Nat) (text : String) : Response := ⟨status, text.toUTF8⟩

/-- Whether a number is a status. -/
def isStatus (status : Nat) : Bool := 100 ≤ status ∧ status < 1000

/-- Whether a reply with the status only announces the reply that follows it. -/
def isInterim (status : Nat) : Bool := 100 ≤ status ∧ status < 200 ∧ status ≠ 101

/-- Whether a reply with the status never has a body. -/
def isBodiless (status : Nat) : Bool := status < 200 ∨ status = 204 ∨ status = 304

/-- The body of a reply has fewer bytes than this, as it is sent. -/
def replyLimit : Nat := 10485760

/-- Whether a reply with the status sends the client elsewhere. -/
def isRedirect (status : Nat) : Bool := 300 ≤ status ∧ status < 400 ∧ status ≠ 304

/-- What becomes of a request. What follows the head of a reply is in its body, even where the reply
never has one. -/
inductive Outcome
  | reply (response : Response)
  /-- The connection was refused, or closed without a reply. -/
  | dropped
  /-- The connection was closed before there was as much of a body as the head of the reply says. -/
  | cutShort (response : Response)
  /-- There was no reply in time. -/
  | silent

end PublicIp.Http
