import PublicIp.Http.Basic

/-!
# Requests and replies on a stream

The head of a request is a line with method and target, and a line for each header field; it ends
with an empty line, and then the body follows. A reply is written in the same way.
-/

namespace PublicIp.Http

/-- A line without the characters that end it. -/
def trimLineEnd (line : String) : String :=
  String.ofList (line.toList.reverse.dropWhile fun c => c = '\n' ∨ c = '\r').reverse

/-- Cuts a line at a character, which belongs to neither part. -/
def cutAt (c : Char) (line : String) : String × String :=
  let chars := line.toList
  (String.ofList (chars.takeWhile (· ≠ c)), String.ofList ((chars.dropWhile (· ≠ c)).drop 1))

def HeaderField.ofLine (line : String) : HeaderField :=
  let (name, value) := cutAt ':' line
  (name, Http.received value)

/-- A request whose body is still to come, from the lines of its head. -/
def Request.ofHead? : List String → Option Request
  | [] => none
  | first :: fields =>
    let (method, rest) := cutAt ' ' first
    let (target, version) := cutAt ' ' rest
    if version = "" then none
    else some { method, target, headers := fields.map .ofLine, body := ByteArray.empty }

/-- The size of the body that follows the head. -/
def Request.announcedSize (request : Request) : Nat :=
  ((request.header? "content-length").bind String.toNat?).getD 0

/-- The head of a reply. -/
def Response.head (response : Response) : String :=
  "HTTP/1.1 " ++ toString response.status ++ " \r\ncontent-length: " ++ toString response.body.size
    ++ "\r\n\r\n"

end PublicIp.Http
