import PublicIp.Http.Body

/-!
# Replies as bytes

`Response.read?` finds the reply in the bytes that a connection brought before it was closed. A reply
may announce another one, which follows its head. `Outcome.final?` is the reply in which an exchange
ends.
-/

namespace PublicIp.Http

/-- Whether a reply that announces another one may have the head. With the status 100 there are no
header fields. -/
def Response.Head.announces (head : Head) : Bool :=
  isInterim head.status && if head.status = 100 then head.fields.isEmpty else head.framing?.isSome

/-- The first reply in some bytes that does not only announce another one. -/
def Response.read? (bytes : List UInt8) : Option Response :=
  match _ : Head.read? bytes with
  | none => none
  | some (head, rest) =>
    if head.announces then Response.read? rest
    else if isInterim head.status then none
    else (head.body? rest).map fun body => ⟨head.status, body⟩
termination_by bytes.length
decreasing_by exact Head.read?_length ‹_›

/-- The reply in which an exchange ends that brought a given reply. The header fields of that one tell
the size of what follows, so its status is not 100. -/
def Response.final? (response : Response) : Option Response :=
  if isInterim response.status then
    if response.status = 100 then none else Response.read? response.body.toList
  else if !isStatus response.status then none
  else if isBodiless response.status then some { response with body := ByteArray.empty }
  else if replyLimit ≤ response.body.size then none
  else some response

/-- The reply in which an exchange ends. One that has no body of its own is never cut short. -/
def Outcome.final? : Outcome → Option Response
  | .reply response => response.final?
  | .cutShort response => if isBodiless response.status then response.final? else none
  | .dropped | .silent => none

end PublicIp.Http
