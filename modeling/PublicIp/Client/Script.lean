import PublicIp.Client.Dialogue

/-!
# The transport with a script

A transport that answers from a list, for dialogues that should meet known replies. It pays no
attention to deadlines.
-/

namespace PublicIp

open Json

/-- The replies to the next calls: failures, and JSON that is read as the reply to the call. -/
abbrev Script := List (Except ApiError Tree)

namespace Script

/-- The next reply, and the script that is left. -/
def next {α : Type} (reply : Codec α) : Script → Except ApiError α × Script
  | [] => (.error (.transport "no scripted reply"), [])
  | .error error :: rest => (.error error, rest)
  | .ok tree :: rest =>
    ((reply.ofTree tree).mapError fun _ => .deserialization "not the expected reply", rest)

def transport : Transport Script where
  invoke _ _ := next Response.codec
  precheck _ _ := next PrecheckResponse.codec

end Script

end PublicIp
