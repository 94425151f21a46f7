/-!
# Failures of the client

Some failures are raised before anything reaches the agent, the others by the agent or on the way to
it. `ApiError.message` is the text a caller sees, and `ApiError.inContext` adds to the text of a
failure raised locally what the client was about to do.
-/

namespace PublicIp

inductive ApiError
  /-- A required argument is empty. -/
  | invalidInput (detail : String)
  /-- A record lacks what the operation needs. -/
  | invalidConfiguration (detail : String)
  /-- The address does not exist. -/
  | notFound (detail : String)
  /-- The agent reported a failure in its reply. -/
  | remote (detail : String)
  /-- The agent answered with a status that is neither a success nor "not found". -/
  | http (status : Nat) (body : String)
  /-- The call was not completed. -/
  | transport (detail : String)
  | deadlineExceeded
  /-- The envelope could not be written. -/
  | serialization (detail : String)
  /-- The reply could not be read. -/
  | deserialization (detail : String)
  deriving DecidableEq, Repr

namespace ApiError

def message : ApiError → String
  | .invalidInput detail => "invalid input: " ++ detail
  | .invalidConfiguration detail => "invalid configuration: " ++ detail
  | .notFound detail => "not found: " ++ detail
  | .remote detail => "remote error: " ++ detail
  | .http status body => "HTTP " ++ toString status ++ ": " ++ body
  | .transport detail => "transport error: " ++ detail
  | .deadlineExceeded => "deadline exceeded"
  | .serialization detail => "serialization failed: " ++ detail
  | .deserialization detail => "deserialization failed: " ++ detail

/-- Whether the failure arose at the agent or on the way to it. -/
def isRemote : ApiError → Bool
  | .remote _ | .http _ _ | .transport _ => true
  | _ => false

/-- Says what was attempted, if the failure was raised by a check of the arguments. -/
def inContext (context : String) : ApiError → ApiError
  | .invalidInput detail => .invalidInput (context ++ ": " ++ detail)
  | .invalidConfiguration detail => .invalidConfiguration (context ++ ": " ++ detail)
  | error => error

end ApiError

end PublicIp
