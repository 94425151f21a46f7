import PublicIp.ApiError

/-!
# Deadlines

Instants are milliseconds of a clock that the caller reads.
-/

namespace PublicIp

/-- The instant by which a call has to be over, if there is one. -/
structure Deadline where
  instant : Option Nat := none
  deriving DecidableEq, Repr, Inhabited

namespace Deadline

def unlimited : Deadline := {}

/-- A deadline some time from now. -/
def after (now timeout : Nat) : Deadline := { instant := some (now + timeout) }

/-- The time that is left, none if it is not limited. A deadline that has just come is over. -/
def remaining (deadline : Deadline) (now : Nat) : Except ApiError (Option Nat) :=
  match deadline.instant with
  | none => .ok none
  | some instant => if instant ≤ now then .error .deadlineExceeded else .ok (some (instant - now))

end Deadline

end PublicIp
