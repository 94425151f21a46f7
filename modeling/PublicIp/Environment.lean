/-!
# Environment variables

Client and agent take settings from the environment. A variable counts as unset if its value is no
text, and for most settings if it is empty.
-/

namespace PublicIp

/-- The text of a variable with the given bytes, if it is set. -/
def variableText (value : Option ByteArray) : Option String := value.bind String.fromUTF8?

/-- The text of a variable, if it is not empty. -/
def givenText (value : Option String) : Option String := value.filter (· ≠ "")

end PublicIp
