/-!
# Whole numbers

Whole numbers as they are written in settings and header fields: digits, of which there is at least
one. Leading zeros are allowed, and in some places one plus sign in front.
-/

namespace PublicIp.Text

def hexDigit? (c : Char) : Option Nat :=
  if '0' ≤ c ∧ c ≤ '9' then some (c.toNat - '0'.toNat)
  else if 'a' ≤ c ∧ c ≤ 'f' then some (c.toNat - 'a'.toNat + 10)
  else if 'A' ≤ c ∧ c ≤ 'F' then some (c.toNat - 'A'.toNat + 10)
  else none

/-- The value of a digit of a base, which is at most sixteen. -/
def digit? (base : Nat) (c : Char) : Option Nat := (hexDigit? c).filter (· < base)

/-- The value of a row of digits behind those that are worth `n`. -/
def digitsFrom? (base : Nat) : Nat → List Char → Option Nat
  | n, [] => some n
  | n, c :: rest => (digit? base c).bind fun digit => digitsFrom? base (base * n + digit) rest

/-- The number that digits of a base stand for. There is at least one, and nothing else. -/
def natural? (base : Nat) (digits : List Char) : Option Nat :=
  if digits.isEmpty then none else digitsFrom? base 0 digits

/-- The number that digits of a base stand for, with or without a plus sign in front. -/
def whole? (base : Nat) : List Char → Option Nat
  | '+' :: digits => natural? base digits
  | digits => natural? base digits

end PublicIp.Text
