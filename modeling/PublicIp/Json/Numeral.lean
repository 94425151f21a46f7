import PublicIp.Json.Double

/-!
# Numbers as JSON writes them

A `Numeral` is a number as it is spelled, with any number of digits. A `Number` is one as it is kept:
a whole number of 64 bits, or a double. `Numeral.number?` reads one from the other and fails only
where the double is not finite; `Number.numeral` is the spelling that is written.
-/

namespace PublicIp.Json

/-- A number as it is spelled: sign, whole part without leading zeros, the digits after the point,
and the power of ten. -/
structure Numeral where
  negative : Bool
  whole : Nat
  fraction : List Char
  exponent : Option Int
  deriving DecidableEq, Repr

/-- A number as it is kept. `natural` and `negative` stand for whole numbers from `-2 ^ 63` up to
`2 ^ 64 - 1`, all others are doubles, negative zero among them. -/
inductive Number
  | natural (n : Nat)
  | negative (n : Nat)
  | double (sign : Bool) (magnitude : Double)
  deriving DecidableEq, Repr

namespace Numeral

/-- The leading digits of a whole number that fit in 64 bits, and how many digits follow them. -/
def fitting (n : Nat) : Nat × Nat :=
  if n < UInt64.size then (n, 0) else
    let (kept, dropped) := fitting (n / 10)
    (kept, dropped + 1)
termination_by n
decreasing_by
  have : UInt64.size = 18446744073709551616 := rfl
  omega

/-- Appends digits to a significand for as long as it fits in 64 bits, and counts them. -/
def append (significand : Nat) : List Char → Nat × Nat
  | [] => (significand, 0)
  | c :: rest =>
    let next := 10 * significand + (c.toNat - '0'.toNat)
    if next < UInt64.size then
      let (kept, taken) := append next rest
      (kept, taken + 1)
    else (significand, 0)

/-- The double a numeral is read as: the digits that fit in 64 bits, scaled by the power of ten and
by the places that were dropped or taken after the point. -/
def magnitude? (n : Numeral) : Option Double :=
  let (kept, dropped) := fitting n.whole
  let (kept, taken) := append kept n.fraction
  Double.scaled kept (n.exponent.getD 0 + dropped - taken)

/-- The number a numeral stands for. A plain run of digits is a whole number if it fits; anything
else is a double, and there is none if that is not finite. -/
def number? (n : Numeral) : Option Number :=
  if n.fraction = [] ∧ n.exponent = none then
    if n.negative then
      if 0 < n.whole ∧ n.whole ≤ UInt64.size / 2 then some (.negative n.whole)
      else n.magnitude?.map (.double true)
    else if n.whole < UInt64.size then some (.natural n.whole)
    else n.magnitude?.map (.double false)
  else n.magnitude?.map (.double n.negative)

/-- The spelling in characters. The power of ten always has a sign. -/
def text (n : Numeral) : List Char :=
  (if n.negative then ['-'] else []) ++ Nat.toDigits 10 n.whole
    ++ (if n.fraction = [] then [] else '.' :: n.fraction)
    ++ match n.exponent with
      | none => []
      | some e => 'e' :: (if e < 0 then '-' else '+') :: Nat.toDigits 10 e.natAbs

end Numeral

namespace Double

/-- Decimal notation of a double: positional, with at least one digit after the point, for numbers
from `1e-5` up to below `1e16`, and one digit before the point otherwise. -/
def numeral (negative : Bool) (x : Double) : Numeral :=
  let decimal := x.shortest
  let digits := Nat.toDigits 10 decimal.digits
  let point := decimal.exponent + digits.length
  let split := point.toNat
  if 0 ≤ decimal.exponent ∧ point ≤ 16 then
    ⟨negative, decimal.digits * Nat.pow 10 decimal.exponent.toNat, ['0'], none⟩
  else if 0 < point ∧ point ≤ 16 then
    ⟨negative, Nat.ofDigitChars 10 (digits.take split) 0, digits.drop split, none⟩
  else if -5 < point ∧ point ≤ 0 then
    ⟨negative, 0, List.replicate point.natAbs '0' ++ digits, none⟩
  else
    ⟨negative, Nat.ofDigitChars 10 (digits.take 1) 0, digits.drop 1, some (point - 1)⟩

end Double

/-- The spelling of a number in the output. -/
def Number.numeral : Number → Numeral
  | .natural n => ⟨false, n, [], none⟩
  | .negative n => ⟨true, n, [], none⟩
  | .double sign magnitude => magnitude.numeral sign

end PublicIp.Json
