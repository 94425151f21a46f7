/-!
# Finite doubles

The magnitude of a double-precision number, held exactly as a significand and a power of two, so
that every operation here is integer arithmetic. `Double.round` takes the nearest double of a
quotient, a half going to the even significand. `Double.scaled` reads decimal notation the way JSON
numbers are read here: the significand becomes a double first, and is then multiplied or divided by
a power of ten that is a double itself, with a rounding at each step. `Double.shortest` gives the
fewest decimal digits that determine the double.
-/

namespace PublicIp.Json

/-- The number `significand * 2 ^ exponent`, in units of `2 ^ (-1074)`. -/
structure Double where
  significand : Nat
  exponent : Nat
  deriving DecidableEq, Repr, Inhabited

namespace Double

def zero : Double := ⟨0, 0⟩

/-- The least significand of a number that is not tiny. -/
def hidden : Nat := Nat.pow 2 52

/-- The denominator that all doubles share. -/
def unit : Nat := Nat.pow 2 1074

/-- The number in the smallest unit of a double. -/
def units (x : Double) : Nat := x.significand * Nat.pow 2 x.exponent

/-- The largest exponent of a finite double. -/
def maxExponent : Nat := 2045

/-- The whole number nearest to a quotient, a half going to the even neighbour. -/
def roundQuotient (numerator denominator : Nat) : Nat :=
  let below := numerator / denominator
  let rest := 2 * (numerator % denominator)
  if rest > denominator ∨ (rest = denominator ∧ below % 2 = 1) then below + 1 else below

/-- The double nearest to a quotient, if it is finite. -/
def round (numerator denominator : Nat) : Option Double :=
  let units := numerator * unit / denominator
  let exponent := units.log2 - 52
  let significand := roundQuotient (numerator * unit) (denominator * Nat.pow 2 exponent)
  let rounded : Double :=
    if significand = 2 * hidden then ⟨hidden, exponent + 1⟩ else ⟨significand, exponent⟩
  if rounded.exponent ≤ maxExponent then some rounded else none

def mul (a b : Double) : Option Double :=
  round (a.units * b.units) (unit * unit)

def div (a b : Double) : Option Double :=
  round a.units b.units

def powerOfTen (n : Nat) : Double := (round (Nat.pow 10 n) 1).getD zero

/-- Divides by a power of ten, in steps of `10 ^ 308`, the largest that is a double. -/
def shrink (x : Double) (places : Nat) : Option Double :=
  if x.significand = 0 then some x
  else if places ≤ 308 then x.div (powerOfTen places)
  else (x.div (powerOfTen 308)).bind (shrink · (places - 308))
termination_by places

/-- The double read from `significand * 10 ^ exponent`, if it is finite. -/
def scaled (significand : Nat) (exponent : Int) : Option Double := do
  let x ← round significand 1
  if exponent < 0 then x.shrink exponent.natAbs
  else if exponent.natAbs ≤ 308 then x.mul (powerOfTen exponent.natAbs)
  else if x.significand = 0 then some x
  else none

/-- The decimal number `digits * 10 ^ exponent`. -/
structure Decimal where
  digits : Nat
  exponent : Int
  deriving DecidableEq, Repr

/-- Whether the decimal `point * up / down` rounds to the double: it lies between the midpoints to
the neighbouring doubles, or on one of them if the significand is even. -/
def determinedBy (x : Double) (point : Nat) (up down : Nat) : Bool :=
  let low := 4 * x.significand - (if x.significand = hidden ∧ 0 < x.exponent then 1 else 2)
  let high := 4 * x.significand + 2
  let scale := Nat.pow 2 x.exponent * down
  let at4 := 4 * point * unit * up
  if x.significand % 2 = 0 then low * scale ≤ at4 ∧ at4 ≤ high * scale
  else low * scale < at4 ∧ at4 < high * scale

/-- The number of decimal digits before the point; at most zero for a number below one tenth. -/
def magnitude (x : Double) : Int :=
  let value := x.units
  if unit ≤ value then (Nat.toDigits 10 (value / unit)).length
  else
    match (List.range 400).find? fun n => unit ≤ value * Nat.pow 10 (n + 1) with
    | some n => -(n : Int)
    | none => 0

/-- The neighbours of the double on the grid of decimals of `count` digits that round to it, the
nearest first, of two equally near ones the even one. -/
def candidates (x : Double) (count : Nat) : List Decimal :=
  let exponent := x.magnitude - count
  let up := if exponent < 0 then 1 else Nat.pow 10 exponent.natAbs
  let down := if exponent < 0 then Nat.pow 10 exponent.natAbs else 1
  let numerator := x.units * down
  let denominator := unit * up
  let below := numerator / denominator
  let nearest := roundQuotient numerator denominator
  let other := if nearest = below then below + 1 else below
  ([nearest, other].filter (x.determinedBy · up down)).map fun point =>
    if point = Nat.pow 10 count then ⟨1, exponent + count⟩ else ⟨point, exponent⟩

/-- The fewest digits that determine the double, and of those the nearest. -/
def shortest (x : Double) : Decimal :=
  if x.significand = 0 then ⟨0, 0⟩
  else ((List.range 17).flatMap fun n => x.candidates (n + 1)).headD ⟨0, 0⟩

end Double

end PublicIp.Json
