/-!
# Identifiers

Ids are written as 32 hexadecimal digits in five groups. Two of the digits are not free: they say
that the others were drawn at random.
-/

namespace PublicIp.Agent.Uuid

/-- The lowest hexadecimal digits of a number, the highest of them first. -/
def digits (count n : Nat) : List Char :=
  match count with
  | 0 => []
  | count + 1 => digits count (n / 16) ++ [Nat.digitChar (n % 16)]

/-- The id with the given random bits. -/
def text (n : Nat) : String :=
  let random := digits 30 n
  let group (start count : Nat) : List Char := (random.drop start).take count
  String.ofList (group 0 8 ++ ['-'] ++ group 8 4 ++ ['-', '4'] ++ group 12 3 ++ ['-']
    ++ Nat.digitChar (8 + n / Nat.pow 16 30 % 4) :: group 15 3 ++ ['-'] ++ group 18 12)

end PublicIp.Agent.Uuid
