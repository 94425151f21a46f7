import PublicIp.Coding.Deflate

/-!
# Gzip

Bytes in the gzip format are a row of members. A member is a header, deflated bytes, and a check of
what they stand for: its cyclic redundancy code and its size. What the members stand for is put
together.
-/

namespace PublicIp.Coding.Gzip

def crcOfBit (crc : UInt32) : UInt32 :=
  if crc &&& 1 = 1 then (crc >>> 1) ^^^ 0xedb88320 else crc >>> 1

def crcOfByte (crc : UInt32) (byte : UInt8) : UInt32 :=
  (List.range 8).foldl (fun crc _ => crcOfBit crc) (crc ^^^ byte.toUInt32)

/-- The cyclic redundancy code of bytes. -/
def crc (bytes : List UInt8) : UInt32 := bytes.foldl crcOfByte 0xffffffff ^^^ 0xffffffff

/-- The number that bytes stand for, the lowest one first. -/
def number : List UInt8 → Nat
  | [] => 0
  | byte :: rest => byte.toNat + 256 * number rest

/-- The most bytes of a text in a header. -/
def maxTextSize : Nat := 65535

/-- What follows a text that a zero ends. -/
def afterText? (bytes : List UInt8) : Option (List UInt8) :=
  match bytes.dropWhile (· ≠ 0) with
  | [] => none
  | _ :: rest => if (bytes.takeWhile (· ≠ 0)).length ≤ maxTextSize then some rest else none

/-- What follows a field that starts with its size in two bytes. -/
def afterField? : List UInt8 → Option (List UInt8)
  | low :: high :: rest =>
    let size := number [low, high]
    if size ≤ rest.length then some (rest.drop size) else none
  | _ => none

/-- What follows a check of the header so far, which is the lower half of its code. -/
def afterCheck? (header : List UInt8) : List UInt8 → Option (List UInt8)
  | low :: high :: rest =>
    if number [low, high] = (crc header).toNat % 65536 then some rest else none
  | _ => none

/-- What follows the header of a member. Its flags tell which parts there are after the first ten
bytes: a field, a name, a comment and a check. -/
def afterHeader? (bytes : List UInt8) : Option (List UInt8) :=
  match bytes with
  | 0x1f :: 0x8b :: 8 :: flags :: _ :: _ :: _ :: _ :: _ :: _ :: rest => do
    let has (bit : Nat) : Bool := flags.toNat.testBit bit
    if flags.toNat ≥ 32 then none
    let rest ← if has 2 then afterField? rest else some rest
    let rest ← if has 3 then afterText? rest else some rest
    let rest ← if has 4 then afterText? rest else some rest
    if has 1 then afterCheck? (bytes.take (bytes.length - rest.length)) rest else some rest
  | _ => none

/-- What a member stands for, and what follows it. -/
def member? (bytes : List UInt8) : Option (List UInt8 × List UInt8) := do
  let deflated ← afterHeader? bytes
  let (output, left) ← Deflate.inflate (bitsOfBytes deflated)
  let output := output.toList
  let rest := deflated.drop (deflated.length - left.length / 8)
  if 8 ≤ rest.length && number (rest.take 4) = (crc output).toNat
      && number ((rest.drop 4).take 4) = output.length % UInt32.size then
    some (output, rest.drop 8)
  else none

def membersWithin : Nat → List UInt8 → Option (List UInt8)
  | 0, _ => none
  | fuel + 1, bytes => do
    let (output, rest) ← member? bytes
    if rest.isEmpty then some output else (output ++ ·) <$> membersWithin fuel rest

/-- What bytes in the gzip format stand for. There is at least one member. -/
def unpack? (bytes : List UInt8) : Option (List UInt8) := membersWithin (bytes.length + 1) bytes

end PublicIp.Coding.Gzip
