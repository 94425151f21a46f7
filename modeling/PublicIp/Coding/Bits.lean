/-!
# Reading bits

Bytes as a stream of bits, the lowest bit of each byte first, and numbers of a few bits in it, which
have their lowest bit first too.
-/

namespace PublicIp.Coding

abbrev Bits := List Bool

def bitsOfBytes (bytes : List UInt8) : Bits :=
  bytes.flatMap fun byte => (List.range 8).map byte.toNat.testBit

theorem length_bitsOfBytes (bytes : List UInt8) : (bitsOfBytes bytes).length = 8 * bytes.length := by
  induction bytes with
  | nil => rfl
  | cons byte rest ih =>
    simp only [bitsOfBytes, List.flatMap_cons, List.length_append, List.length_map,
      List.length_range, List.length_cons] at ih ⊢
    omega

/-- A reader of bits, which fails where they end. -/
abbrev BitReader := StateT Bits Option

def readBit : BitReader Bool
  | [] => none
  | bit :: rest => some (bit, rest)

/-- A number of so many bits. -/
def readBits : Nat → BitReader Nat
  | 0 => return 0
  | n + 1 => do
    let low ← readBit
    let high ← readBits n
    return low.toNat + 2 * high

/-- Leaves out what is left of a byte. -/
def align : BitReader Unit := modify fun bits => bits.drop (bits.length % 8)

/-- Appends so many bytes. -/
def readBytes : Nat → ByteArray → BitReader ByteArray
  | 0, output => return output
  | n + 1, output => do
    let byte ← readBits 8
    readBytes n (output.push (UInt8.ofNat byte))

end PublicIp.Coding
