import PublicIp.Coding.PrefixCode

/-!
# Deflated bytes

Deflated bytes are a row of blocks of three kinds: bytes as they are, and symbols of a fixed code or
of one that the block brings with it. A symbol is a byte, the end of the block, or a length, and then
a distance follows it: so many bytes are the same as those that stand so far back. Before the first
byte there are zeros.
-/

namespace PublicIp.Coding.Deflate

/-- The shortest length, and the number of bits that are added to it, for each symbol from 257 on. -/
def lengths : Array (Nat × Nat) :=
  #[(3, 0), (4, 0), (5, 0), (6, 0), (7, 0), (8, 0), (9, 0), (10, 0), (11, 1), (13, 1), (15, 1), (17, 1),
    (19, 2), (23, 2), (27, 2), (31, 2), (35, 3), (43, 3), (51, 3), (59, 3), (67, 4), (83, 4), (99, 4),
    (115, 4), (131, 5), (163, 5), (195, 5), (227, 5), (258, 0)]

/-- The shortest distance, and the number of bits that are added to it, for each symbol. -/
def distances : Array (Nat × Nat) :=
  #[(1, 0), (2, 0), (3, 0), (4, 0), (5, 1), (7, 1), (9, 2), (13, 2), (17, 3), (25, 3), (33, 4), (49, 4),
    (65, 5), (97, 5), (129, 6), (193, 6), (257, 7), (385, 7), (513, 8), (769, 8), (1025, 9), (1537, 9),
    (2049, 10), (3073, 10), (4097, 11), (6145, 11), (8193, 12), (12289, 12), (16385, 13), (24577, 13)]

/-- A number from a table, with the bits that are added to it. -/
def readExtended (table : Array (Nat × Nat)) (symbol : Nat) : BitReader Nat :=
  match table[symbol]? with
  | some (least, bits) => (least + ·) <$> readBits bits
  | none => failure

/-- The byte that stands at a distance before the end. -/
def byteAt (output : ByteArray) (distance : Nat) : UInt8 :=
  if distance ≤ output.size then output[output.size - distance]?.getD 0 else 0

/-- Appends so many bytes, each the same as the one that stands at a distance before it. -/
def repeated (output : ByteArray) (distance : Nat) : Nat → ByteArray
  | 0 => output
  | n + 1 => repeated (output.push (byteAt output distance)) distance n

/-- Appends what symbols stand for, up to the end of the block. -/
def readSymbols (literals offsets : PrefixCode) : Nat → ByteArray → BitReader ByteArray
  | 0, _ => failure
  | fuel + 1, output => do
    let symbol ← literals.read
    if symbol < 256 then readSymbols literals offsets fuel (output.push (UInt8.ofNat symbol))
    else if symbol = 256 then return output
    else
      let length ← readExtended lengths (symbol - 257)
      let distance ← readExtended distances (← offsets.read)
      readSymbols literals offsets fuel (repeated output distance length)

/-- Appends what symbols stand for. Each has at least one bit. -/
def readCoded (literals offsets : PrefixCode) (output : ByteArray) : BitReader ByteArray := do
  readSymbols literals offsets (← get).length output

/-- The fixed code of bytes and lengths. -/
def fixedLiterals : PrefixCode :=
  .ofLengths (List.replicate 144 8 ++ List.replicate 112 9 ++ List.replicate 24 7
    ++ List.replicate 8 8)

/-- The fixed code of distances. -/
def fixedOffsets : PrefixCode := .ofLengths (List.replicate 32 5)

/-- The order in which a block tells the lengths of the words for lengths. -/
def lengthOrder : List Nat := [16, 17, 18, 0, 8, 7, 9, 6, 10, 5, 11, 4, 12, 3, 13, 2, 14, 1, 15]

/-- The length that a symbol stands for and how often it follows. A symbol from 16 on repeats the last
length or the length 0. -/
def readRun (last : Option Nat) : Nat → BitReader (Nat × Nat)
  | 16 =>
    match last with
    | some length => (fun times => (length, 3 + times)) <$> readBits 2
    | none => failure
  | 17 => (fun times => (0, 3 + times)) <$> readBits 3
  | 18 => (fun times => (0, 11 + times)) <$> readBits 7
  | length => return (length, 1)

/-- Reads lengths of words until there are as many as wanted, and puts the last one first. -/
def readLengths (code : PrefixCode) : Nat → List Nat → Nat → BitReader (List Nat)
  | _, done, 0 => return done
  | 0, _, _ => failure
  | fuel + 1, done, wanted => do
    let (length, times) ← readRun done.head? (← code.read)
    if times ≤ wanted then readLengths code fuel (List.replicate times length ++ done) (wanted - times)
    else failure

/-- So many numbers of three bits. -/
def readTriples : Nat → BitReader (List Nat)
  | 0 => return []
  | n + 1 => do
    let first ← readBits 3
    let rest ← readTriples n
    return first :: rest

def usable (code : PrefixCode) : BitReader PrefixCode :=
  if code.isUsable then return code else failure

/-- The codes that a block brings with it: of bytes and lengths, and of distances. -/
def readCodes : BitReader (PrefixCode × PrefixCode) := do
  let literals := 257 + (← readBits 5)
  let offsets := 1 + (← readBits 5)
  let told := lengthOrder.zip (← readTriples (4 + (← readBits 4)))
  if 286 < literals || 30 < offsets then failure
  let code ← usable (.ofLengths ((List.range 19).map fun symbol => (told.lookup symbol).getD 0))
  let all := (← readLengths code (literals + offsets) [] (literals + offsets)).reverse
  return (← usable (.ofLengths (all.take literals)), ← usable (.ofLengths (all.drop literals)))

/-- Appends a block of bytes as they are, whose number is written twice, the second time with all bits
turned round. -/
def readStored (output : ByteArray) : BitReader ByteArray := do
  align
  let size ← readBits 16
  let check ← readBits 16
  if size + check = 65535 then readBytes size output else failure

def readBlock (output : ByteArray) : BitReader ByteArray := do
  match ← readBits 2 with
  | 0 => readStored output
  | 1 => readCoded fixedLiterals fixedOffsets output
  | 2 =>
    let (literals, offsets) ← readCodes
    readCoded literals offsets output
  | _ => failure

/-- Appends blocks up to the last one, before which the bit is set. -/
def readBlocks : Nat → ByteArray → BitReader ByteArray
  | 0, _ => failure
  | fuel + 1, output => do
    let isLast ← readBit
    let output ← readBlock output
    if isLast then return output else readBlocks fuel output

/-- Reads deflated bytes, and leaves out what is left of the last byte. -/
def inflate : BitReader ByteArray := do
  let output ← readBlocks (← get).length ByteArray.empty
  align
  return output

end PublicIp.Coding.Deflate
