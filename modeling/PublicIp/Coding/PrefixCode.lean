import PublicIp.Coding.Bits

/-!
# Prefix codes

A prefix code gives each symbol a word of bits so that no word is the start of another. Here a code is
told by the lengths of the words alone: the words of one length are consecutive numbers in the order
of their symbols, and the first one follows from the shorter words.
-/

namespace PublicIp.Coding

/-- The most bits of a word. -/
def maxWordLength : Nat := 15

structure PrefixCode where
  /-- How many words there are of each length, from one bit on. -/
  counts : List Nat
  /-- The symbols in the order of their words. -/
  symbols : Array Nat

namespace PrefixCode

/-- The code in which the word of each symbol has the length at its place. The length 0 stands for a
symbol without a word. -/
def ofLengths (lengths : List Nat) : PrefixCode where
  counts := (List.range maxWordLength).map fun n => lengths.count (n + 1)
  symbols :=
    ((List.range maxWordLength).flatMap fun n =>
      (lengths.zipIdx.filter fun (length, _) => length = n + 1).map (·.2)).toArray

/-- How many of the longest words the words stand for, each for all those that start with it. -/
def share : List Nat → Nat
  | [] => 0
  | count :: longer => count * Nat.pow 2 longer.length + share longer

/-- Whether every text of bits starts with a word. -/
def isComplete (code : PrefixCode) : Bool := share code.counts = Nat.pow 2 code.counts.length

/-- Whether a block may use a code. One without words and one whose only word is a single bit need not
be complete. -/
def isUsable (code : PrefixCode) : Bool :=
  code.isComplete || code.symbols.isEmpty || code.symbols.size = 1 && code.counts.head? = some 1

/-- Reads the rest of a word, where `offset` is the number of words that come before it among those
that may still be met, and `before` is the number of shorter words. -/
def readFrom (symbols : Array Nat) : List Nat → Nat → Nat → BitReader Nat
  | [], _, _ => failure
  | count :: longer, offset, before => do
    let bit ← readBit
    let offset := 2 * offset + bit.toNat
    if offset < count then
      match symbols[before + offset]? with
      | some symbol => return symbol
      | none => failure
    else readFrom symbols longer (offset - count) (before + count)

/-- The symbol whose word comes first. -/
def read (code : PrefixCode) : BitReader Nat := readFrom code.symbols code.counts 0 0

end PrefixCode

end PublicIp.Coding
