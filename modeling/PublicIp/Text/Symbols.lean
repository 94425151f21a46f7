/-!
# Bytes as text

Bytes are read as a list of symbols: characters, and `none` for each byte that is no part of one.
Nothing is lost where the bytes are a text, which is `symbolsOfBytes_toUTF8`.
-/

namespace PublicIp.Text

/-- A character, or a byte that is no part of one. -/
abbrev Symbol := Option Char

/-- The symbols from a position on: the characters that start there, or the one byte. -/
def symbolsFrom (bytes : ByteArray) : Nat → Nat → List Symbol
  | 0, _ => []
  | fuel + 1, position =>
    if position < bytes.size then
      match bytes.utf8DecodeChar? position with
      | some c => some c :: symbolsFrom bytes fuel (position + c.utf8Size)
      | none => none :: symbolsFrom bytes fuel (position + 1)
    else []

def symbolsOfBytes (bytes : ByteArray) : List Symbol := symbolsFrom bytes bytes.size 0

def symbolsOfString (s : String) : List Symbol := s.toList.map some

theorem symbolsFrom_utf8Encode (before : ByteArray) (chars : List Char) (fuel : Nat)
    (enough : chars.length ≤ fuel) :
    symbolsFrom (before ++ chars.utf8Encode) fuel before.size = chars.map some := by
  induction chars generalizing before fuel with
  | nil => cases fuel <;> simp [symbolsFrom]
  | cons c rest ih =>
    obtain ⟨fuel, rfl⟩ : ∃ n, fuel = n + 1 := ⟨fuel - 1, by simp at enough; omega⟩
    have decoded : (before ++ (c :: rest).utf8Encode).utf8DecodeChar? before.size = some c := by
      rw [ByteArray.utf8DecodeChar?_eq_utf8DecodeChar?_extract,
        ByteArray.extract_append_eq_right (by simp) (by simp), List.utf8Encode_cons,
        List.utf8Encode_singleton]
      exact ByteArray.utf8DecodeChar?_utf8EncodeChar_append
    have inside : before.size < (before ++ (c :: rest).utf8Encode).size := by
      have := c.utf8Size_pos
      rw [ByteArray.size_append, List.utf8Encode_cons, ByteArray.size_append,
        List.utf8Encode_singleton]
      simp
      omega
    have later := ih (before ++ [c].utf8Encode) fuel (by simpa using enough)
    rw [symbolsFrom, if_pos inside, decoded]
    simp only [List.map_cons, List.cons.injEq, true_and]
    rw [← later, List.utf8Encode_cons, ByteArray.append_assoc, ByteArray.size_append]
    congr 1
    simp [List.utf8Encode_singleton]

theorem length_le_size_utf8Encode (chars : List Char) : chars.length ≤ chars.utf8Encode.size := by
  induction chars with
  | nil => simp
  | cons c rest ih =>
    have := c.utf8Size_pos
    rw [List.utf8Encode_cons, ByteArray.size_append, List.utf8Encode_singleton]
    simp
    omega

theorem symbolsOfBytes_toUTF8 (s : String) : symbolsOfBytes s.toUTF8 = symbolsOfString s := by
  have bytes : s.toUTF8 = s.toList.utf8Encode := String.utf8Encode_toList.symm
  have symbols := symbolsFrom_utf8Encode ByteArray.empty s.toList s.toUTF8.size
    (bytes ▸ length_le_size_utf8Encode s.toList)
  rw [ByteArray.empty_append, ← bytes] at symbols
  exact symbols

/-- The text in which a question mark stands for each byte that is no part of a character. -/
def mended (bytes : ByteArray) : String :=
  String.ofList ((symbolsOfBytes bytes).map (·.getD '?'))

end PublicIp.Text
