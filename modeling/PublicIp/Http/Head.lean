import PublicIp.Http.Basic
import PublicIp.Text.Whole

/-!
# Heads of replies

The head of a reply is a line with the status, lines with header fields and an empty line.
`Response.Head.read?` reads one from bytes and leaves what follows it, which is less than there was.
-/

namespace PublicIp.Http

/-- Each byte as the character with its code. -/
def charsOfBytes (bytes : List UInt8) : List Char := bytes.map fun byte => Char.ofNat byte.toNat

/-- A line without a carriage return at its end. -/
def withoutReturn (line : List Char) : List Char :=
  if line.getLast? = some '\r' then line.dropLast else line

/-- The first line and what follows it. A line feed ends it, perhaps after a carriage return. -/
def line? (bytes : List UInt8) : Option (List Char × List UInt8) :=
  match bytes.dropWhile (· ≠ 10) with
  | [] => none
  | _ :: rest => some (withoutReturn (charsOfBytes (bytes.takeWhile (· ≠ 10))), rest)

theorem line?_length {bytes rest : List UInt8} {line : List Char}
    (h : line? bytes = some (line, rest)) : rest.length < bytes.length := by
  have bound := (List.dropWhile_suffix (l := bytes) (· ≠ 10)).length_le
  unfold line? at h
  split at h
  · simp at h
  · rename_i found
    simp only [Option.some.injEq, Prod.mk.injEq] at h
    rw [found, h.2] at bound
    exact bound

/-- What follows empty lines at the start. -/
def afterEmptyLines : List UInt8 → List UInt8
  | 13 :: 10 :: rest => afterEmptyLines rest
  | 10 :: rest => afterEmptyLines rest
  | bytes => bytes

theorem afterEmptyLines_length (bytes : List UInt8) :
    (afterEmptyLines bytes).length ≤ bytes.length := by
  fun_induction afterEmptyLines bytes with
  | case1 rest ih => simp only [List.length_cons]; omega
  | case2 rest ih => simp only [List.length_cons]; omega
  | case3 => exact Nat.le_refl _

/-- A header field from its line: a name, a colon right after it, and a value. -/
def HeaderField.ofLine? (line : List Char) : Option HeaderField :=
  match line.takeWhile isTokenChar, line.dropWhile isTokenChar with
  | c :: name, ':' :: value =>
    if value.all isFieldChar then some (String.ofList (c :: name), received (String.ofList value))
    else none
  | _, _ => none

/-- Header fields up to an empty line, and what follows that line. -/
def fields? (bytes : List UInt8) : Option (List HeaderField × List UInt8) :=
  match _ : line? bytes with
  | none => none
  | some ([], rest) => some ([], rest)
  | some (line, rest) =>
    (HeaderField.ofLine? line).bind fun field =>
      (fields? rest).map fun (fields, rest) => (field :: fields, rest)
termination_by bytes.length
decreasing_by exact line?_length ‹_›

theorem fields?_length {bytes rest : List UInt8} {fields : List HeaderField}
    (h : fields? bytes = some (fields, rest)) : rest.length < bytes.length := by
  fun_induction fields? bytes generalizing fields rest with
  | case1 => simp at h
  | case2 bytes more found =>
    simp only [Option.some.injEq, Prod.mk.injEq] at h
    exact h.2 ▸ line?_length found
  | case3 bytes line more _ found ih =>
    simp only [Option.bind_eq_some_iff, Option.map_eq_some_iff, Prod.mk.injEq] at h
    obtain ⟨field, -, ⟨later, after⟩, read, -, rfl⟩ := h
    exact Nat.lt_trans (ih read) (line?_length found)

structure Response.Head where
  /-- Whether the version of the reply knows chunks. -/
  knowsChunks : Bool
  status : Nat
  fields : List HeaderField

namespace Response.Head

/-- Whether the version knows chunks, and the status, from the first line. -/
def statusLine? (line : List Char) : Option (Bool × Nat) :=
  match "HTTP/1.".toList.isPrefixOf line, line.drop 7 with
  | true, minor :: ' ' :: a :: b :: c :: reason =>
    let isReason := reason.isEmpty || (reason.head? = some ' ' && reason.all isFieldChar)
    if (minor = '0' || minor = '1') && isReason then
      ((Text.natural? 10 [a, b, c]).filter isStatus).map fun status => (minor = '1', status)
    else none
  | _, _ => none

/-- The most header fields of a reply. -/
def maxFields : Nat := 128

/-- The most bytes of a head. -/
def maxSize : Nat := 65536

/-- The head at the start of some bytes, and what follows it. -/
def read? (bytes : List UInt8) : Option (Head × List UInt8) :=
  (line? (afterEmptyLines bytes)).bind fun (first, rest) =>
    (statusLine? first).bind fun (knowsChunks, status) =>
      (fields? rest).bind fun (fields, rest) =>
        if fields.length ≤ maxFields ∧ bytes.length - rest.length ≤ maxSize then
          some (⟨knowsChunks, status, fields⟩, rest)
        else none

theorem read?_length {bytes rest : List UInt8} {head : Head} (h : read? bytes = some (head, rest)) :
    rest.length < bytes.length := by
  simp only [read?, Option.bind_eq_some_iff, Option.ite_none_right_eq_some, Option.some.injEq,
    Prod.mk.injEq] at h
  obtain ⟨⟨first, later⟩, readLine, _, _, ⟨fields, after⟩, readFields, _, _, rfl⟩ := h
  exact Nat.lt_of_lt_of_le (Nat.lt_trans (fields?_length readFields) (line?_length readLine))
    (afterEmptyLines_length bytes)

/-- The values of the fields of a name, which is given in lower case. -/
def values (head : Head) (name : String) : List String :=
  (head.fields.filter fun (field, _) => lowerCase field = name).map (·.2)

/-- The value of the first field of a name, if it is visible. -/
def visible? (head : Head) (name : String) : Option String :=
  (head.values name).head?.filter isVisible

end Response.Head

/-- What commas separate in the value of a field. -/
def listItems (value : String) : List String := (value.splitOn ",").map received

end PublicIp.Http
