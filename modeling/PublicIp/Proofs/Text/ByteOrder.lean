/-!
# The order of bytes

Texts stand in the same order as their bytes. Character by character the bytes of the lesser one are
less, whatever follows (`utf8EncodeChar_append_lt`): fewer bytes come with a lesser first byte, and
among as many bytes the first difference decides.
-/

namespace PublicIp.Text

def utf8 (s : String) : List UInt8 := s.toUTF8.data.toList

theorem utf8_eq (s : String) : utf8 s = s.toList.flatMap String.utf8EncodeChar := by
  rw [utf8, String.toUTF8_eq_toByteArray, ← String.utf8Encode_toList, List.utf8Encode,
    List.toList_data_toByteArray]

section Bytes

variable {m n : Nat} {a b : List UInt8}

theorem cons_lt_cons_of_lt (bound : n < 256) (below : m < n) :
    UInt8.ofNat m :: a < UInt8.ofNat n :: b := by
  refine List.cons_lt_cons_iff.2 (.inl ?_)
  rw [UInt8.lt_iff_toNat_lt, UInt8.toNat_ofNat_of_lt' (Nat.lt_trans below bound),
    UInt8.toNat_ofNat_of_lt' bound]
  exact below

theorem cons_lt_cons_of_le (bound : n < 256) (le : m ≤ n) (later : m = n → a < b) :
    UInt8.ofNat m :: a < UInt8.ofNat n :: b := by
  rcases Nat.lt_or_eq_of_le le with below | same
  · exact cons_lt_cons_of_lt bound below
  · exact List.cons_lt_cons_iff.2 (.inr ⟨congrArg _ same, later same⟩)

end Bytes

/-- The bytes of a code point in front of others. -/
inductive Spelled (v : Nat) (rest : List UInt8) : List UInt8 → Prop
  | one (le : v ≤ 127) : Spelled v rest (.ofNat v :: rest)
  | two (above : 127 < v) (le : v ≤ 2047) :
      Spelled v rest (.ofNat (v / 64 + 192) :: .ofNat (v % 64 + 128) :: rest)
  | three (above : 2047 < v) (le : v ≤ 65535) :
      Spelled v rest
        (.ofNat (v / 4096 + 224) :: .ofNat (v / 64 % 64 + 128) :: .ofNat (v % 64 + 128) :: rest)
  | four (above : 65535 < v) (le : v ≤ 1114111) :
      Spelled v rest
        (.ofNat (v / 262144 + 240) :: .ofNat (v / 4096 % 64 + 128) :: .ofNat (v / 64 % 64 + 128) ::
          .ofNat (v % 64 + 128) :: rest)

theorem spelled (c : Char) (rest : List UInt8) :
    Spelled c.val.toNat rest (String.utf8EncodeChar c ++ rest) := by
  have bound : c.val.toNat ≤ 1114111 := by
    have valid := c.valid
    unfold UInt32.isValidChar Nat.isValidChar at valid
    omega
  unfold String.utf8EncodeChar
  simp only
  split
  · next le => exact .one le
  split
  · next above le =>
    rw [Nat.mod_eq_of_lt (by omega)]
    exact .two (by omega) le
  split
  · next above le =>
    rw [Nat.mod_eq_of_lt (a := c.val.toNat / 4096) (by omega)]
    exact .three (by omega) le
  · next above =>
    rw [Nat.mod_eq_of_lt (a := c.val.toNat / 262144) (by omega)]
    exact .four (by omega) bound

/-- The bytes of a lesser character are less, whatever follows. -/
theorem utf8EncodeChar_append_lt {c d : Char} (less : c < d) (a b : List UInt8) :
    String.utf8EncodeChar c ++ a < String.utf8EncodeChar d ++ b := by
  have less : c.val.toNat < d.val.toNat := less
  have first := spelled c a
  have second := spelled d b
  revert less first second
  generalize c.val.toNat = m
  generalize d.val.toNat = n
  generalize String.utf8EncodeChar c ++ a = x
  generalize String.utf8EncodeChar d ++ b = y
  intro less first second
  cases first with
  | one =>
    cases second with
    | one => exact cons_lt_cons_of_lt (by omega) less
    | two => exact cons_lt_cons_of_lt (by omega) (by omega)
    | three => exact cons_lt_cons_of_lt (by omega) (by omega)
    | four => exact cons_lt_cons_of_lt (by omega) (by omega)
  | two =>
    cases second with
    | one => omega
    | two =>
      refine cons_lt_cons_of_le (by omega) (by omega) fun _ => ?_
      exact cons_lt_cons_of_lt (by omega) (by omega)
    | three => exact cons_lt_cons_of_lt (by omega) (by omega)
    | four => exact cons_lt_cons_of_lt (by omega) (by omega)
  | three =>
    cases second with
    | one => omega
    | two => omega
    | three =>
      refine cons_lt_cons_of_le (by omega) (by omega) fun _ => ?_
      refine cons_lt_cons_of_le (by omega) (by omega) fun _ => ?_
      exact cons_lt_cons_of_lt (by omega) (by omega)
    | four => exact cons_lt_cons_of_lt (by omega) (by omega)
  | four =>
    cases second with
    | one => omega
    | two => omega
    | three => omega
    | four =>
      refine cons_lt_cons_of_le (by omega) (by omega) fun _ => ?_
      refine cons_lt_cons_of_le (by omega) (by omega) fun _ => ?_
      refine cons_lt_cons_of_le (by omega) (by omega) fun _ => ?_
      exact cons_lt_cons_of_lt (by omega) (by omega)

theorem flatMap_utf8EncodeChar_lt {a b : List Char} (less : a < b) :
    a.flatMap String.utf8EncodeChar < b.flatMap String.utf8EncodeChar := by
  induction a generalizing b with
  | nil =>
    cases b with
    | nil => exact absurd less (List.not_lt_nil _)
    | cons d b =>
      obtain ⟨byte, bytes, spelled⟩ :=
        List.exists_cons_of_ne_nil (String.utf8EncodeChar_ne_nil (c := d))
      rw [List.flatMap_cons, spelled]
      exact List.nil_lt_cons _ _
  | cons c a ih =>
    cases b with
    | nil => exact absurd less (List.not_lt_nil _)
    | cons d b =>
      rw [List.flatMap_cons, List.flatMap_cons]
      rcases List.cons_lt_cons_iff.1 less with first | ⟨rfl, later⟩
      · exact utf8EncodeChar_append_lt first _ _
      · exact List.append_left_lt (ih later)

/-- Texts are in the order of their bytes. -/
theorem utf8_lt_iff (s t : String) : utf8 s < utf8 t ↔ s < t := by
  have increases {s t : String} (less : s < t) : utf8 s < utf8 t := by
    rw [utf8_eq, utf8_eq]
    exact flatMap_utf8EncodeChar_lt less
  refine ⟨fun less => ?_, increases⟩
  by_cases above : t < s
  · exact absurd less (List.lt_asymm (increases above))
  · refine Decidable.byContradiction fun below => ?_
    obtain rfl : s = t := String.le_antisymm (String.not_lt.1 above) (String.not_lt.1 below)
    exact List.lt_irrefl _ less

end PublicIp.Text
