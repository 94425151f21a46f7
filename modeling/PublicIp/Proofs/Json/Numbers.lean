import PublicIp.Proofs.Json.Spelling

/-!
# Reading back numbers

Every number is told from its spelling (`Numeral.legible`), and what is written is a spelling of that
kind (`Number.legible`). The number itself comes back where it is whole (`Number.Integral`). A double
need not come back, since it is read with a rounding at each step: the spelling of `9007199254740991e0`
is `9007199254740991.0`, which reads as `9007199254740990.0`.
-/

namespace PublicIp.Json

open Text (Symbol)

/-- Whether a run of digits ends before some symbols. -/
def EndsDigits : List Symbol → Prop
  | some c :: _ => c.isDigit = false
  | _ => True

theorem EndsNumber.endsDigits {rest : List Symbol} (ends : EndsNumber rest) : EndsDigits rest := by
  match rest with
  | [] | none :: _ => trivial
  | some _ :: _ => exact ends.1

theorem digits_append {run : List Char} (digit : ∀ c ∈ run, c.isDigit = true) {rest : List Symbol}
    (ends : EndsDigits rest) : digits (run.map some ++ rest) = (run, rest) := by
  induction run with
  | nil =>
    match rest with
    | [] | none :: _ => simp [digits]
    | some c :: _ =>
      have other : c.isDigit = false := ends
      simp [digits, other]
  | cons c run ih =>
    have first := digit c List.mem_cons_self
    have others := ih fun d mem => digit d (List.mem_cons_of_mem _ mem)
    simp [digits, first, others]

theorem isDigit_of_mem_toDigits {n : Nat} {c : Char} (mem : c ∈ Nat.toDigits 10 n) :
    c.isDigit = true :=
  Nat.isDigit_of_mem_toDigits (by decide) (by decide) mem

/-- The decimal digits of a number do not start with zero, unless there is only one. -/
theorem toDigits_ne_zero_cons (n : Nat) (c : Char) (rest : List Char) :
    Nat.toDigits 10 n ≠ '0' :: c :: rest := by
  induction n using Nat.strongRecOn generalizing c rest with
  | ind n ih =>
    by_cases small : n < 10
    · rw [Nat.toDigits_of_lt_base small]
      simp
    · rw [Nat.toDigits_of_base_le (by decide) (by omega)]
      intro same
      match front : Nat.toDigits 10 (n / 10) with
      | [] => exact Nat.toDigits_ne_nil front
      | [d] =>
        rw [front, List.cons_append, List.cons.injEq] at same
        have zero : Nat.ofDigitChars 10 ['0'] 0 = n / 10 := by
          rw [← same.1, ← front, Nat.ofDigitChars_ten_toDigits]
        have none : Nat.ofDigitChars 10 ['0'] 0 = 0 := by decide
        omega
      | d :: e :: more =>
        rw [front, List.cons_append, List.cons.injEq] at same
        exact ih (n / 10) (by omega) e more (same.1 ▸ front)

namespace Numeral

def fractionText (n : Numeral) : List Char := if n.fraction = [] then [] else '.' :: n.fraction

def exponentText (n : Numeral) : List Char :=
  match n.exponent with
  | none => []
  | some e => 'e' :: (if e < 0 then '-' else '+') :: Nat.toDigits 10 e.natAbs

theorem text_eq (n : Numeral) :
    n.text = (if n.negative then ['-'] else []) ++
      (Nat.toDigits 10 n.whole ++ (n.fractionText ++ n.exponentText)) := by
  have parts : n.text = (if n.negative then ['-'] else []) ++ Nat.toDigits 10 n.whole ++
      n.fractionText ++ n.exponentText := rfl
  rw [parts, List.append_assoc, List.append_assoc]

variable {n : Numeral} {rest : List Symbol}

theorem ends_exponentText (ends : EndsNumber rest) :
    EndsDigits (n.exponentText.map some ++ rest) := by
  unfold exponentText
  split
  · exact ends.endsDigits
  · exact rfl

theorem ends_fractionText (ends : EndsNumber rest) :
    EndsDigits (n.fractionText.map some ++ (n.exponentText.map some ++ rest)) := by
  unfold fractionText
  split
  · exact ends_exponentText ends
  · exact rfl

theorem exponentPart_append (ends : EndsNumber rest) :
    exponentPart (n.exponentText.map some ++ rest) = some (n.exponent, rest) := by
  unfold exponentText
  split
  · next absent =>
    match rest with
    | [] | none :: _ => simp [exponentPart, absent]
    | some c :: _ =>
      obtain ⟨-, -, lower, upper⟩ := ends
      simp [exponentPart, absent, lower, upper]
  · next e given =>
    have places := digits_append (fun c => isDigit_of_mem_toDigits (n := e.natAbs) (c := c))
      ends.endsDigits
    obtain ⟨c, more, digits⟩ := List.exists_cons_of_ne_nil
      (Nat.toDigits_ne_nil (n := e.natAbs) (b := 10))
    have size : Nat.ofDigitChars 10 (c :: more) 0 = e.natAbs := by
      rw [← digits, Nat.ofDigitChars_ten_toDigits]
    rw [digits] at places ⊢
    rw [List.map_cons, List.cons_append] at places
    generalize own : e.natAbs = m at size
    by_cases negative : e < 0
    · have value : -(m : Int) = e := by omega
      simp [exponentPart, negative, places, size, value, given]
    · have value : (m : Int) = e := by omega
      simp [exponentPart, negative, places, size, value, given]

theorem fractionPart_append (digit : ∀ c ∈ n.fraction, c.isDigit = true) (ends : EndsNumber rest) :
    fractionPart (n.fractionText.map some ++ (n.exponentText.map some ++ rest)) =
      some (n.fraction, n.exponentText.map some ++ rest) := by
  unfold fractionText
  split
  · next empty =>
    have unpointed : ∀ tail, n.exponentText.map some ++ rest ≠ some '.' :: tail := by
      intro tail same
      unfold exponentText at same
      split at same
      · rw [List.map_nil, List.nil_append] at same
        subst same
        exact ends.2.1 rfl
      · simp at same
    rw [empty, List.map_nil, List.nil_append, fractionPart.eq_def]
    split
    · next tail same => exact absurd same (unpointed tail)
    · rfl
  · next given =>
    obtain ⟨c, more, run⟩ := List.exists_cons_of_ne_nil given
    have places := digits_append digit (ends_exponentText (n := n) ends)
    rw [run] at places ⊢
    simp only [List.map_cons, List.cons_append] at places
    simp only [List.map_cons, List.cons_append, fractionPart, places]

/-- A number after its sign is told from its spelling. -/
theorem numeral?_append (digit : ∀ c ∈ n.fraction, c.isDigit = true) (ends : EndsNumber rest) :
    numeral? n.negative ((Nat.toDigits 10 n.whole ++ (n.fractionText ++ n.exponentText)).map some
      ++ rest) = some (n, rest) := by
  have whole := digits_append (fun c => isDigit_of_mem_toDigits (n := n.whole) (c := c))
    (ends_fractionText (n := n) ends)
  simp only [List.map_append, List.append_assoc]
  unfold numeral?
  rw [whole]
  split
  · next empty => exact absurd (Prod.mk.inj empty).1 Nat.toDigits_ne_nil
  · next zero => exact absurd (Prod.mk.inj zero).1 (toDigits_ne_zero_cons _ _ _)
  · next found =>
    obtain ⟨rfl, rfl⟩ := Prod.mk.inj found
    simp [fractionPart_append digit ends, exponentPart_append ends, Nat.ofDigitChars_ten_toDigits]

theorem firstToken_digit {c : Char} (digit : c.isDigit = true) (rest : List Symbol) :
    firstToken (some c :: rest) =
      match numeral? false (some c :: rest) with
      | some (numeral, rest) => (.number numeral, rest)
      | none => (.junk, []) := by
  have other {d : Char} (unlike : d.isDigit = false) : c ≠ d := by
    rintro rfl
    rw [digit] at unlike
    exact absurd unlike (by decide)
  rw [firstToken.eq_def]
  split <;> rename_i same <;> first
    | rfl
    | exact absurd (Option.some.inj (List.cons.inj same).1) (other (by decide))

theorem legible (digit : ∀ c ∈ n.fraction, c.isDigit = true) : (Token.number n).Legible := by
  intro rest ends
  have read := numeral?_append digit ends
  rw [Token.text, text_eq]
  cases sign : n.negative with
  | true =>
    rw [sign] at read
    simp only [if_true, List.cons_append, List.nil_append, List.map_cons, firstToken, read]
  | false =>
    rw [sign] at read
    obtain ⟨c, more, whole⟩ := List.exists_cons_of_ne_nil
      (Nat.toDigits_ne_nil (n := n.whole) (b := 10))
    have first : c.isDigit = true := isDigit_of_mem_toDigits (n := n.whole) (by simp [whole])
    simp only [whole, List.cons_append, List.map_cons] at read
    simp only [Bool.false_eq_true, if_false, List.nil_append, whole, List.cons_append,
      List.map_cons, firstToken_digit first, read]

end Numeral

theorem Double.isDigit_of_mem_fraction (negative : Bool) (x : Double) :
    ∀ c ∈ (x.numeral negative).fraction, c.isDigit = true := by
  intro c mem
  have zero : '0'.isDigit = true := by decide
  unfold numeral at mem
  dsimp only at mem
  split at mem
  · rw [List.mem_singleton.1 mem, zero]
  · split at mem
    · exact isDigit_of_mem_toDigits (List.mem_of_mem_drop mem)
    · split at mem
      · rcases List.mem_append.1 mem with leading | later
        · rw [(List.mem_replicate.1 leading).2, zero]
        · exact isDigit_of_mem_toDigits later
      · exact isDigit_of_mem_toDigits (List.mem_of_mem_drop mem)

namespace Number

theorem legible (n : Number) : (Token.number n.numeral).Legible := by
  cases n with
  | natural n => exact Numeral.legible fun c mem => absurd mem List.not_mem_nil
  | negative n => exact Numeral.legible fun c mem => absurd mem List.not_mem_nil
  | double sign magnitude => exact Numeral.legible (magnitude.isDigit_of_mem_fraction sign)

/-- Whether a number is kept as a whole number, or is the double that `-0` is kept as. -/
def Integral : Number → Prop
  | .natural _ | .negative _ => True
  | .double _ magnitude => magnitude = .zero

instance (n : Number) : Decidable n.Integral := by
  cases n <;> unfold Integral <;> infer_instance

theorem number?_zero (sign : Bool) :
    (Double.zero.numeral sign).number? = some (.double sign .zero) := by
  have written : Double.zero.numeral sign = ⟨sign, 0, ['0'], none⟩ := by
    cases sign <;> decide
  have round : Double.round 0 1 = some .zero := by
    simp [Double.round, Double.roundQuotient, Double.zero, Double.hidden, Double.maxExponent]
  have scaled : Double.scaled 0 (-1) = some .zero := by
    simp [Double.scaled, round, Double.shrink, Double.zero]
  have fits : Numeral.fitting 0 = (0, 0) := by
    rw [Numeral.fitting]
    decide
  rw [written]
  simp [Numeral.number?, Numeral.magnitude?, fits, Numeral.append, scaled]

/-- A whole number that was read fits in 64 bits. -/
theorem bound_of_number? {numeral : Numeral} {n : Number} (read : numeral.number? = some n) :
    match n with
    | .natural n => n < UInt64.size
    | .negative n => 0 < n ∧ n ≤ UInt64.size / 2
    | .double _ _ => True := by
  have double {sign : Bool} (scaled : numeral.magnitude?.map (.double sign) = some n) :
      ∃ magnitude, n = .double sign magnitude := by
    obtain ⟨magnitude, -, rfl⟩ := Option.map_eq_some_iff.1 scaled
    exact ⟨magnitude, rfl⟩
  unfold Numeral.number? at read
  split at read
  · split at read
    · split at read
      · next bound =>
        obtain rfl := Option.some.inj read
        exact bound
      · obtain ⟨_, rfl⟩ := double read
        trivial
    · split at read
      · next bound =>
        obtain rfl := Option.some.inj read
        exact bound
      · obtain ⟨_, rfl⟩ := double read
        trivial
  · obtain ⟨_, rfl⟩ := double read
    trivial

/-- A whole number that was read is read again from what it is written as. -/
theorem number?_numeral {numeral : Numeral} {n : Number} (read : numeral.number? = some n)
    (integral : n.Integral) : n.numeral.number? = some n := by
  have bound := bound_of_number? read
  cases n with
  | natural n =>
    dsimp only at bound
    simp [Number.numeral, Numeral.number?, bound]
  | negative n =>
    dsimp only at bound
    simp [Number.numeral, Numeral.number?, bound]
  | double sign magnitude =>
    obtain rfl : magnitude = .zero := integral
    exact number?_zero sign

end Number

end PublicIp.Json
