import PublicIp.Proofs.Json.Numbers

/-!
# White space

White space between tokens changes nothing (`tokens_spaced`). A token is told by the symbols that it
takes and, where it is a number, by the symbol that comes after it, so that it is told as well where a
blank comes after it instead (`firstToken_local`).
-/

namespace PublicIp.Json

open Text (Symbol)

variable {α : Type}

/-- Whether other symbols begin like some symbols, or with a blank. -/
def BeginsAlike (rest other : List Symbol) : Prop :=
  other.head? = rest.head? ∨ ∃ symbol more, other = symbol :: more ∧ isBlank symbol = true

namespace BeginsAlike

variable {rest other : List Symbol}

theorem append (taken : List Symbol) (alike : BeginsAlike rest other) :
    BeginsAlike (taken ++ rest) (taken ++ other) := by
  cases taken with
  | nil => exact alike
  | cons symbol taken => exact .inl rfl

/-- Where a symbol does not come first, it does not come first in what begins alike, unless it is a
blank. -/
theorem head?_ne (alike : BeginsAlike rest other) {symbol : Symbol} (dark : isBlank symbol = false)
    (apart : rest.head? ≠ some symbol) : other.head? ≠ some symbol := by
  obtain same | ⟨blank, more, rfl, light⟩ := alike
  · exact same ▸ apart
  · rintro ⟨⟩
    rw [dark] at light
    cases light

theorem endsDigits (alike : BeginsAlike rest other) (ends : EndsDigits rest) : EndsDigits other := by
  obtain same | ⟨blank, more, rfl, light⟩ := alike
  · match rest, other with
    | _, [] | _, none :: _ => trivial
    | some c :: _, some d :: _ =>
      obtain rfl : d = c := by simpa using same
      exact ends
    | [], some d :: _ | none :: _, some d :: _ => simp at same
  · simp only [isBlank, decide_eq_true_eq] at light
    rcases light with rfl | rfl | rfl | rfl <;> rfl

end BeginsAlike

/-- Whether a reader depends on no more of what it leaves than on how that begins. -/
def ReadsLocally (read : List Symbol → Option (α × List Symbol)) : Prop :=
  ∀ symbols value rest, read symbols = some (value, rest) →
    ∃ taken, symbols = taken ++ rest ∧
      ∀ other, BeginsAlike rest other → read (taken ++ other) = some (value, other)

namespace ReadsLocally

variable {β : Type} {read : List Symbol → Option (α × List Symbol)}

theorem pure (value : α) : ReadsLocally fun symbols => some (value, symbols) := by
  rintro symbols _ _ ⟨⟩
  exact ⟨[], rfl, fun _ _ => rfl⟩

theorem bind (reads : ReadsLocally read) {next : α → List Symbol → Option (β × List Symbol)}
    (later : ∀ value, ReadsLocally (next value)) :
    ReadsLocally fun symbols => (read symbols).bind fun found => next found.1 found.2 := by
  intro symbols result rest found
  obtain ⟨⟨value, middle⟩, first, second⟩ := Option.bind_eq_some_iff.1 found
  obtain ⟨before, rfl, again⟩ := reads symbols value middle first
  obtain ⟨after, rfl, onward⟩ := later value middle result rest second
  refine ⟨before ++ after, (List.append_assoc ..).symm, fun other alike => ?_⟩
  rw [List.append_assoc]
  exact Option.bind_eq_some_iff.2 ⟨_, again _ (alike.append after), onward other alike⟩

end ReadsLocally

theorem digits_eq {symbols rest : List Symbol} {run : List Char} (read : digits symbols = (run, rest)) :
    symbols = run.map some ++ rest ∧ (∀ c ∈ run, c.isDigit = true) ∧ EndsDigits rest := by
  fun_induction digits symbols generalizing run with
  | case1 c symbols digit more left found ih =>
    obtain ⟨rfl, rfl⟩ := Prod.mk.inj read
    obtain ⟨rfl, digits, ends⟩ := ih found
    exact ⟨rfl, by simpa [digit] using digits, ends⟩
  | case2 c symbols other =>
    obtain ⟨rfl, rfl⟩ := Prod.mk.inj read
    exact ⟨rfl, by simp, by simpa [EndsDigits] using other⟩
  | case3 symbols none =>
    obtain ⟨rfl, rfl⟩ := Prod.mk.inj read
    refine ⟨rfl, by simp, ?_⟩
    unfold EndsDigits
    split
    · exact absurd rfl (none _ _)
    · trivial

/-- The digits a text starts with, if there are any, and the rest. -/
def digits? (symbols : List Symbol) : Option (List Char × List Symbol) :=
  match digits symbols with
  | ([], _) => none
  | (run, rest) => some (run, rest)

theorem digits?_of_nil {symbols rest : List Symbol} (read : digits symbols = ([], rest)) :
    digits? symbols = none := by
  rw [digits?, read]

theorem digits?_of_ne {symbols rest : List Symbol} {run : List Char}
    (read : digits symbols = (run, rest)) (some : run ≠ []) : digits? symbols = .some (run, rest) := by
  rw [digits?, read]
  cases run with
  | nil => exact absurd rfl some
  | cons => rfl

theorem digits?_local : ReadsLocally digits? := by
  intro symbols run rest read
  match found : digits symbols with
  | ([], _) =>
    rw [digits?_of_nil found] at read
    cases read
  | (c :: more, left) =>
    rw [digits?_of_ne found (List.cons_ne_nil c more)] at read
    obtain ⟨rfl, rfl⟩ := Prod.mk.inj (Option.some.inj read)
    obtain ⟨split, digit, ends⟩ := digits_eq found
    refine ⟨_, split, fun other alike => ?_⟩
    exact digits?_of_ne (digits_append digit (alike.endsDigits ends)) (List.cons_ne_nil c more)

/-- Whether there is a minus before a power of ten, and what comes after the sign. -/
def sign : List Symbol → Bool × List Symbol
  | some '+' :: rest => (false, rest)
  | some '-' :: rest => (true, rest)
  | rest => (false, rest)

theorem sign_of_ne {symbols : List Symbol} (plus : symbols.head? ≠ some (some '+'))
    (minus : symbols.head? ≠ some (some '-')) : sign symbols = (false, symbols) := by
  unfold sign
  split
  · simp at plus
  · simp at minus
  · rfl

theorem sign_local : ReadsLocally fun symbols => some (sign symbols) := by
  intro symbols negative rest read
  by_cases plus : symbols.head? = some (some '+')
  · obtain ⟨after, rfl⟩ := List.head?_eq_some_iff.1 plus
    obtain ⟨rfl, rfl⟩ := Prod.mk.inj (Option.some.inj read)
    exact ⟨[some '+'], rfl, fun _ _ => rfl⟩
  by_cases minus : symbols.head? = some (some '-')
  · obtain ⟨after, rfl⟩ := List.head?_eq_some_iff.1 minus
    obtain ⟨rfl, rfl⟩ := Prod.mk.inj (Option.some.inj read)
    exact ⟨[some '-'], rfl, fun _ _ => rfl⟩
  · have none := sign_of_ne plus minus
    obtain ⟨rfl, rfl⟩ := Prod.mk.inj (none.symm.trans (Option.some.inj read))
    exact ⟨[], rfl, fun other alike =>
      congrArg some (sign_of_ne (alike.head?_ne rfl plus) (alike.head?_ne rfl minus))⟩

theorem fractionPart_of_ne {symbols : List Symbol} (unpointed : symbols.head? ≠ some (some '.')) :
    fractionPart symbols = some ([], symbols) := by
  unfold fractionPart
  split
  · simp at unpointed
  · rfl

theorem fractionPart_local : ReadsLocally fractionPart := by
  intro symbols value rest read
  by_cases pointed : symbols.head? = some (some '.')
  · obtain ⟨after, rfl⟩ := List.head?_eq_some_iff.1 pointed
    have same (after : List Symbol) : fractionPart (some '.' :: after) = digits? after := rfl
    obtain ⟨run, rfl, again⟩ := digits?_local after value rest read
    exact ⟨some '.' :: run, rfl, again⟩
  · rw [fractionPart_of_ne pointed] at read
    obtain ⟨rfl, rfl⟩ := Prod.mk.inj (Option.some.inj read)
    exact ⟨[], rfl, fun other alike => fractionPart_of_ne (alike.head?_ne rfl pointed)⟩

/-- The power of ten after its mark. -/
def exponent? (symbols : List Symbol) : Option (Option Int × List Symbol) :=
  (digits? (sign symbols).2).bind fun places =>
    let size : Int := Nat.ofDigitChars 10 places.1 0
    some (some (if (sign symbols).1 then -size else size), places.2)

theorem exponent?_local : ReadsLocally exponent? :=
  sign_local.bind fun negative => digits?_local.bind fun places =>
    let size : Int := Nat.ofDigitChars 10 places 0
    .pure (some (if negative then -size else size))

theorem exponentPart_of_mark {c : Char} (marked : c = 'e' ∨ c = 'E') (after : List Symbol) :
    exponentPart (some c :: after) = exponent? after := by
  have opened : exponentPart (some c :: after) =
      if c = 'e' ∨ c = 'E' then
        match digits (sign after).2 with
        | ([], _) => none
        | (places, rest) =>
          let size : Int := Nat.ofDigitChars 10 places 0
          some (some (if (sign after).1 then -size else size), rest)
      else some (none, some c :: after) := rfl
  rw [opened, if_pos marked, exponent?]
  match found : digits (sign after).2 with
  | ([], _) =>
    rw [digits?_of_nil found]
    rfl
  | (c :: more, rest) =>
    rw [digits?_of_ne found (List.cons_ne_nil c more)]
    rfl

theorem exponentPart_of_ne {symbols : List Symbol} (lower : symbols.head? ≠ some (some 'e'))
    (upper : symbols.head? ≠ some (some 'E')) : exponentPart symbols = some (none, symbols) := by
  unfold exponentPart
  split
  · next c after =>
    have unmarked : ¬ (c = 'e' ∨ c = 'E') := by simpa using And.intro lower upper
    rw [if_neg unmarked]
  · rfl

theorem exponentPart_local : ReadsLocally exponentPart := by
  intro symbols value rest read
  by_cases marked : symbols.head? = some (some 'e') ∨ symbols.head? = some (some 'E')
  · obtain ⟨c, mark, after, rfl⟩ : ∃ c, (c = 'e' ∨ c = 'E') ∧ ∃ after, symbols = some c :: after := by
      obtain lower | upper := marked
      · exact ⟨'e', .inl rfl, List.head?_eq_some_iff.1 lower⟩
      · exact ⟨'E', .inr rfl, List.head?_eq_some_iff.1 upper⟩
    rw [exponentPart_of_mark mark] at read
    obtain ⟨taken, rfl, again⟩ := exponent?_local after value rest read
    refine ⟨some c :: taken, rfl, fun other alike => ?_⟩
    rw [List.cons_append, exponentPart_of_mark mark]
    exact again other alike
  · obtain ⟨lower, upper⟩ := not_or.1 marked
    rw [exponentPart_of_ne lower upper] at read
    obtain ⟨rfl, rfl⟩ := Prod.mk.inj (Option.some.inj read)
    exact ⟨[], rfl, fun other alike =>
      exponentPart_of_ne (alike.head?_ne rfl lower) (alike.head?_ne rfl upper)⟩

/-- A number after its sign and its whole part. -/
def numeralAfter? (negative : Bool) (whole : List Char) :
    List Symbol → Option (Numeral × List Symbol) :=
  match whole with
  | '0' :: _ :: _ => fun _ => none
  | whole => fun rest =>
    (fractionPart rest).bind fun fraction => (exponentPart fraction.2).bind fun exponent =>
      some (⟨negative, Nat.ofDigitChars 10 whole 0, fraction.1, exponent.1⟩, exponent.2)

theorem numeral?_eq (negative : Bool) (symbols : List Symbol) :
    numeral? negative symbols =
      (digits? symbols).bind fun whole => numeralAfter? negative whole.1 whole.2 := by
  unfold numeral?
  split
  · next found =>
    rw [digits?_of_nil found]
    rfl
  · next found =>
    rw [digits?_of_ne found (List.cons_ne_nil _ _)]
    rfl
  · next whole rest some bare found =>
    rw [digits?_of_ne found some]
    show _ = numeralAfter? negative whole rest
    unfold numeralAfter?
    split
    · exact absurd rfl (bare _ _)
    · rfl

theorem numeral?_local (negative : Bool) : ReadsLocally (numeral? negative) := by
  have each : numeral? negative = fun symbols =>
      (digits? symbols).bind fun whole => numeralAfter? negative whole.1 whole.2 :=
    funext (numeral?_eq negative)
  rw [each]
  refine digits?_local.bind fun whole => ?_
  unfold numeralAfter?
  split
  · rintro _ _ _ ⟨⟩
  · exact fractionPart_local.bind fun fraction => exponentPart_local.bind fun exponent => .pure _

/-- A literal ends with its closing quote, whatever comes after it. -/
theorem pieces_local {state : LiteralState} {done found : List Piece} {symbols rest : List Symbol}
    (read : pieces state done symbols = some (found, rest)) :
    ∃ taken, symbols = taken ++ rest ∧
      ∀ other, pieces state done (taken ++ other) = some (found, other) := by
  fun_induction pieces state done symbols
  case case1 | case5 | case9 | case12 => cases read
  case case3 done after =>
    obtain ⟨rfl, rfl⟩ := Prod.mk.inj (Option.some.inj read)
    exact ⟨[some '"'], rfl, fun _ => by simp [pieces]⟩
  -- Any other symbol leads to another state.
  all_goals
    rename_i again
    obtain ⟨taken, rfl, again⟩ := again read
    exact ⟨_ :: taken, rfl, fun other => by simp_all [pieces]⟩

theorem exists_digit_of_numeral? {negative : Bool} {symbols rest : List Symbol} {numeral : Numeral}
    (read : numeral? negative symbols = some (numeral, rest)) :
    ∃ c more, symbols = some c :: more ∧ c.isDigit = true := by
  rw [numeral?_eq] at read
  obtain ⟨whole, first, -⟩ := Option.bind_eq_some_iff.1 read
  match found : digits symbols with
  | ([], _) =>
    rw [digits?_of_nil found] at first
    cases first
  | (c :: run, left) =>
    obtain ⟨split, digit, -⟩ := digits_eq found
    exact ⟨c, run.map some ++ left, split, digit c List.mem_cons_self⟩

theorem firstToken_of_numeral? {symbols rest : List Symbol} {numeral : Numeral}
    (read : numeral? false symbols = some (numeral, rest)) :
    firstToken symbols = (.number numeral, rest) := by
  obtain ⟨c, more, rfl, digit⟩ := exists_digit_of_numeral? read
  rw [Numeral.firstToken_digit digit, read]

/-- A token is told by the symbols that it takes, one at least, and by how what comes after it
begins. -/
theorem firstToken_local {symbols rest : List Symbol} {token : Token}
    (read : firstToken symbols = (token, rest)) (told : token ≠ .junk) :
    ∃ first lexeme, symbols = first :: lexeme ++ rest ∧
      ∀ other, BeginsAlike rest other → firstToken (first :: lexeme ++ other) = (token, other) := by
  unfold firstToken at read
  split at read
  case h_10 after =>
    cases found : pieces .plain [] after with
    | none =>
      rw [found] at read
      exact absurd (Prod.mk.inj read).1.symm told
    | some literal =>
      obtain ⟨parts, left⟩ := literal
      rw [found] at read
      obtain ⟨rfl, rfl⟩ := Prod.mk.inj read
      obtain ⟨taken, rfl, again⟩ := pieces_local found
      refine ⟨some '"', taken, rfl, fun other _ => ?_⟩
      rw [List.cons_append, firstToken, again]
  case h_11 after =>
    cases found : numeral? true after with
    | none =>
      rw [found] at read
      exact absurd (Prod.mk.inj read).1.symm told
    | some number =>
      obtain ⟨numeral, left⟩ := number
      rw [found] at read
      obtain ⟨rfl, rfl⟩ := Prod.mk.inj read
      obtain ⟨taken, rfl, again⟩ := numeral?_local true _ _ _ found
      refine ⟨some '-', taken, rfl, fun other alike => ?_⟩
      rw [List.cons_append, firstToken, again other alike]
  case h_12 =>
    cases found : numeral? false symbols with
    | none =>
      rw [found] at read
      exact absurd (Prod.mk.inj read).1.symm told
    | some number =>
      obtain ⟨numeral, left⟩ := number
      rw [found] at read
      obtain ⟨rfl, rfl⟩ := Prod.mk.inj read
      obtain ⟨taken, split, again⟩ := numeral?_local false _ _ _ found
      cases taken with
      | nil =>
        obtain ⟨c, more, same, digit⟩ :=
          exists_digit_of_numeral? (again [some ' '] (.inr ⟨_, [], rfl, rfl⟩))
        cases same
        exact absurd digit (by decide)
      | cons first lexeme =>
        exact ⟨first, lexeme, split, fun other alike => firstToken_of_numeral? (again other alike)⟩
  -- The other tokens are told by the symbols that they are spelled with.
  case h_7 | h_8 =>
    obtain ⟨rfl, rfl⟩ := Prod.mk.inj read
    exact ⟨_, [_, _, _], rfl, fun _ _ => rfl⟩
  case h_9 =>
    obtain ⟨rfl, rfl⟩ := Prod.mk.inj read
    exact ⟨_, [_, _, _, _], rfl, fun _ _ => rfl⟩
  all_goals
    obtain ⟨rfl, rfl⟩ := Prod.mk.inj read
    exact ⟨_, [], rfl, fun _ _ => rfl⟩

/-- Whether one text is another one with blanks added before, between or after its tokens. -/
inductive Spaced : List Symbol → List Symbol → Prop
  | nil : Spaced [] []
  | added {blank : Symbol} {text other : List Symbol} (light : isBlank blank = true)
      (later : Spaced text other) : Spaced text (blank :: other)
  | kept {blank : Symbol} {text other : List Symbol} (light : isBlank blank = true)
      (later : Spaced text other) : Spaced (blank :: text) (blank :: other)
  | token {first : Symbol} {lexeme text other : List Symbol} {token : Token}
      (dark : isBlank first = false) (told : token ≠ .junk)
      (read : firstToken (first :: lexeme ++ text) = (token, text)) (later : Spaced text other) :
      Spaced (first :: lexeme ++ text) (first :: lexeme ++ other)

theorem Spaced.beginsAlike {text other : List Symbol} (spaced : Spaced text other) :
    BeginsAlike text other := by
  cases spaced with
  | nil => exact .inl rfl
  | added light => exact .inr ⟨_, _, rfl, light⟩
  | kept => exact .inl rfl
  | token => exact .inl rfl

theorem tokensWithin_nil (fuel : Nat) (done : List Token) :
    tokensWithin fuel done [] = done.reverse := by
  cases fuel <;> rfl

theorem tokensWithin_blank {blank : Symbol} (light : isBlank blank = true) (fuel : Nat)
    (done : List Token) (text : List Symbol) :
    tokensWithin (fuel + 1) done (blank :: text) = tokensWithin (fuel + 1) done text := by
  rw [tokensWithin, tokensWithin, List.dropWhile_cons_of_pos light]

theorem tokensWithin_token {first : Symbol} {more text : List Symbol} {token : Token}
    (dark : isBlank first = false) (read : firstToken (first :: more) = (token, text)) (fuel : Nat)
    (done : List Token) :
    tokensWithin (fuel + 1) done (first :: more) = tokensWithin fuel (token :: done) text := by
  rw [tokensWithin, List.dropWhile_cons_of_neg (by simp [dark])]
  simp only [read]

theorem Spaced.tokensWithin_eq {text other : List Symbol} (spaced : Spaced text other) {n m : Nat}
    (left : text.length ≤ n) (right : other.length ≤ m) (done : List Token) :
    tokensWithin n done text = tokensWithin m done other := by
  induction spaced generalizing n m done with
  | nil => rw [tokensWithin_nil, tokensWithin_nil]
  | added light _ ih =>
    obtain ⟨m, rfl⟩ : ∃ k, m = k + 1 := Nat.exists_eq_add_one.2 (by simp at right; omega)
    rw [tokensWithin_blank light]
    exact ih left (by simp at right; omega) done
  | kept light _ ih =>
    obtain ⟨n, rfl⟩ : ∃ k, n = k + 1 := Nat.exists_eq_add_one.2 (by simp at left; omega)
    obtain ⟨m, rfl⟩ : ∃ k, m = k + 1 := Nat.exists_eq_add_one.2 (by simp at right; omega)
    rw [tokensWithin_blank light, tokensWithin_blank light]
    exact ih (by simp at left; omega) (by simp at right; omega) done
  | @token first lexeme text other token dark told read later ih =>
    obtain ⟨n, rfl⟩ : ∃ k, n = k + 1 := Nat.exists_eq_add_one.2 (by simp at left; omega)
    obtain ⟨m, rfl⟩ : ∃ k, m = k + 1 := Nat.exists_eq_add_one.2 (by simp at right; omega)
    obtain ⟨own, more, split, again⟩ := firstToken_local read told
    obtain ⟨rfl, rfl⟩ := List.cons.inj (List.append_cancel_right split)
    have one := tokensWithin_token dark read n done
    have two := tokensWithin_token dark (again other later.beginsAlike) m done
    have rest : tokensWithin n (token :: done) text = tokensWithin m (token :: done) other :=
      ih (by simp at left; omega) (by simp at right; omega) _
    exact one.trans (rest.trans two.symm)

theorem tokens_spaced {text other : List Symbol} (spaced : Spaced text other) :
    tokens other = tokens text :=
  (spaced.tokensWithin_eq (Nat.le_refl _) (Nat.le_refl _) []).symm

theorem mem_tokensWithin {token : Token} {done : List Token} (mem : token ∈ done) (fuel : Nat)
    (text : List Symbol) : token ∈ tokensWithin fuel done text := by
  induction fuel generalizing done text with
  | zero => exact List.mem_reverse.2 mem
  | succ fuel ih =>
    rw [tokensWithin]
    split
    · exact List.mem_reverse.2 mem
    · exact ih (List.mem_cons_of_mem _ mem) _

theorem spaced_of_tokensWithin {text : List Symbol} {fuel : Nat} {done : List Token}
    (enough : text.length ≤ fuel) (legal : .junk ∉ tokensWithin fuel done text) :
    Spaced text text := by
  induction size : text.length using Nat.strongRecOn generalizing text fuel done with
  | ind n ih =>
    match text, fuel with
    | [], _ => exact .nil
    | first :: more, fuel + 1 =>
      rw [List.length_cons] at size enough
      by_cases light : isBlank first = true
      · rw [tokensWithin_blank light] at legal
        exact .kept light (ih more.length (by omega) (by omega) legal rfl)
      · have dark : isBlank first = false := by simpa using light
        match read : firstToken (first :: more) with
        | (token, rest) =>
          rw [tokensWithin_token dark read] at legal
          have told : token ≠ .junk := by
            rintro rfl
            exact legal (mem_tokensWithin List.mem_cons_self fuel rest)
          obtain ⟨own, lexeme, split, -⟩ := firstToken_local read told
          obtain rfl : more = lexeme ++ rest := (List.cons.inj split).2
          rw [List.length_append] at size enough
          exact .token dark told read (ih rest.length (by omega) (by omega) legal rfl)

/-- A text without junk consists of tokens and blanks, so that blanks can be added to it. -/
theorem spaced_self {text : List Symbol} (legal : .junk ∉ tokens text) : Spaced text text :=
  spaced_of_tokensWithin (Nat.le_refl _) legal

end PublicIp.Json
