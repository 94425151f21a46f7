import PublicIp.Json.Codec
import PublicIp.Json.Tree.Lemmas

/-!
# Reading back a spelling

Tokens are written one after the other without blanks, and `tokens` finds them again. That takes that
each token is told from what follows it: all are, whatever follows, except numbers, which end only
where a character stands that no number goes on with. `Tree.read_text`: a tree is read back from its
text if it is whole and its tokens are legible.
-/

namespace PublicIp.Json

open Text (Symbol symbolsOfString symbolsOfBytes symbolsOfBytes_toUTF8 hexDigit?)

/-- The symbols that tokens are spelled with. -/
def spelling (tokens : List Token) : List Symbol := (tokens.flatMap Token.text).map some

@[simp] theorem spelling_nil : spelling [] = [] := rfl

@[simp] theorem spelling_cons (token : Token) (rest : List Token) :
    spelling (token :: rest) = token.text.map some ++ spelling rest := by
  simp [spelling]

theorem hexDigit?_digitChar : ∀ d < 16, hexDigit? (Nat.digitChar d) = some d := by decide

/-- A character of a text is one piece of the literal, and that piece stands for it. -/
theorem pieces_escaped (c : Char) : ∃ piece, ∀ done rest,
    pieces .plain done ((escaped c).map some ++ rest) = pieces .plain (piece :: done) rest ∧
      ∀ chars more, content chars (piece :: more) = content (c :: chars) more := by
  unfold escaped
  split
  iterate 7 exact ⟨.char _, fun done rest => ⟨by simp [pieces, shortEscape?], fun _ _ => rfl⟩⟩
  next quote backslash _ _ _ _ _ =>
    by_cases hc : c < ' '
    · have small : c.toNat < 32 := hc
      have code : 16 * (c.toNat / 16) + c.toNat % 16 = c.toNat := by omega
      refine ⟨.unit c.toNat, fun done rest => ⟨?_, fun chars more => ?_⟩⟩
      · have high := hexDigit?_digitChar (c.toNat / 16) (by omega)
        have low := hexDigit?_digitChar (c.toNat % 16) (by omega)
        have zero : hexDigit? '0' = some 0 := rfl
        have mod : c.toNat / 16 % 16 = c.toNat / 16 := by omega
        simp [hc, pieces, hexPair, zero, high, low, mod, code]
      · have below : ¬ 0xD800 ≤ c.toNat := by omega
        have under : ¬ 0xDC00 ≤ c.toNat := by omega
        rw [content.eq_def]
        simp [below, under]
    · refine ⟨.char c, fun done rest => ⟨?_, fun _ _ => rfl⟩⟩
      have unquoted : c ≠ '"' := fun h => quote h
      have unescaped : c ≠ '\\' := fun h => backslash h
      simp [hc, pieces, unquoted, unescaped]

theorem pieces_literal (chars : List Char) : ∃ found, ∀ done rest,
    pieces .plain done ((chars.flatMap escaped).map some ++ some '"' :: rest) =
        some (done.reverse ++ found, rest) ∧
      ∀ before, content before found = some (before.reverse ++ chars) := by
  induction chars with
  | nil => exact ⟨[], fun done rest => ⟨by simp [pieces], fun before => by simp [content]⟩⟩
  | cons c chars ih =>
    obtain ⟨piece, hpiece⟩ := pieces_escaped c
    obtain ⟨found, hfound⟩ := ih
    refine ⟨piece :: found, fun done rest => ⟨?_, fun before => ?_⟩⟩
    · rw [List.flatMap_cons, List.map_append, List.append_assoc, (hpiece _ _).1,
        (hfound _ _).1]
      simp
    · rw [(hpiece [] []).2, (hfound [] []).2]
      simp

theorem firstToken_string (s : String) (rest : List Symbol) :
    firstToken ((Token.string (some s)).text.map some ++ rest) = (.string (some s), rest) := by
  obtain ⟨found, hfound⟩ := pieces_literal s.toList
  have literal := (hfound [] rest).1
  have meaning := (hfound [] rest).2 []
  simp only [Token.text, List.cons_append, List.map_cons, List.map_append, List.append_assoc,
    List.map_nil, List.nil_append]
  simp only [List.reverse_nil, List.nil_append] at literal meaning
  rw [firstToken, literal]
  simp [meaning]

/-- Whether a number ends before some symbols. -/
def EndsNumber : List Symbol → Prop
  | some c :: _ => c.isDigit = false ∧ c ≠ '.' ∧ c ≠ 'e' ∧ c ≠ 'E'
  | _ => True

/-- Whether a token is told from its spelling, where a number would end. -/
def Token.Legible (token : Token) : Prop :=
  ∀ rest, EndsNumber rest → firstToken (token.text.map some ++ rest) = (token, rest)

theorem Token.legible_string (s : String) : (Token.string (some s)).Legible :=
  fun rest _ => firstToken_string s rest

theorem Token.legible_bool (b : Bool) : (Token.bool b).Legible := by
  intro rest _
  cases b <;> rfl

/-- Whether each token of a run is told from what follows it. -/
def Told : List Token → Prop
  | [] => True
  | token :: rest =>
    firstToken (token.text.map some ++ spelling rest) = (token, spelling rest) ∧ Told rest

/-- A spelling is not empty and does not start with a blank. -/
theorem Token.text_eq_cons (token : Token) :
    ∃ c rest, token.text = c :: rest ∧ isBlank (some c) = false := by
  cases token with
  | number numeral =>
    cases hneg : numeral.negative with
    | true => exact ⟨'-', _, by simp only [Token.text, Numeral.text, hneg]; rfl, rfl⟩
    | false =>
      obtain ⟨c, rest, hdigits⟩ := List.exists_cons_of_ne_nil
        (Nat.toDigits_ne_nil (n := numeral.whole) (b := 10))
      have hdigit : c.isDigit = true :=
        Nat.isDigit_of_mem_toDigits (b := 10) (n := numeral.whole) (by omega) (by omega)
          (by simp [hdigits])
      refine ⟨c, _, by simp [Token.text, Numeral.text, hneg, hdigits]; rfl, ?_⟩
      simp only [isBlank, decide_eq_false_iff_not]
      rintro (h | h | h | h) <;> simp only [Option.some.injEq] at h <;> subst h <;>
        revert hdigit <;> decide
  | string content => cases content <;> exact ⟨'"', _, rfl, rfl⟩
  | bool b => cases b <;> exact ⟨_, _, rfl, rfl⟩
  | _ => exact ⟨_, _, rfl, rfl⟩

theorem tokensWithin_spelling (run done : List Token) (fuel : Nat) (told : Told run)
    (enough : (spelling run).length ≤ fuel) :
    tokensWithin fuel done (spelling run) = done.reverse ++ run := by
  induction run generalizing done fuel with
  | nil => cases fuel <;> simp [tokensWithin]
  | cons token rest ih =>
    obtain ⟨c, chars, htext, hblank⟩ := token.text_eq_cons
    obtain ⟨first, later⟩ := told
    have spelled : spelling (token :: rest) = some c :: (chars.map some ++ spelling rest) := by
      simp [htext]
    rw [spelled] at enough ⊢
    obtain ⟨fuel, rfl⟩ : ∃ n, fuel = n + 1 := ⟨fuel - 1, by simp at enough; omega⟩
    have read : firstToken (some c :: (chars.map some ++ spelling rest)) = (token, spelling rest) := by
      simpa [htext] using first
    have tail := ih (token :: done) fuel later (by simp at enough; omega)
    simp only [tokensWithin, List.dropWhile_cons, hblank, Bool.false_eq_true, if_false, read, tail]
    simp

theorem tokens_spelling {run : List Token} (told : Told run) : tokens (spelling run) = run := by
  simpa [tokens] using tokensWithin_spelling run [] _ told (Nat.le_refl _)

namespace Tree

def Legible (tree : Tree) : Prop := ∀ token ∈ tree.tokens, token.Legible

mutual

theorem told_tokens (tree : Tree) (rest : List Token) (legible : tree.Legible)
    (ends : EndsNumber (spelling rest)) (told : Told rest) : Told (tree.tokens ++ rest) := by
  match tree with
  | .leaf token => exact ⟨legible token (by simp [tokens]) _ ends, told⟩
  | .array [] => exact ⟨rfl, rfl, told⟩
  | .array (item :: items) =>
    have inner := told_itemTokens items rest (fun token mem => legible token (by simp [tokens, mem]))
      told
    have first := told_tokens item _ (fun token mem => legible token (by simp [tokens, mem]))
      inner.2 inner.1
    simpa [tokens, Told] using ⟨rfl, first⟩
  | .object [] => exact ⟨rfl, rfl, told⟩
  | .object ((key, value) :: members) =>
    have inner := told_memberTokens members rest
      (fun token mem => legible token (by simp [tokens, mem])) told
    have first := told_tokens value _ (fun token mem => legible token (by simp [tokens, mem]))
      inner.2 inner.1
    have named := legible key (by simp [tokens]) (spelling (.colon :: (value.tokens ++
      (memberTokens members ++ rest)))) (by simp [Token.text, EndsNumber])
    simpa [tokens, Told] using ⟨rfl, named, rfl, first⟩
termination_by sizeOf tree

theorem told_itemTokens (items : List Tree) (rest : List Token)
    (legible : ∀ token ∈ itemTokens items, token.Legible) (told : Told rest) :
    Told (itemTokens items ++ rest) ∧ EndsNumber (spelling (itemTokens items ++ rest)) := by
  match items with
  | [] => exact ⟨⟨rfl, told⟩, by simp [itemTokens, Token.text, EndsNumber]⟩
  | item :: items =>
    have inner := told_itemTokens items rest
      (fun token mem => legible token (by simp [itemTokens, mem])) told
    have first := told_tokens item _ (fun token mem => legible token (by simp [itemTokens, mem]))
      inner.2 inner.1
    refine ⟨by simpa [itemTokens, Told] using ⟨rfl, first⟩, ?_⟩
    simp [itemTokens, Token.text, EndsNumber]
termination_by sizeOf items

theorem told_memberTokens (members : List (Token × Tree)) (rest : List Token)
    (legible : ∀ token ∈ memberTokens members, token.Legible) (told : Told rest) :
    Told (memberTokens members ++ rest) ∧ EndsNumber (spelling (memberTokens members ++ rest)) := by
  match members with
  | [] => exact ⟨⟨rfl, told⟩, by simp [memberTokens, Token.text, EndsNumber]⟩
  | (key, value) :: members =>
    have inner := told_memberTokens members rest
      (fun token mem => legible token (by simp [memberTokens, mem])) told
    have first := told_tokens value _ (fun token mem => legible token (by simp [memberTokens, mem]))
      inner.2 inner.1
    have named := legible key (by simp [memberTokens]) (spelling (.colon :: (value.tokens ++
      (memberTokens members ++ rest)))) (by simp [Token.text, EndsNumber])
    refine ⟨by simpa [memberTokens, Told] using ⟨rfl, named, rfl, first⟩, ?_⟩
    simp [memberTokens, Token.text, EndsNumber]
termination_by sizeOf members

end

theorem symbolsOfString_text (tree : Tree) : symbolsOfString tree.text = spelling tree.tokens := by
  simp [symbolsOfString, Tree.text, spelling]

/-- Whether a text is one of a tree, with any white space and any spelling of its tokens. -/
structure Spells (tree : Tree) (text : List Symbol) : Prop where
  whole : tree.whole = true
  tokens : Json.tokens text = tree.tokens

theorem Spells.read {tree : Tree} {text : List Symbol} (spells : tree.Spells text) :
    read (Json.tokens text) = (tree, []) := by
  rw [spells.tokens, read_tokens tree spells.whole]

theorem Spells.eq {tree other : Tree} {text : List Symbol} (left : tree.Spells text)
    (right : other.Spells text) : tree = other :=
  (Prod.mk.inj (left.read.symm.trans right.read)).1

theorem spells_text {tree : Tree} (whole : tree.whole = true) (legible : tree.Legible) :
    tree.Spells (symbolsOfString tree.text) := by
  refine ⟨whole, ?_⟩
  have told : Told tree.tokens := by
    simpa using told_tokens tree [] legible trivial trivial
  rw [symbolsOfString_text, tokens_spelling told]

/-- A whole tree with legible tokens is read back from its text, and nothing is left over. -/
theorem read_text (tree : Tree) (whole : tree.whole = true) (legible : tree.Legible) :
    read (Json.tokens (symbolsOfString tree.text)) = (tree, []) :=
  (spells_text whole legible).read

end Tree

/-- A codec decodes the bytes of a text like the text itself. -/
theorem Codec.decodeBytes_toUTF8 {α : Type} (codec : Codec α) (s : String) :
    codec.decodeBytes s.toUTF8 = codec.decodeString s := by
  rw [decodeBytes, symbolsOfBytes_toUTF8, decodeString]

theorem Codec.decode_of_spells {α : Type} {codec : Codec α} {tree : Tree} {text : List Symbol}
    (spells : tree.Spells text) : codec.decode text = codec.ofTree tree := by
  rw [decode, spells.read]
  cases h : codec.ofTree tree <;> simp [h, bind, Except.bind, pure, Except.pure]

theorem Codec.decodeString_text {α : Type} (codec : Codec α) {tree : Tree}
    (whole : tree.whole = true) (legible : tree.Legible) :
    codec.decodeString tree.text = codec.ofTree tree :=
  decode_of_spells (Tree.spells_text whole legible)

end PublicIp.Json
