import PublicIp.Json.Tree

/-!
# Reading back the tokens of a tree

`Tree.read_tokens`: a whole tree is read back from the tokens it is written with, and nothing is left
over.
-/

namespace PublicIp.Json.Tree

open Token

mutual

theorem readWithin_tokens (tree : Tree) (rest : List Token) (fuel : Nat) (whole : tree.whole = true)
    (enough : 2 * tree.tokens.length ≤ fuel + 1) :
    readWithin fuel (tree.tokens ++ rest) = (tree, rest) := by
  match tree with
  | .leaf token =>
    obtain ⟨fuel, rfl⟩ : ∃ n, fuel = n + 1 := ⟨fuel - 1, by simp [tokens] at enough; omega⟩
    cases token <;> simp_all [Tree.whole, isScalar, tokens, readWithin]
  | .array [] =>
    obtain ⟨fuel, rfl⟩ : ∃ n, fuel = n + 1 := ⟨fuel - 1, by simp [tokens] at enough; omega⟩
    simp [tokens, readWithin]
  | .array (item :: items) =>
    simp only [Tree.whole, wholeItems, Bool.and_eq_true] at whole
    simp only [tokens, List.length_cons, List.length_append] at enough
    obtain ⟨fuel, rfl⟩ : ∃ n, fuel = n + 1 := ⟨fuel - 1, by omega⟩
    have inner := readItems_tokens item items rest fuel whole.1 whole.2 (by omega)
    simp only [tokens, List.cons_append, List.append_assoc]
    rw [readWithin]
    · rw [inner]
    · intro r first
      cases item with
      | leaf token => cases token <;> simp_all [Tree.whole, isScalar, tokens]
      | array l => cases l <;> simp [tokens] at first
      | object l => cases l <;> simp [tokens] at first
  | .object [] =>
    obtain ⟨fuel, rfl⟩ : ∃ n, fuel = n + 1 := ⟨fuel - 1, by simp [tokens] at enough; omega⟩
    simp [tokens, readWithin]
  | .object ((key, value) :: members) =>
    simp only [tokens, List.length_cons, List.length_append] at enough
    obtain ⟨fuel, rfl⟩ : ∃ n, fuel = n + 1 := ⟨fuel - 1, by omega⟩
    cases key <;>
      simp only [Tree.whole, wholeMembers, Bool.and_eq_true, Bool.false_eq_true] at whole
    rename_i key
    have inner := readMembers_tokens key value members rest fuel whole.1 whole.2 (by omega)
    simp only [tokens, List.cons_append, List.append_assoc]
    rw [readWithin]
    · rw [inner]
    · simp
termination_by sizeOf tree

theorem readItems_tokens (item : Tree) (items : List Tree) (rest : List Token) (fuel : Nat)
    (whole : item.whole = true) (others : wholeItems items = true)
    (enough : 2 * (item.tokens.length + (itemTokens items).length) ≤ fuel + 1) :
    readItems fuel (item.tokens ++ (itemTokens items ++ rest)) = (item :: items, rest) := by
  match items with
  | [] =>
    simp only [itemTokens, List.length_cons, List.length_nil] at enough
    obtain ⟨fuel, rfl⟩ : ∃ n, fuel = n + 1 := ⟨fuel - 1, by omega⟩
    have first := readWithin_tokens item (itemTokens [] ++ rest) fuel whole (by omega)
    rw [readItems, first]
    simp [itemTokens]
  | next :: items =>
    simp only [wholeItems, Bool.and_eq_true] at others
    simp only [itemTokens, List.length_cons, List.length_append] at enough
    obtain ⟨fuel, rfl⟩ : ∃ n, fuel = n + 1 := ⟨fuel - 1, by omega⟩
    have first := readWithin_tokens item (itemTokens (next :: items) ++ rest) fuel whole (by omega)
    have later := readItems_tokens next items rest fuel others.1 others.2 (by omega)
    rw [readItems, first]
    simp [itemTokens, later]
termination_by sizeOf item + sizeOf items + 1

theorem readMembers_tokens (key : Option String) (value : Tree) (members : List (Token × Tree))
    (rest : List Token) (fuel : Nat) (whole : value.whole = true)
    (others : wholeMembers members = true)
    (enough : 2 * (value.tokens.length + (memberTokens members).length) + 2 ≤ fuel + 1) :
    readMembers fuel (.string key :: .colon :: (value.tokens ++ (memberTokens members ++ rest))) =
      ((.string key, value) :: members, rest) := by
  match members with
  | [] =>
    simp only [memberTokens, List.length_cons, List.length_nil] at enough
    obtain ⟨fuel, rfl⟩ : ∃ n, fuel = n + 1 := ⟨fuel - 1, by omega⟩
    have first := readWithin_tokens value (memberTokens [] ++ rest) fuel whole (by omega)
    rw [readMembers, first]
    simp [memberTokens]
  | (next, other) :: members =>
    simp only [memberTokens, List.length_cons, List.length_append] at enough
    obtain ⟨fuel, rfl⟩ : ∃ n, fuel = n + 1 := ⟨fuel - 1, by omega⟩
    cases next <;> simp only [wholeMembers, Bool.and_eq_true, Bool.false_eq_true] at others
    rename_i next
    have first := readWithin_tokens value (memberTokens ((.string next, other) :: members) ++ rest)
      fuel whole (by omega)
    have later := readMembers_tokens next other members rest fuel others.1 others.2 (by omega)
    rw [readMembers, first]
    simp [memberTokens, later]
termination_by sizeOf value + sizeOf members + 1

end

theorem read_tokens (tree : Tree) (whole : tree.whole = true) :
    read tree.tokens = (tree, []) := by
  have inner := readWithin_tokens tree [] (2 * tree.tokens.length + 1) whole (by omega)
  simpa [read] using inner

end PublicIp.Json.Tree
