import PublicIp.Json.Codec

/-!
# Sizes of JSON texts

The size of a text in bytes is found from the tree that it is written from: `Tree.utf8ByteSize_text`.
What a literal takes beyond its own text is bounded by `le_size_ofString` and `size_ofString_le`.
-/

namespace PublicIp.Json

def bytes : List Char → Nat
  | [] => 0
  | c :: chars => c.utf8Size + bytes chars

@[simp] theorem bytes_nil : bytes [] = 0 := rfl

@[simp] theorem bytes_cons (c : Char) (chars : List Char) :
    bytes (c :: chars) = c.utf8Size + bytes chars := rfl

@[simp] theorem bytes_append (first second : List Char) :
    bytes (first ++ second) = bytes first + bytes second := by
  induction first with
  | nil => simp
  | cons c chars ih => rw [List.cons_append, bytes_cons, bytes_cons, ih, Nat.add_assoc]

theorem bytes_of_ascii {chars : List Char} (ascii : ∀ c ∈ chars, c.utf8Size = 1) :
    bytes chars = chars.length := by
  induction chars with
  | nil => rfl
  | cons c chars ih =>
    have first := ascii c List.mem_cons_self
    have others := ih fun d mem => ascii d (List.mem_cons_of_mem c mem)
    rw [bytes_cons, List.length_cons, first, others, Nat.add_comm]

theorem utf8ByteSize_ofList (chars : List Char) : (String.ofList chars).utf8ByteSize = bytes chars := by
  induction chars with
  | nil => rfl
  | cons c chars ih =>
    have split : String.ofList (c :: chars) = String.singleton c ++ String.ofList chars := by
      rw [← String.toList_inj]
      simp
    rw [split, String.utf8ByteSize_append, String.utf8ByteSize_singleton, ih, bytes_cons]

theorem utf8ByteSize_replicate (n : Nat) :
    (String.ofList (List.replicate n 'a')).utf8ByteSize = n := by
  have ascii : ∀ c ∈ List.replicate n 'a', c.utf8Size = 1 := by
    intro c mem
    rw [List.eq_of_mem_replicate mem]
    decide
  rw [utf8ByteSize_ofList, bytes_of_ascii ascii, List.length_replicate]

theorem bytes_toList (s : String) : bytes s.toList = s.utf8ByteSize := by
  rw [← utf8ByteSize_ofList, String.ofList_toList]

/-- An escape takes at least as many bytes as the character, and no more than six times as many. -/
theorem bytes_escaped (c : Char) :
    c.utf8Size ≤ bytes (escaped c) ∧ bytes (escaped c) ≤ 6 * c.utf8Size := by
  have positive := c.utf8Size_pos
  have most := c.utf8Size_le_four
  unfold escaped
  split
  iterate 7 exact by decide
  split
  · have digit : ∀ d < 16, (Nat.digitChar d).utf8Size = 1 := by decide
    have high := digit (c.toNat / 16 % 16) (Nat.mod_lt _ (by decide))
    have low := digit (c.toNat % 16) (Nat.mod_lt _ (by decide))
    have lead : bytes ['\\', 'u', '0', '0'] = 4 := by decide
    have all : bytes ('\\' :: 'u' :: '0' :: '0' :: hexPair c.toNat) = 6 := by
      simp only [bytes_cons, bytes_nil, hexPair, high, low] at lead ⊢
      omega
    rw [all]
    omega
  · simp only [bytes_cons, bytes_nil]
    omega

theorem plain_replicate (n : Nat) :
    ∀ c ∈ (String.ofList (List.replicate n 'a')).toList, escaped c = [c] := by
  intro c mem
  rw [String.toList_ofList] at mem
  obtain rfl := List.eq_of_mem_replicate mem
  rfl

theorem bytes_flatMap_escaped (chars : List Char) :
    bytes chars ≤ bytes (chars.flatMap escaped) ∧
      bytes (chars.flatMap escaped) ≤ 6 * bytes chars := by
  induction chars with
  | nil => exact ⟨Nat.le_refl _, Nat.le_refl _⟩
  | cons c chars ih =>
    have first := bytes_escaped c
    simp only [List.flatMap_cons, bytes_append, bytes_cons]
    omega

namespace Tree

/-- How many bytes the text of a tree takes. -/
def size (tree : Tree) : Nat := bytes (tree.tokens.flatMap Token.text)

theorem utf8ByteSize_text (tree : Tree) : tree.text.utf8ByteSize = tree.size :=
  utf8ByteSize_ofList _

theorem size_ofString (s : String) : (ofString s).size = 2 + bytes (s.toList.flatMap escaped) := by
  have quote : '"'.utf8Size = 1 := by decide
  simp only [size, ofString, tokens, Token.text, List.flatMap_cons, List.flatMap_nil,
    List.append_nil, List.cons_append, bytes_cons, bytes_append, bytes_nil, quote]
  omega

/-- A literal takes two quotes more than its text, or more than that. -/
theorem le_size_ofString (s : String) : 2 + s.utf8ByteSize ≤ (ofString s).size := by
  rw [size_ofString, ← bytes_toList]
  exact Nat.add_le_add_left (bytes_flatMap_escaped _).1 2

theorem size_ofString_le (s : String) : (ofString s).size ≤ 2 + 6 * s.utf8ByteSize := by
  rw [size_ofString, ← bytes_toList]
  exact Nat.add_le_add_left (bytes_flatMap_escaped _).2 2

theorem size_ofString_append (s t : String) :
    (ofString (s ++ t)).size + 2 = (ofString s).size + (ofString t).size := by
  rw [size_ofString, size_ofString, size_ofString, String.toList_append, List.flatMap_append,
    bytes_append]
  omega

theorem size_ofString_of_plain {s : String} (plain : ∀ c ∈ s.toList, escaped c = [c]) :
    (ofString s).size = 2 + s.utf8ByteSize := by
  have same : s.toList.flatMap escaped = s.toList.flatMap fun c => [c] :=
    congrArg List.flatten (List.map_congr_left plain)
  rw [size_ofString, same, List.flatMap_singleton', bytes_toList]

/-- The bytes of the items of an array, with what separates them from the next one or ends it. -/
def sizeItems : List Tree → Nat
  | [] => 0
  | item :: rest => item.size + 1 + sizeItems rest

def sizeMembers : List (String × Tree) → Nat
  | [] => 0
  | (name, value) :: rest => (ofString name).size + value.size + 2 + sizeMembers rest

@[simp] theorem sizeItems_singleton (item : Tree) : sizeItems [item] = item.size + 1 := rfl

theorem size_lt_sizeItems {item : Tree} {items : List Tree} (mem : item ∈ items) :
    item.size < sizeItems items := by
  induction items with
  | nil => exact absurd mem List.not_mem_nil
  | cons first rest ih =>
    rw [sizeItems]
    rcases List.mem_cons.1 mem with rfl | later
    · omega
    · have := ih later
      omega

@[simp] theorem sizeMembers_nil : sizeMembers [] = 0 := rfl

@[simp] theorem sizeMembers_cons (name : String) (value : Tree) (rest : List (String × Tree)) :
    sizeMembers ((name, value) :: rest) =
      (ofString name).size + value.size + 2 + sizeMembers rest := rfl

@[simp] theorem sizeMembers_append (first second : List (String × Tree)) :
    sizeMembers (first ++ second) = sizeMembers first + sizeMembers second := by
  induction first with
  | nil => simp
  | cons member rest ih =>
    obtain ⟨name, value⟩ := member
    rw [List.cons_append, sizeMembers_cons, sizeMembers_cons, ih]
    omega

theorem sizeMembers_perm {first second : List (String × Tree)} (perm : first.Perm second) :
    sizeMembers first = sizeMembers second := by
  induction perm with
  | nil => rfl
  | cons member _ ih => rw [sizeMembers, sizeMembers, ih]
  | swap member other rest =>
    simp only [sizeMembers]
    omega
  | trans _ _ first second => exact first.trans second

theorem bytes_itemTokens (items : List Tree) :
    bytes ((itemTokens items).flatMap Token.text) = 1 + sizeItems items := by
  induction items with
  | nil => decide
  | cons item rest ih =>
    have comma : bytes Token.comma.text = 1 := by decide
    simp only [itemTokens, List.cons_append, List.flatMap_cons, List.flatMap_append, bytes_append,
      ih, comma, sizeItems, size]
    omega

theorem size_array {items : List Tree} (full : items ≠ []) :
    (array items).size = 1 + sizeItems items := by
  obtain ⟨item, rest, rfl⟩ := List.exists_cons_of_ne_nil full
  have others := bytes_itemTokens rest
  have opening : bytes Token.openArray.text = 1 := by decide
  simp only [size, tokens, List.cons_append, List.flatMap_cons, List.flatMap_append, bytes_append,
    others, opening, sizeItems]
  omega

/-- The members of an object with their keys as tokens. -/
def keyed (members : List (String × Tree)) : List (Token × Tree) :=
  members.map fun (name, value) => (.string (some name), value)

theorem bytes_memberTokens (members : List (String × Tree)) :
    bytes ((memberTokens (keyed members)).flatMap Token.text) = 1 + sizeMembers members := by
  induction members with
  | nil => decide
  | cons member rest ih =>
    have comma : bytes Token.comma.text = 1 := by decide
    have colon : bytes Token.colon.text = 1 := by decide
    simp only [keyed] at ih
    simp only [keyed, List.map_cons, memberTokens, List.cons_append, List.flatMap_cons,
      List.flatMap_append, bytes_append, ih, comma, colon, sizeMembers, size,
      ofString, tokens, List.flatMap_nil, List.append_nil]
    omega

theorem size_ofMembers {members : List (String × Tree)} (full : members ≠ []) :
    (ofMembers members).size = 1 + sizeMembers members := by
  obtain ⟨member, rest, rfl⟩ := List.exists_cons_of_ne_nil full
  have others := bytes_memberTokens rest
  have opening : bytes Token.openObject.text = 1 := by decide
  have colon : bytes Token.colon.text = 1 := by decide
  simp only [keyed] at others
  simp only [size, ofMembers, List.map_cons, tokens, List.cons_append, List.flatMap_cons,
    List.flatMap_append, bytes_append, others, opening, colon, sizeMembers,
    ofString, List.flatMap_nil, List.append_nil]
  omega

theorem size_perm {first second : List (String × Tree)} (perm : first.Perm second) :
    (ofMembers first).size = (ofMembers second).size := by
  by_cases empty : first = []
  · subst empty
    rw [List.nil_perm.1 perm]
  · have full : second ≠ [] := fun none => empty (List.perm_nil.1 (none ▸ perm))
    rw [size_ofMembers empty, size_ofMembers full, sizeMembers_perm perm]

end Tree

end PublicIp.Json
