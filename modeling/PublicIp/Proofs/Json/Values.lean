import Mathlib.Data.List.Forall2
import PublicIp.Proofs.Json.Numbers
import PublicIp.Proofs.Json.Reading

/-!
# Values that are kept

Any value can be written (`Value.written_tree`), and one that was read is read again from what it is
written as, at the same depth, if its numbers are whole (`Value.read_tree`). Members that were read in
any order, some of them twice, stand once and in order by then.
-/

namespace PublicIp.Json

theorem bind_eq_ok_iff {ε α β : Type} {x : Except ε α} {f : α → Except ε β} {result : β} :
    x >>= f = .ok result ↔ ∃ value, x = .ok value ∧ f value = .ok result := by
  cases x <;> simp [bind, Except.bind]

theorem map_eq_ok_iff {ε α β : Type} {f : α → β} {x : Except ε α} {result : β} :
    f <$> x = .ok result ↔ ∃ value, x = .ok value ∧ f value = result := by
  cases x <;> simp [Functor.map, Except.map]

theorem mapM_eq_ok_iff {ε α β : Type} {f : α → Except ε β} {items : List α} {found : List β} :
    items.mapM f = .ok found ↔ List.Forall₂ (fun item result => f item = .ok result) items found := by
  induction items generalizing found with
  | nil => cases found <;> simp [pure, Except.pure]
  | cons item rest ih =>
    rw [List.mapM_cons]
    cases first : f item with
    | error fault => cases found <;> simp [first, bind, Except.bind]
    | ok result =>
      cases later : rest.mapM f with
      | error fault => cases found <;> simp [first, bind, Except.bind, ← ih, later]
      | ok results => cases found <;> simp [first, bind, Except.bind, pure, Except.pure, ← ih, later]

theorem mapM_eq_some_iff {α β : Type} {f : α → Option β} {items : List α} {found : List β} :
    items.mapM f = some found ↔
      List.Forall₂ (fun item result => f item = some result) items found := by
  induction items generalizing found with
  | nil => cases found <;> simp
  | cons item rest ih =>
    rw [List.mapM_cons]
    cases first : f item with
    | none => cases found <;> simp [first]
    | some result =>
      cases later : rest.mapM f with
      | none => cases found <;> simp [first, ← ih, later]
      | some results => cases found <;> simp [first, ← ih, later]

theorem exists_of_forall₂ {α β : Type} {r : α → β → Prop} {items : List α} {found : List β}
    (related : List.Forall₂ r items found) : ∀ result ∈ found, ∃ item ∈ items, r item result := by
  induction related with
  | nil => exact fun _ mem => absurd mem List.not_mem_nil
  | cons first _ ih =>
    intro result mem
    rcases List.mem_cons.1 mem with rfl | later
    · exact ⟨_, List.mem_cons_self, first⟩
    · obtain ⟨item, among, origin⟩ := ih result later
      exact ⟨item, List.mem_cons_of_mem _ among, origin⟩

theorem Entries.mem_insertAll {κ α : Type} [Ord κ] {new entries : List (κ × α)} {entry : κ × α}
    (mem : entry ∈ Entries.insertAll new entries) : entry ∈ new ∨ entry ∈ entries := by
  induction new generalizing entries with
  | nil => exact .inr mem
  | cons first rest ih =>
    rcases ih mem with later | now
    · exact .inl (List.mem_cons_of_mem _ later)
    · rcases Entries.mem_insert now with rfl | old
      · exact .inl List.mem_cons_self
      · exact .inr old

namespace Value

mutual

theorem written_tree (value : Value) : value.tree.Written := by
  match value with
  | .null => exact ⟨rfl, Tree.legible_leaf fun rest _ => rfl⟩
  | .bool b => exact Tree.written_ofBool b
  | .number n => exact ⟨rfl, Tree.legible_leaf n.legible⟩
  | .text s => exact Tree.written_ofString s
  | .array items =>
    rw [tree, itemTrees_eq]
    refine Tree.written_array fun tree mem => ?_
    obtain ⟨item, among, rfl⟩ := List.mem_map.1 mem
    exact written_items items item among
  | .object members =>
    rw [tree, memberTrees_eq]
    refine Tree.written_ofMembers fun member mem => ?_
    obtain ⟨⟨key, value⟩, among, rfl⟩ := List.mem_map.1 mem
    exact written_members members (key, value) among

theorem written_items (items : List Value) : ∀ item ∈ items, item.tree.Written := by
  match items with
  | [] => exact fun _ mem => absurd mem List.not_mem_nil
  | item :: rest =>
    intro other mem
    rcases List.mem_cons.1 mem with same | later
    · exact same ▸ written_tree item
    · exact written_items rest other later

theorem written_members (members : List (String × Value)) :
    ∀ member ∈ members, member.2.tree.Written := by
  match members with
  | [] => exact fun _ mem => absurd mem List.not_mem_nil
  | (key, value) :: rest =>
    intro other mem
    rcases List.mem_cons.1 mem with same | later
    · exact same ▸ written_tree value
    · exact written_members rest other later

end

mutual

def numbers : Value → List Number
  | .number n => [n]
  | .array items => itemNumbers items
  | .object members => memberNumbers members
  | _ => []

def itemNumbers : List Value → List Number
  | [] => []
  | item :: rest => item.numbers ++ itemNumbers rest

def memberNumbers : List (String × Value) → List Number
  | [] => []
  | (_, value) :: rest => value.numbers ++ memberNumbers rest

end

/-- Whether all numbers in a value are whole. -/
def Integral (value : Value) : Prop := ∀ n ∈ value.numbers, n.Integral

instance (value : Value) : Decidable value.Integral :=
  inferInstanceAs (Decidable (∀ n ∈ value.numbers, n.Integral))

theorem itemNumbers_eq (items : List Value) : itemNumbers items = items.flatMap numbers := by
  induction items with
  | nil => rfl
  | cons item rest ih => rw [itemNumbers, ih, List.flatMap_cons]

theorem memberNumbers_eq (members : List (String × Value)) :
    memberNumbers members = members.flatMap fun member => member.2.numbers := by
  induction members with
  | nil => rfl
  | cons member rest ih =>
    obtain ⟨key, value⟩ := member
    rw [memberNumbers, ih, List.flatMap_cons]

theorem Integral.item {items : List Value} (integral : (array items).Integral) :
    ∀ item ∈ items, item.Integral := by
  intro item mem n among
  apply integral
  rw [numbers, itemNumbers_eq]
  exact List.mem_flatMap.2 ⟨item, mem, among⟩

theorem Integral.member {members : List (String × Value)} (integral : (object members).Integral) :
    ∀ member ∈ members, member.2.Integral := by
  intro member mem n among
  apply integral
  rw [numbers, memberNumbers_eq]
  exact List.mem_flatMap.2 ⟨member, mem, among⟩

theorem read_leaf {depth : Nat} {token : Token} : read depth (.leaf token) = ofToken token := by
  cases depth <;> rfl

/-- A token that was read as a value is read again from what that is written as. -/
theorem ofToken_read {token : Token} {value : Value} (read : ofToken token = .ok value)
    (integral : value.Integral) : ∃ written, value.tree = .leaf written ∧
      ofToken written = .ok value := by
  cases token with
  | null =>
    obtain rfl := Except.ok.inj read
    exact ⟨_, rfl, rfl⟩
  | bool b =>
    obtain rfl := Except.ok.inj read
    exact ⟨_, rfl, rfl⟩
  | string content =>
    cases content with
    | none => cases read
    | some s =>
      obtain rfl := Except.ok.inj read
      exact ⟨_, rfl, rfl⟩
  | number numeral =>
    rw [ofToken] at read
    split at read
    · next n found =>
      obtain rfl := Except.ok.inj read
      have again := Number.number?_numeral found (integral n (by simp [numbers]))
      exact ⟨_, rfl, by rw [ofToken, again]⟩
    · cases read
  | _ => cases read

theorem read_array_eq_ok_iff {depth : Nat} {items : List Tree} {value : Value} :
    read (depth + 1) (.array items) = .ok value ↔
      ∃ values, items.mapM (read depth) = .ok values ∧ value = .array values := by
  rw [read, bind_eq_ok_iff]
  simp [pure, Except.pure, eq_comm]

theorem key_eq_ok_iff {token : Token} {key : String} :
    token.key = .ok key ↔ token = .string (some key) := by
  cases token with
  | string content => cases content <;> simp [Token.key]
  | _ => simp [Token.key]

def readMember (depth : Nat) (member : Token × Tree) : Except Fault (String × Value) := do
  let key ← member.1.key
  let value ← read depth member.2
  return (key, value)

theorem readMember_eq_ok_iff {depth : Nat} {member : Token × Tree} {entry : String × Value} :
    readMember depth member = .ok entry ↔
      member.1 = .string (some entry.1) ∧ read depth member.2 = .ok entry.2 := by
  obtain ⟨key, value⟩ := entry
  rw [readMember, ← key_eq_ok_iff]
  simp only [bind_eq_ok_iff, pure, Except.pure, Except.ok.injEq, Prod.mk.injEq]
  constructor
  · rintro ⟨_, named, _, found, rfl, rfl⟩
    exact ⟨named, found⟩
  · rintro ⟨named, found⟩
    exact ⟨key, named, value, found, rfl, rfl⟩

/-- An object is read member by member. Of members with the same key the last one stays. -/
theorem read_object_eq_ok_iff {depth : Nat} {members : List (Token × Tree)} {value : Value} :
    read (depth + 1) (.object members) = .ok value ↔
      ∃ entries, members.mapM (readMember depth) = .ok entries ∧
        value = .object (Entries.insertAll entries []) := by
  rw [show read (depth + 1) (.object members) = (do
      let entries ← members.mapM (readMember depth)
      return .object (Entries.insertAll entries [])) from rfl, bind_eq_ok_iff]
  simp [pure, Except.pure, eq_comm]

/-- A value that was read is read again from what it is written as, if its numbers are whole. -/
theorem read_tree {depth : Nat} {tree : Tree} {value : Value} (found : read depth tree = .ok value)
    (integral : value.Integral) : read depth value.tree = .ok value := by
  induction depth generalizing tree value with
  | zero =>
    match tree with
    | .leaf token =>
      obtain ⟨written, same, again⟩ := ofToken_read found integral
      rw [same, read_leaf, again]
    | .array _ | .object _ => cases found
  | succ depth ih =>
    match tree with
    | .leaf token =>
      obtain ⟨written, same, again⟩ := ofToken_read found integral
      rw [same, read_leaf, again]
    | .array items =>
      obtain ⟨values, inner, rfl⟩ := read_array_eq_ok_iff.1 found
      have each : ∀ item ∈ values, read depth item.tree = .ok item := by
        intro item mem
        obtain ⟨source, -, origin⟩ := exists_of_forall₂ (mapM_eq_ok_iff.1 inner) item mem
        exact ih origin (integral.item item mem)
      have again : (values.map Value.tree).mapM (read depth) = .ok (values.map id) :=
        mapM_map_pure values each
      rw [List.map_id] at again
      rw [Value.tree, itemTrees_eq]
      exact read_array_eq_ok_iff.2 ⟨values, again, rfl⟩
    | .object members =>
      obtain ⟨entries, inner, rfl⟩ := read_object_eq_ok_iff.1 found
      have ascending : Ascending (Entries.insertAll entries []) :=
        Entries.ascending_insertAll entries List.Pairwise.nil
      generalize held : Entries.insertAll entries [] = kept at ascending integral ⊢
      have each : ∀ entry ∈ kept,
          readMember depth (.string (some entry.1), entry.2.tree) = .ok entry := by
        intro entry mem
        have among := (Entries.mem_insertAll (held ▸ mem)).resolve_right List.not_mem_nil
        obtain ⟨source, -, origin⟩ := exists_of_forall₂ (mapM_eq_ok_iff.1 inner) entry among
        exact readMember_eq_ok_iff.2
          ⟨rfl, ih (readMember_eq_ok_iff.1 origin).2 (integral.member entry mem)⟩
      have again : (kept.map fun entry => (Token.string (some entry.1), entry.2.tree)).mapM
          (readMember depth) = .ok (kept.map id) := mapM_map_pure kept each
      rw [List.map_id] at again
      rw [Value.tree, memberTrees_eq, Tree.ofMembers, List.map_map]
      refine read_object_eq_ok_iff.2 ⟨kept, again, ?_⟩
      rw [Entries.insertAll_of_perm (List.Perm.refl _) ascending]

end Value

end PublicIp.Json
