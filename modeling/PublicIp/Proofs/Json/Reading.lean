import PublicIp.Proofs.Json.Spelling
import PublicIp.Proofs.OrderedMap

/-!
# What schemas take

A schema takes a tree as a datum if the tree can be written and read back as a text and the schema
reads it, at any depth that is enough, as that datum. There is one lemma for each kind of schema; that
for records is about objects with their members in any order (`Schema.takes_record`). A codec decodes
the text of a tree that it takes (`Codec.Takes.decodeString`).
-/

namespace PublicIp.Json

namespace Tree

theorem wholeItems_eq_true_iff (items : List Tree) :
    wholeItems items = true ↔ ∀ item ∈ items, item.whole = true := by
  induction items with
  | nil => simp [wholeItems]
  | cons item rest ih => simp [wholeItems, ih]

theorem mem_itemTokens {items : List Tree} {token : Token} (mem : token ∈ itemTokens items) :
    token = .comma ∨ token = .closeArray ∨ ∃ item ∈ items, token ∈ item.tokens := by
  induction items with
  | nil => simp_all [itemTokens]
  | cons item rest ih =>
    simp only [itemTokens, List.cons_append, List.mem_cons, List.mem_append] at mem
    rcases mem with rfl | inside | later
    · exact .inl rfl
    · exact .inr (.inr ⟨item, List.mem_cons_self, inside⟩)
    · rcases ih later with comma | close | ⟨other, among, inside⟩
      · exact .inl comma
      · exact .inr (.inl close)
      · exact .inr (.inr ⟨other, List.mem_cons_of_mem _ among, inside⟩)

theorem mem_memberTokens {members : List (Token × Tree)} {token : Token}
    (mem : token ∈ memberTokens members) :
    token = .comma ∨ token = .colon ∨ token = .closeObject ∨
      ∃ member ∈ members, token = member.1 ∨ token ∈ member.2.tokens := by
  induction members with
  | nil => simp_all [memberTokens]
  | cons member rest ih =>
    obtain ⟨key, value⟩ := member
    simp only [memberTokens, List.cons_append, List.mem_cons, List.mem_append] at mem
    rcases mem with rfl | rfl | rfl | inside | later
    · exact .inl rfl
    · exact .inr (.inr (.inr ⟨_, List.mem_cons_self, .inl rfl⟩))
    · exact .inr (.inl rfl)
    · exact .inr (.inr (.inr ⟨_, List.mem_cons_self, .inr inside⟩))
    · rcases ih later with comma | colon | close | ⟨other, among, inside⟩
      · exact .inl comma
      · exact .inr (.inl colon)
      · exact .inr (.inr (.inl close))
      · exact .inr (.inr (.inr ⟨other, List.mem_cons_of_mem _ among, inside⟩))

theorem legible_leaf {token : Token} (legible : token.Legible) : (leaf token).Legible := by
  intro other mem
  obtain rfl : other = token := by simpa [tokens] using mem
  exact legible

theorem legible_punctuation {token : Token}
    (punctuation : token ∈ [Token.openArray, .closeArray, .openObject, .closeObject, .comma, .colon]) :
    token.Legible := by
  intro rest _
  simp only [List.mem_cons, List.not_mem_nil, or_false] at punctuation
  rcases punctuation with rfl | rfl | rfl | rfl | rfl | rfl <;> rfl

theorem legible_array {items : List Tree} (legible : ∀ item ∈ items, item.Legible) :
    (array items).Legible := by
  intro token mem
  cases items with
  | nil =>
    apply legible_punctuation
    simp only [tokens, List.mem_cons, List.not_mem_nil, or_false] at mem
    rcases mem with rfl | rfl <;> simp
  | cons item rest =>
    simp only [tokens, List.cons_append, List.mem_cons, List.mem_append] at mem
    rcases mem with rfl | inside | later
    · exact legible_punctuation (by simp)
    · exact legible item List.mem_cons_self token inside
    · rcases mem_itemTokens later with rfl | rfl | ⟨other, among, inside⟩
      · exact legible_punctuation (by simp)
      · exact legible_punctuation (by simp)
      · exact legible other (List.mem_cons_of_mem _ among) token inside

theorem legible_object {members : List (Token × Tree)}
    (legible : ∀ member ∈ members, member.1.Legible ∧ member.2.Legible) :
    (object members).Legible := by
  intro token mem
  cases members with
  | nil =>
    apply legible_punctuation
    simp only [tokens, List.mem_cons, List.not_mem_nil, or_false] at mem
    rcases mem with rfl | rfl <;> simp
  | cons member rest =>
    obtain ⟨key, value⟩ := member
    have first := legible (key, value) List.mem_cons_self
    simp only [tokens, List.cons_append, List.mem_cons, List.mem_append] at mem
    rcases mem with rfl | rfl | rfl | inside | later
    · exact legible_punctuation (by simp)
    · exact first.1
    · exact legible_punctuation (by simp)
    · exact first.2 token inside
    · rcases mem_memberTokens later with rfl | rfl | rfl | ⟨other, among, own | inside⟩
      · exact legible_punctuation (by simp)
      · exact legible_punctuation (by simp)
      · exact legible_punctuation (by simp)
      · exact own ▸ (legible other (List.mem_cons_of_mem _ among)).1
      · exact (legible other (List.mem_cons_of_mem _ among)).2 token inside

/-- Whether a tree can be written as a text and read back. -/
structure Written (tree : Tree) : Prop where
  whole : tree.whole = true
  legible : tree.Legible

theorem Written.spells {tree : Tree} (written : tree.Written) :
    tree.Spells (Text.symbolsOfString tree.text) :=
  spells_text written.whole written.legible

theorem written_ofString (s : String) : (ofString s).Written :=
  ⟨rfl, legible_leaf (Token.legible_string s)⟩

theorem written_ofBool (b : Bool) : (ofBool b).Written := ⟨rfl, legible_leaf (Token.legible_bool b)⟩

theorem written_array {items : List Tree} (written : ∀ item ∈ items, item.Written) :
    (array items).Written where
  whole := (wholeItems_eq_true_iff items).2 fun item mem => (written item mem).whole
  legible := legible_array fun item mem => (written item mem).legible

theorem whole_ofMembers_iff (members : List (String × Tree)) :
    (ofMembers members).whole = true ↔ ∀ member ∈ members, member.2.whole = true := by
  have inner : wholeMembers (members.map fun member => (.string (some member.1), member.2)) = true ↔
      ∀ member ∈ members, member.2.whole = true := by
    induction members with
    | nil => simp [wholeMembers]
    | cons member rest ih => simp [wholeMembers, ih]
  exact inner

theorem written_ofMembers {members : List (String × Tree)}
    (written : ∀ member ∈ members, member.2.Written) : (ofMembers members).Written := by
  constructor
  · exact (whole_ofMembers_iff members).2 fun member mem => (written member mem).whole
  · apply legible_object
    intro member mem
    obtain ⟨⟨key, value⟩, among, rfl⟩ := List.mem_map.1 mem
    exact ⟨Token.legible_string key, (written _ among).legible⟩

end Tree

theorem mapM_map_pure {m : Type → Type} [Monad m] [LawfulMonad m] {ι α β : Type} (items : List ι)
    {f : α → m β} {source : ι → α} {target : ι → β}
    (each : ∀ i ∈ items, f (source i) = pure (target i)) :
    (items.map source).mapM f = pure (items.map target) := by
  induction items with
  | nil => simp
  | cons i rest ih =>
    have first := each i List.mem_cons_self
    have others := ih fun j mem => each j (List.mem_cons_of_mem _ mem)
    simp [first, others]

/-- Whether a schema takes a tree as a datum, at the given depth or any greater one. -/
structure Schema.Takes (schema : Schema) (depth : Nat) (tree : Tree) (datum : Datum) : Prop where
  written : tree.Written
  present : tree ≠ .null
  read : ∀ n, depth ≤ n → schema.read n tree = .ok datum

namespace Schema

theorem Takes.mono {schema : Schema} {depth more : Nat} {tree : Tree} {datum : Datum}
    (takes : schema.Takes depth tree datum) (le : depth ≤ more) : schema.Takes more tree datum :=
  ⟨takes.written, takes.present, fun n bound => takes.read n (Nat.le_trans le bound)⟩

theorem takes_text (s : String) : text.Takes 0 (.ofString s) (.text s) where
  written := Tree.written_ofString s
  present := by simp [Tree.ofString, Tree.null]
  read n _ := by cases n <;> rfl

theorem takes_flag (b : Bool) : flag.Takes 0 (.ofBool b) (.flag b) where
  written := Tree.written_ofBool b
  present := by simp [Tree.ofBool, Tree.null]
  read n _ := by simp [Schema.read, readFlag, Tree.ofBool]

theorem takes_choice {names : List String} {name : String} (mem : name ∈ names) :
    (choice names).Takes 0 (.ofString name) (.choice name) where
  written := Tree.written_ofString name
  present := by simp [Tree.ofString, Tree.null]
  read n _ := by simp [Schema.read, readChoice, readName, Tree.ofString, mem]

theorem takes_list {ι : Type} {item : Schema} {depth : Nat} (items : List ι) (tree : ι → Tree)
    (datum : ι → Datum) (takes : ∀ i ∈ items, item.Takes depth (tree i) (datum i)) :
    (list item).Takes (depth + 1) (.array (items.map tree)) (.list (items.map datum)) where
  written := Tree.written_array fun _ mem => by
    obtain ⟨i, among, rfl⟩ := List.mem_map.1 mem
    exact (takes i among).written
  present := by simp [Tree.null]
  read n bound := by
    obtain ⟨n, rfl⟩ : ∃ m, n = m + 1 := ⟨n - 1, by omega⟩
    have inner : (items.map tree).mapM (item.read n) = pure (items.map datum) :=
      mapM_map_pure items fun i mem => (takes i mem).read n (by omega)
    simp only [Schema.read, readList, enter, inner, pure_bind]
    rfl

/-- Whether members in the order of some fields fill them with slots: a field is given by a member,
or it is absent and may be. -/
inductive Fills (depth : Nat) : List Field → List (String × Tree) → List (Option Datum) → Prop
  | nil : Fills depth [] [] []
  | given {name : String} {presence : Presence} {schema : Schema} {tree : Tree} {datum : Datum}
      {fields : List Field} {members : List (String × Tree)} {slots : List (Option Datum)} :
      schema.Takes depth tree datum → Fills depth fields members slots →
      Fills depth (⟨name, presence, schema⟩ :: fields) ((name, tree) :: members)
        (some datum :: slots)
  | missing {name : String} {presence : Presence} {schema : Schema} {slot : Option Datum}
      {fields : List Field} {members : List (String × Tree)} {slots : List (Option Datum)} :
      FieldReader.absent ⟨name, presence, schema.read⟩ = .ok slot → Fills depth fields members slots →
      Fills depth (⟨name, presence, schema⟩ :: fields) members (slot :: slots)

def slotOf : List Field → List (Option Datum) → String → Option Datum
  | field :: fields, slot :: slots, name =>
    if field.name = name then slot else slotOf fields slots name
  | _, _, _ => none

theorem Takes.slot {schema : Schema} {depth n : Nat} {tree : Tree} {datum : Datum}
    (takes : schema.Takes depth tree datum) (bound : depth ≤ n) (name : String)
    (presence : Presence) :
    FieldReader.slot ⟨name, presence, schema.read⟩ n tree = .ok (some datum) := by
  have read : some <$> schema.read n tree = .ok (some datum) := by
    rw [takes.read n bound]
    rfl
  unfold FieldReader.slot
  split
  · exact absurd rfl takes.present
  · exact read

theorem map_name_fieldReaders (fields : List Field) :
    (fieldReaders fields).map FieldReader.name = fields.map Field.name := by
  induction fields with
  | nil => rfl
  | cons field rest ih =>
    obtain ⟨name, presence, schema⟩ := field
    simp [fieldReaders, ih]

namespace Fills

theorem part {β : Type} {depth : Nat} {name : String} {positional : Bool} {schema : Schema}
    {fields : List Field} {members : List (String × Tree)} {slots : List (Option Datum)}
    (value : Option β) {tree : β → Tree} {datum : β → Datum}
    (takes : ∀ b, schema.Takes depth (tree b) (datum b))
    (fills : Fills depth fields members slots) :
    Fills depth (⟨name, .optional positional, schema⟩ :: fields)
      ((value.map fun b => (name, tree b)).toList ++ members) (value.map datum :: slots) := by
  cases value with
  | none => exact missing rfl fills
  | some b => exact given (takes b) fills

variable {depth : Nat} {fields : List Field} {members : List (String × Tree)}
  {slots : List (Option Datum)}

theorem written (fills : Fills depth fields members slots) : ∀ member ∈ members, member.2.Written := by
  induction fills with
  | nil => simp
  | given takes _ ih =>
    intro member mem
    rcases List.mem_cons.1 mem with rfl | mem
    · exact takes.written
    · exact ih member mem
  | missing _ _ ih => exact ih

theorem names (fills : Fills depth fields members slots) :
    (members.map Prod.fst).Sublist (fields.map Field.name) := by
  induction fills with
  | nil => simp
  | given _ _ ih => exact ih.cons_cons _
  | missing _ _ ih => exact ih.cons _

theorem of_member (fills : Fills depth fields members slots)
    (distinct : (fields.map Field.name).Nodup) {n : Nat} (bound : depth ≤ n)
    {member : String × Tree} (mem : member ∈ members) :
    ∃ field, (fieldReaders fields).find? (·.name = member.1) = some field ∧
      field.slot n member.2 = .ok (slotOf fields slots member.1) := by
  induction fills with
  | nil => exact absurd mem List.not_mem_nil
  | @given name presence schema tree datum fields members slots takes fills ih =>
    rw [List.map_cons, List.nodup_cons] at distinct
    rcases List.mem_cons.1 mem with rfl | later
    · exact ⟨⟨name, presence, schema.read⟩, by simp [fieldReaders],
        by simpa [slotOf] using takes.slot bound name presence⟩
    · have other : name ≠ member.1 := by
        rintro rfl
        exact distinct.1 (fills.names.subset (List.mem_map_of_mem later))
      simpa [fieldReaders, slotOf, other] using ih distinct.2 later
  | @missing name presence schema slot fields members slots absent fills ih =>
    rw [List.map_cons, List.nodup_cons] at distinct
    have other : name ≠ member.1 := by
      rintro rfl
      exact distinct.1 (fills.names.subset (List.mem_map_of_mem mem))
    simpa [fieldReaders, slotOf, other] using ih distinct.2 mem

theorem later_name {name : String} (distinct : (name :: fields.map Field.name).Nodup)
    {field : FieldReader} (mem : field ∈ fieldReaders fields) : name ≠ field.name := by
  rintro rfl
  rw [← map_name_fieldReaders] at distinct
  exact (List.nodup_cons.1 distinct).1 (List.mem_map_of_mem mem)

theorem of_absent (fills : Fills depth fields members slots)
    (distinct : (fields.map Field.name).Nodup) {field : FieldReader}
    (mem : field ∈ fieldReaders fields) (absent : field.name ∉ members.map Prod.fst) :
    field.absent = .ok (slotOf fields slots field.name) := by
  induction fills with
  | nil => exact absurd mem List.not_mem_nil
  | @given name presence schema tree datum fields members slots takes fills ih =>
    simp only [List.map_cons, List.mem_cons, not_or] at absent
    rcases List.mem_cons.1 mem with rfl | later
    · exact absurd rfl absent.1
    · simpa [slotOf, later_name distinct later] using
        ih (List.nodup_cons.1 distinct).2 later absent.2
  | @missing name presence schema slot fields members slots unfilled fills ih =>
    rcases List.mem_cons.1 mem with rfl | later
    · simpa [slotOf] using unfilled
    · simpa [slotOf, later_name distinct later] using
        ih (List.nodup_cons.1 distinct).2 later absent

theorem slots_eq (fills : Fills depth fields members slots)
    (distinct : (fields.map Field.name).Nodup) :
    (fieldReaders fields).map (fun field => slotOf fields slots field.name) = slots := by
  have step {first : Field} {fields : List Field} {slot : Option Datum}
      {slots : List (Option Datum)} (distinct : ((first :: fields).map Field.name).Nodup)
      (ih : (fieldReaders fields).map (fun field => slotOf fields slots field.name) = slots) :
      (fieldReaders (first :: fields)).map
        (fun field => slotOf (first :: fields) (slot :: slots) field.name) = slot :: slots := by
    have others : (fieldReaders fields).map
        (fun field => slotOf (first :: fields) (slot :: slots) field.name) = slots := by
      refine Eq.trans (List.map_congr_left fun field mem => ?_) ih
      simp [slotOf, later_name distinct mem]
    obtain ⟨name, presence, schema⟩ := first
    rw [fieldReaders, List.map_cons, others]
    simp [slotOf]
  induction fills with
  | nil => rfl
  | given takes fills ih => exact step distinct (ih (List.nodup_cons.1 distinct).2)
  | missing absent fills ih => exact step distinct (ih (List.nodup_cons.1 distinct).2)

/-- The table of the slots for some names. -/
def table (fields : List Field) (slots : List (Option Datum)) (names : List String) :
    List (String × Option Datum) :=
  names.map fun name => (name, slotOf fields slots name)

theorem lookup_table (fields : List Field) (slots : List (Option Datum)) (names : List String)
    (name : String) :
    (table fields slots names).lookup name =
      if name ∈ names then some (slotOf fields slots name) else none := by
  unfold table
  induction names with
  | nil => rfl
  | cons first rest ih =>
    rw [List.map_cons, Entries.lookup_cons, ih]
    by_cases same : name = first <;> simp [same]

theorem collected (fills : Fills depth fields members slots)
    (distinct : (fields.map Field.name).Nodup) {names : List String}
    (same : ∀ name, name ∈ names ↔ name ∈ members.map Prod.fst) :
    (fieldReaders fields).mapM (collect (table fields slots names)) = pure slots := by
  have each : ∀ field ∈ fieldReaders fields,
      collect (table fields slots names) (id field) = pure (slotOf fields slots field.name) := by
    intro field mem
    unfold collect
    rw [id, lookup_table]
    by_cases named : field.name ∈ names
    · rw [if_pos named]
      rfl
    · rw [if_neg named]
      exact fills.of_absent distinct mem fun among => named ((same field.name).2 among)
  have all := mapM_map_pure (fieldReaders fields) each
  rwa [List.map_id, fills.slots_eq distinct] at all

end Fills

/-- Members are read into the table of their slots, the last of them first. -/
theorem readMembers_of_fills {n : Nat} {fields : List Field} (slots : List (Option Datum))
    (members : List (String × Tree)) (found : List (String × Option Datum))
    (each : ∀ member ∈ members, ∃ field,
      (fieldReaders fields).find? (·.name = member.1) = some field ∧
        field.slot n member.2 = .ok (slotOf fields slots member.1))
    (distinct : (members.map Prod.fst).Nodup)
    (unseen : ∀ member ∈ members, found.lookup member.1 = none) :
    readMembers (fieldReaders fields) n found
        (members.map fun (key, value) => (.string (some key), value)) =
      .ok (Fills.table fields slots (members.map Prod.fst).reverse ++ found) := by
  induction members generalizing found with
  | nil => rfl
  | cons member rest ih =>
    obtain ⟨key, value⟩ := member
    obtain ⟨field, named, read⟩ := each (key, value) List.mem_cons_self
    rw [List.map_cons, List.nodup_cons] at distinct
    have others : ∀ member ∈ rest,
        List.lookup member.1 ((key, slotOf fields slots key) :: found) = none := by
      intro member mem
      have other : member.1 ≠ key := fun same =>
        distinct.1 (List.mem_map.2 ⟨member, mem, same⟩)
      rw [Entries.lookup_cons, if_neg other]
      exact unseen member (List.mem_cons_of_mem _ mem)
    have later := ih ((key, slotOf fields slots key) :: found)
      (fun member mem => each member (List.mem_cons_of_mem _ mem)) distinct.2 others
    have new : found.lookup key = none := unseen (key, value) List.mem_cons_self
    simp only at named read
    simp only [List.map_cons, readMembers, Token.key, named, new, read, Option.isSome_none,
      Bool.false_eq_true, if_false, bind, Except.bind]
    rw [later]
    simp [Fills.table]

/-- An object whose members fill the fields of a record, in any order, is taken as the record. -/
theorem takes_record {depth : Nat} {fields : List Field} {members : List (String × Tree)}
    {slots : List (Option Datum)} (fills : Fills depth fields members slots)
    (distinct : (fields.map Field.name).Nodup) {given : List (String × Tree)}
    (same : given.Perm members) :
    (record fields).Takes (depth + 1) (.ofMembers given) (.record slots) where
  written := Tree.written_ofMembers fun member mem => fills.written member (same.subset mem)
  present := by simp [Tree.ofMembers, Tree.null]
  read n bound := by
    obtain ⟨n, rfl⟩ : ∃ m, n = m + 1 := ⟨n - 1, by omega⟩
    have keys : (given.map Prod.fst).Nodup :=
      (same.map Prod.fst).nodup_iff.2 (distinct.sublist fills.names)
    have found := readMembers_of_fills slots (n := n) given []
      (fun member mem => fills.of_member distinct (by omega) (same.subset mem)) keys
      (fun _ _ => rfl)
    rw [List.append_nil] at found
    have given_names : ∀ name,
        name ∈ (given.map Prod.fst).reverse ↔ name ∈ members.map Prod.fst :=
      fun _ => List.mem_reverse.trans (same.map Prod.fst).mem_iff
    have collected := fills.collected distinct given_names
    simp only [Schema.read, readRecord, Tree.ofMembers, enter, found, collected, bind,
      Except.bind, pure, Except.pure]

end Schema

namespace Value

theorem itemTrees_eq (items : List Value) : itemTrees items = items.map tree := by
  induction items with
  | nil => rfl
  | cons item rest ih => rw [itemTrees, ih, List.map_cons]

theorem memberTrees_eq (members : List (String × Value)) :
    Tree.object (memberTrees members) =
      .ofMembers (members.map fun member => (member.1, member.2.tree)) := by
  have inner : memberTrees members =
      members.map fun member => (.string (some member.1), member.2.tree) := by
    induction members with
    | nil => rfl
    | cons member rest ih =>
      obtain ⟨key, value⟩ := member
      rw [memberTrees, ih, List.map_cons]
  rw [inner, Tree.ofMembers, List.map_map]
  rfl

end Value

namespace Schema

theorem read_raw_iff (n : Nat) (tree : Tree) (value : Value) :
    raw.read n tree = .ok (.raw value) ↔ Value.read n tree = .ok value := by
  unfold read
  cases Value.read n tree with
  | error fault => simp [Functor.map, Except.map]
  | ok found => simp [Functor.map, Except.map]

theorem takes_raw_text (s : String) : raw.Takes 0 (.ofString s) (.raw (.text s)) where
  written := Tree.written_ofString s
  present := by simp [Tree.ofString, Tree.null]
  read n _ := by cases n <;> rfl

theorem takes_raw_array {ι : Type} {depth : Nat} (items : List ι) (tree : ι → Tree)
    (value : ι → Value) (takes : ∀ i ∈ items, raw.Takes depth (tree i) (.raw (value i))) :
    raw.Takes (depth + 1) (.array (items.map tree)) (.raw (.array (items.map value))) where
  written := Tree.written_array fun _ mem => by
    obtain ⟨i, among, rfl⟩ := List.mem_map.1 mem
    exact (takes i among).written
  present := by simp [Tree.null]
  read n bound := by
    obtain ⟨n, rfl⟩ : ∃ m, n = m + 1 := ⟨n - 1, by omega⟩
    have inner := mapM_map_pure (f := Value.read n) items fun i mem =>
      (read_raw_iff n (tree i) (value i)).1 ((takes i mem).read n (by omega))
    rw [read_raw_iff]
    simp only [Value.read, inner, pure_bind]
    rfl

/-- The members of an object may come in any order, and are kept in that of their keys. -/
theorem takes_raw_object {ι : Type} {depth : Nat} (members : List ι) (name : ι → String)
    (tree : ι → Tree) (value : ι → Value)
    (takes : ∀ i ∈ members, raw.Takes depth (tree i) (.raw (value i)))
    {kept : List (String × Value)} (same : (members.map fun i => (name i, value i)).Perm kept)
    (ascending : Ascending kept) :
    raw.Takes (depth + 1) (.ofMembers (members.map fun i => (name i, tree i)))
      (.raw (.object kept)) where
  written := Tree.written_ofMembers fun _ mem => by
    obtain ⟨i, among, rfl⟩ := List.mem_map.1 mem
    exact (takes i among).written
  present := by simp [Tree.ofMembers, Tree.null]
  read n bound := by
    obtain ⟨n, rfl⟩ : ∃ m, n = m + 1 := ⟨n - 1, by omega⟩
    have each : ∀ i ∈ members,
        (do
          let key ← (Token.string (some (name i))).key
          let value ← Value.read n (tree i)
          return (key, value) : Except Fault (String × Value)) = pure (name i, value i) := by
      intro i mem
      rw [(read_raw_iff n (tree i) (value i)).1 ((takes i mem).read n (by omega))]
      rfl
    have inner : ((members.map fun i => (Token.string (some (name i)), tree i)).mapM
        fun member : Token × Tree => do
          let key ← member.1.key
          let value ← Value.read n member.2
          return (key, value)) = pure (members.map fun i => (name i, value i)) :=
      mapM_map_pure members each
    rw [read_raw_iff]
    simp only [Tree.ofMembers, List.map_map, Function.comp_def, Value.read, inner, pure_bind,
      Entries.insertAll_of_perm same ascending]
    rfl

end Schema

theorem Value.tree_object {ι : Type} (members : List ι) (name : ι → String) (value : ι → Value) :
    (Value.object (members.map fun i => (name i, value i))).tree =
      .ofMembers (members.map fun i => (name i, (value i).tree)) := by
  rw [Value.tree, memberTrees_eq, List.map_map]
  rfl

theorem Codec.takes_wrappedText (name s : String) :
    (Codec.wrappedText name).schema.Takes 1 (.ofMembers [(name, .ofString s)])
      ((Codec.wrappedText name).toDatum s) :=
  Schema.takes_record (.given (Schema.takes_text s) .nil) (by simp) (List.Perm.refl _)

/-- Whether every value comes back from its datum. -/
def Codec.Faithful {α : Type} (codec : Codec α) : Prop :=
  ∀ value, codec.ofDatum? (codec.toDatum value) = some value

namespace Codec.Faithful

variable {α : Type} {codec : Codec α}

theorem list (faithful : codec.Faithful) : codec.list.Faithful := by
  intro values
  have each : (values.map codec.toDatum).mapM codec.ofDatum? = pure (values.map id) :=
    mapM_map_pure values fun value _ => faithful value
  rwa [List.map_id] at each

theorem slot (faithful : codec.Faithful) (value : Option α) :
    codec.ofSlot? (value.map codec.toDatum) = some value := by
  cases value with
  | none => rfl
  | some value => simp [ofSlot?, faithful value]

end Codec.Faithful

/-- Whether a codec takes a tree as a value. -/
def Codec.Takes {α : Type} (codec : Codec α) (depth : Nat) (tree : Tree) (value : α) : Prop :=
  ∃ datum, codec.schema.Takes depth tree datum ∧ codec.ofDatum? datum = some value

theorem Codec.toTree_list {α : Type} (codec : Codec α) (values : List α) :
    codec.list.toTree values = .array (values.map codec.toTree) := by
  show Tree.array ((values.map codec.toDatum).map codec.schema.write) = _
  rw [List.map_map]
  rfl

namespace Codec.Takes

variable {α : Type} {codec : Codec α} {depth : Nat} {tree : Tree} {value : α}

theorem decodeString (takes : codec.Takes depth tree value) (bound : depth ≤ depthLimit) :
    codec.decodeString tree.text = .ok value := by
  obtain ⟨datum, taken, meaning⟩ := takes
  rw [Codec.decodeString_text codec taken.written.whole taken.written.legible, Codec.ofTree,
    taken.read depthLimit bound]
  simp only [bind, Except.bind, meaning]
  rfl

theorem decodeBytes (takes : codec.Takes depth tree value) (bound : depth ≤ depthLimit) :
    codec.decodeBytes tree.text.toUTF8 = .ok value := by
  rw [Codec.decodeBytes_toUTF8, takes.decodeString bound]

theorem list {ι : Type} (items : List ι) {tree : ι → Tree} {value : ι → α}
    (takes : ∀ i ∈ items, codec.Takes depth (tree i) (value i)) :
    codec.list.Takes (depth + 1) (.array (items.map tree)) (items.map value) := by
  have chosen (i : ι) : ∃ datum, i ∈ items →
      codec.schema.Takes depth (tree i) datum ∧ codec.ofDatum? datum = some (value i) := by
    by_cases mem : i ∈ items
    · obtain ⟨datum, taken⟩ := takes i mem
      exact ⟨datum, fun _ => taken⟩
    · exact ⟨default, fun h => absurd h mem⟩
  obtain ⟨datum, taken⟩ := Classical.axiomOfChoice chosen
  refine ⟨.list (items.map datum), Schema.takes_list items tree datum fun i mem =>
    (taken i mem).1, ?_⟩
  exact mapM_map_pure items fun i mem => (taken i mem).2

end Codec.Takes

end PublicIp.Json
