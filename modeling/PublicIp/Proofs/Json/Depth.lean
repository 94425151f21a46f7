import PublicIp.Proofs.Json.Fitting

/-!
# Depth that does not matter

A schema that keeps nothing as it comes opens no more containers than its height, so it reads the same
at any depth that is enough for that (`Schema.read_congr`). Thus a part of a message is read as it is
on its own (`Codec.reads_congr`).
-/

namespace PublicIp.Json

namespace Schema

mutual

/-- Whether nothing is kept as it comes. -/
def fixed : Schema → Bool
  | .raw => false
  | .list item => item.fixed
  | .record fields => fixedFields fields
  | _ => true

def fixedFields : List Field → Bool
  | [] => true
  | ⟨_, _, schema⟩ :: rest => schema.fixed && fixedFields rest

end

/-- Whether a field reads the same at two depths. -/
def Even (n m : Nat) (field : FieldReader) : Prop := ∀ tree, field.read n tree = field.read m tree

variable {n m : Nat} {fields : List FieldReader}

theorem Even.slot {field : FieldReader} (even : Even n m field) (tree : Tree) :
    field.slot n tree = field.slot m tree := by
  unfold FieldReader.slot
  split
  · rfl
  · rw [even]

theorem readItems_congr (even : ∀ field ∈ fields, Even n m field) (items : List Tree) :
    readItems n fields items = readItems m fields items := by
  induction fields generalizing items with
  | nil => cases items <;> rfl
  | cons field rest ih =>
    have others := ih fun other mem => even other (List.mem_cons_of_mem _ mem)
    cases items with
    | nil => rw [readItems, readItems, others]
    | cons item items =>
      rw [readItems, readItems, others, (even field List.mem_cons_self).slot]

theorem readMembers_congr (even : ∀ field ∈ fields, Even n m field) (members : List (Token × Tree))
    (found : List (String × Option Datum)) :
    readMembers fields n found members = readMembers fields m found members := by
  induction members generalizing found with
  | nil => rfl
  | cons member rest ih =>
    obtain ⟨token, tree⟩ := member
    rw [readMembers, readMembers]
    refine congrArg _ (funext fun key => ?_)
    split
    · rw [ih]
    · next field named =>
      rw [(even field (List.mem_of_find?_eq_some named)).slot tree]
      simp only [ih]

theorem readRecord_congr (even : ∀ field ∈ fields, Even n m field) (tree : Tree) :
    readRecord fields (n + 1) tree = readRecord fields (m + 1) tree := by
  match tree with
  | .leaf token => rfl
  | .array items => simp only [readRecord, enter, readItems_congr even]
  | .object members => simp only [readRecord, enter, readMembers_congr even]

mutual

/-- A schema that keeps nothing as it comes reads the same wherever there is depth enough. -/
theorem read_congr {schema : Schema} (regular : schema.fixed = true) {n m : Nat}
    (left : schema.height ≤ n) (right : schema.height ≤ m) (tree : Tree) :
    schema.read n tree = schema.read m tree := by
  match schema with
  | .text | .flag | .count => rfl
  | .choice names =>
    obtain ⟨n, rfl⟩ : ∃ k, n = k + 1 := ⟨n - 1, by rw [height] at left; omega⟩
    obtain ⟨m, rfl⟩ : ∃ k, m = k + 1 := ⟨m - 1, by rw [height] at right; omega⟩
    rfl
  | .map =>
    obtain ⟨n, rfl⟩ : ∃ k, n = k + 1 := ⟨n - 1, by rw [height] at left; omega⟩
    obtain ⟨m, rfl⟩ : ∃ k, m = k + 1 := ⟨m - 1, by rw [height] at right; omega⟩
    rfl
  | .list item =>
    rw [height] at left right
    rw [fixed] at regular
    obtain ⟨n, rfl⟩ : ∃ k, n = k + 1 := ⟨n - 1, by omega⟩
    obtain ⟨m, rfl⟩ : ∃ k, m = k + 1 := ⟨m - 1, by omega⟩
    match tree with
    | .leaf token | .object members => rfl
    | .array items =>
      have same : items.mapM (item.read n) = items.mapM (item.read m) :=
        mapM_congr fun tree _ => read_congr regular (by omega) (by omega) tree
      simp only [read, readList, enter, same]
  | .record fields =>
    rw [height] at left right
    rw [fixed] at regular
    obtain ⟨n, rfl⟩ : ∃ k, n = k + 1 := ⟨n - 1, by omega⟩
    obtain ⟨m, rfl⟩ : ∃ k, m = k + 1 := ⟨m - 1, by omega⟩
    exact readRecord_congr (even_fieldReaders regular (by omega) (by omega)) tree

theorem even_fieldReaders {fields : List Field} (regular : fixedFields fields = true) {n m : Nat}
    (left : heightFields fields ≤ n) (right : heightFields fields ≤ m) :
    ∀ field ∈ fieldReaders fields, Even n m field := by
  match fields with
  | [] => exact fun _ mem => absurd mem List.not_mem_nil
  | ⟨name, presence, schema⟩ :: fields =>
    rw [fixedFields, Bool.and_eq_true] at regular
    rw [heightFields] at left right
    intro field mem
    rcases List.mem_cons.1 mem with rfl | later
    · exact fun tree => read_congr regular.1 (by omega) (by omega) tree
    · exact even_fieldReaders regular.2 (by omega) (by omega) field later

end

end Schema

namespace Codec

variable {α : Type} {codec : Codec α}

/-- Whether a codec reads a tree as a value, at some depth. -/
def Reads (codec : Codec α) (depth : Nat) (tree : Tree) (value : α) : Prop :=
  ∃ datum, codec.schema.read depth tree = .ok datum ∧ codec.ofDatum? datum = some value

theorem reads_congr (regular : codec.schema.fixed = true) {n m : Nat}
    (left : codec.schema.height ≤ n) (right : codec.schema.height ≤ m) {tree : Tree} {value : α} :
    codec.Reads n tree value ↔ codec.Reads m tree value := by
  rw [Reads, Reads, Schema.read_congr regular left right]

theorem ofTree_eq_ok_iff {tree : Tree} {value : α} :
    codec.ofTree tree = .ok value ↔ codec.Reads depthLimit tree value := by
  rw [ofTree, bind_eq_ok_iff]
  refine exists_congr fun datum => and_congr_right fun _ => ?_
  cases codec.ofDatum? datum <;> simp [pure, Except.pure]

theorem decodeString_text_iff {tree : Tree} (written : tree.Written) {value : α} :
    codec.decodeString tree.text = .ok value ↔ codec.Reads depthLimit tree value := by
  rw [decodeString_text codec written.whole written.legible, ofTree_eq_ok_iff]

theorem reads_list_iff {depth : Nat} {trees : List Tree} {values : List α} :
    codec.list.Reads (depth + 1) (.array trees) values ↔
      List.Forall₂ (codec.Reads depth) trees values := by
  have opened : codec.list.Reads (depth + 1) (.array trees) values ↔
      ∃ items, trees.mapM (codec.schema.read depth) = .ok items ∧
        items.mapM codec.ofDatum? = some values := by
    constructor
    · rintro ⟨datum, read, meaning⟩
      obtain ⟨items, inner, same⟩ := bind_eq_ok_iff.1 read
      obtain rfl := Except.ok.inj same
      exact ⟨items, inner, meaning⟩
    · rintro ⟨items, inner, meaning⟩
      exact ⟨.list items, bind_eq_ok_iff.2 ⟨items, inner, rfl⟩, meaning⟩
  rw [opened]
  simp only [mapM_eq_ok_iff, mapM_eq_some_iff]
  constructor
  · rintro ⟨items, read, meaning⟩
    clear opened
    induction read generalizing values with
    | nil =>
      cases meaning
      exact .nil
    | cons first _ ih =>
      obtain _ | ⟨known, others⟩ := meaning
      exact .cons ⟨_, first, known⟩ (ih others)
  · intro each
    clear opened
    induction each with
    | nil => exact ⟨[], .nil, .nil⟩
    | cons first _ ih =>
      obtain ⟨datum, read, meaning⟩ := first
      obtain ⟨items, others, later⟩ := ih
      exact ⟨datum :: items, .cons read others, .cons meaning later⟩

end Codec

end PublicIp.Json
