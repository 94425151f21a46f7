import PublicIp.Proofs.Json.Parsed

/-!
# Saying the same in other words

A record is read from its known members, in whatever order they come and among whatever others.
`Schema.Restates` lists the changes to a tree that leave all of them what they mean, at any object that
is read as a record, and `Schema.Repeats` the trees that give one of them twice. The former do not change
what is read (`Schema.Restates.read`), and the latter are not read at all (`Schema.Repeats.not_read`).
-/

namespace PublicIp.Json

namespace Schema

section Members

variable {fields : List FieldReader} {depth : Nat} {members others : List (String × Tree)}
  {datum : Datum}

theorem Admits.perm {names : List String} (admits : Admits names members)
    (same : members.Perm others) : Admits names others where
  once := ((same.map _).filter _).nodup_iff.1 admits.once
  whole member mem := admits.whole member (same.mem_iff.2 mem)

theorem readRecord_of_given (distinct : (fields.map FieldReader.name).Nodup)
    (admits : Admits (fields.map FieldReader.name) others)
    (kept : ∀ field ∈ fields, ∀ slot, field.given depth members = .ok slot →
      field.given depth others = .ok slot)
    (read : readRecord fields (depth + 1) (.ofMembers members) = .ok datum) :
    readRecord fields (depth + 1) (.ofMembers others) = .ok datum := by
  obtain ⟨-, slots, given, rfl⟩ := (readRecord_ofMembers_eq_ok_iff distinct).1 read
  refine (readRecord_ofMembers_eq_ok_iff distinct).2 ⟨admits, slots, ?_, rfl⟩
  rw [← given]
  refine mapM_congr fun field mem => ?_
  obtain ⟨slot, -, taken⟩ := exists_of_forall₂ (mapM_eq_ok_iff.1 given).flip field mem
  rw [taken, kept field mem slot taken]

theorem readRecord_perm (distinct : (fields.map FieldReader.name).Nodup)
    (same : members.Perm others)
    (read : readRecord fields (depth + 1) (.ofMembers members) = .ok datum) :
    readRecord fields (depth + 1) (.ofMembers others) = .ok datum := by
  have admits := ((readRecord_ofMembers_eq_ok_iff distinct).1 read).1
  refine readRecord_of_given distinct (admits.perm same) (fun field mem slot taken => ?_) read
  have known := List.mem_map_of_mem (f := FieldReader.name) mem
  have found : others.lookup field.name = members.lookup field.name :=
    Option.ext fun tree => by
      rw [admits.lookup_eq_some_iff known, (admits.perm same).lookup_eq_some_iff known, same.mem_iff]
  rw [FieldReader.given, found]
  exact taken

theorem readRecord_cons_unknown (distinct : (fields.map FieldReader.name).Nodup) {name : String}
    (unknown : name ∉ fields.map FieldReader.name) {tree : Tree} (whole : tree.whole = true)
    (read : readRecord fields (depth + 1) (.ofMembers members) = .ok datum) :
    readRecord fields (depth + 1) (.ofMembers ((name, tree) :: members)) = .ok datum := by
  have admits := ((readRecord_ofMembers_eq_ok_iff distinct).1 read).1
  refine readRecord_of_given distinct ((Admits.cons_unknown unknown).2 ⟨whole, admits⟩)
    (fun field mem slot taken => ?_) read
  have other : field.name ≠ name := fun same => unknown (same ▸ List.mem_map_of_mem mem)
  rw [FieldReader.given, Entries.lookup_cons, if_neg other]
  exact taken

theorem readRecord_ne_of_missing (distinct : (fields.map FieldReader.name).Nodup)
    {field : FieldReader} (mem : field ∈ fields) (missing : field.name ∉ members.map Prod.fst)
    (required : field.presence = .required) :
    readRecord fields (depth + 1) (.ofMembers members) ≠ .ok datum := by
  intro read
  obtain ⟨-, slots, given, -⟩ := (readRecord_ofMembers_eq_ok_iff distinct).1 read
  obtain ⟨slot, -, taken⟩ := exists_of_forall₂ (mapM_eq_ok_iff.1 given).flip field mem
  rw [FieldReader.given, lookup_eq_none_of_not_mem missing, FieldReader.take, FieldReader.absent,
    required] at taken
  cases taken

/-- What is given for a field can be replaced by something, or by nothing, that means the same. -/
theorem readRecord_replace (distinct : (fields.map FieldReader.name).Nodup) {field : FieldReader}
    (mem : field ∈ fields) {tree : Tree} (right : Option Tree)
    (means : ∀ slot, field.slot depth tree = .ok slot → field.take depth right = .ok slot)
    (read : readRecord fields (depth + 1) (.ofMembers ((field.name, tree) :: members)) = .ok datum) :
    readRecord fields (depth + 1) (.ofMembers ((right.map (field.name, ·)).toList ++ members)) =
      .ok datum := by
  have known := List.mem_map_of_mem (f := FieldReader.name) mem
  have admits := ((readRecord_ofMembers_eq_ok_iff distinct).1 read).1
  obtain ⟨new, others⟩ := (Admits.cons_known known).1 admits
  have own : ((right.map (field.name, ·)).toList ++ members).lookup field.name = right := by
    cases right with
    | none => exact lookup_eq_none_of_not_mem new
    | some tree => simp
  refine readRecord_of_given distinct ?_ (fun other among slot taken => ?_) read
  · cases right with
    | none => exact others
    | some tree => exact (Admits.cons_known known).2 ⟨new, others⟩
  · by_cases same : other.name = field.name
    · obtain rfl := eq_of_name_eq distinct mem among same
      rw [FieldReader.given, Entries.lookup_cons, if_pos rfl] at taken
      rw [FieldReader.given, own]
      exact means slot taken
    · rw [FieldReader.given, Entries.lookup_cons, if_neg same] at taken
      rw [FieldReader.given]
      cases right with
      | none => exact taken
      | some tree =>
        rw [Option.map_some, Option.toList_some, List.singleton_append, Entries.lookup_cons,
          if_neg same]
        exact taken

/-- An item of an array can be replaced by one that means the same for the field at its place. -/
theorem readItems_replace {before after : List Tree} {tree other : Tree} {field : FieldReader}
    (place : fields[before.length]? = some field)
    (means : ∀ slot, field.slot depth tree = .ok slot → field.slot depth other = .ok slot)
    {slots : List (Option Datum)}
    (read : readItems depth fields (before ++ tree :: after) = .ok slots) :
    readItems depth fields (before ++ other :: after) = .ok slots := by
  induction before generalizing fields slots with
  | nil =>
    cases fields with
    | nil => cases place
    | cons first rest =>
      obtain rfl : first = field := Option.some.inj place
      rw [List.nil_append, readItems, bind_eq_ok_iff] at read ⊢
      obtain ⟨slot, taken, later⟩ := read
      exact ⟨slot, means slot taken, later⟩
  | cons item before ih =>
    cases fields with
    | nil => cases place
    | cons first rest =>
      rw [List.cons_append, readItems, bind_eq_ok_iff] at read ⊢
      obtain ⟨slot, taken, later⟩ := read
      obtain ⟨others, remaining, last⟩ := bind_eq_ok_iff.1 later
      exact ⟨slot, taken, bind_eq_ok_iff.2 ⟨others, ih place remaining, last⟩⟩

theorem exists_slot_of_readItems {place : Nat} {items : List Tree} {field : FieldReader} {tree : Tree}
    (known : fields[place]? = some field) (given : items[place]? = some tree)
    {slots : List (Option Datum)} (read : readItems depth fields items = .ok slots) :
    ∃ slot, field.slot depth tree = .ok slot := by
  induction place generalizing fields items slots with
  | zero =>
    obtain ⟨others, rfl⟩ := List.head?_eq_some_iff.1 (List.head?_eq_getElem?.trans known)
    obtain ⟨later, rfl⟩ := List.head?_eq_some_iff.1 (List.head?_eq_getElem?.trans given)
    rw [readItems, bind_eq_ok_iff] at read
    obtain ⟨slot, taken, -⟩ := read
    exact ⟨slot, taken⟩
  | succ place ih =>
    cases fields with
    | nil => cases known
    | cons first fields =>
      cases items with
      | nil => cases given
      | cons item items =>
        rw [readItems, bind_eq_ok_iff] at read
        obtain ⟨_, -, later⟩ := read
        obtain ⟨others, remaining, -⟩ := bind_eq_ok_iff.1 later
        exact ih known given remaining

theorem mapM_replace {read : Tree → Except Fault Datum} {before after : List Tree}
    {tree other : Tree} (means : ∀ datum, read tree = .ok datum → read other = .ok datum)
    {found : List Datum} (each : (before ++ tree :: after).mapM read = .ok found) :
    (before ++ other :: after).mapM read = .ok found := by
  induction before generalizing found with
  | nil =>
    rw [List.nil_append, List.mapM_cons, bind_eq_ok_iff] at each ⊢
    obtain ⟨datum, first, later⟩ := each
    exact ⟨datum, means datum first, later⟩
  | cons item before ih =>
    rw [List.cons_append, List.mapM_cons, bind_eq_ok_iff] at each ⊢
    obtain ⟨datum, first, later⟩ := each
    obtain ⟨others, remaining, last⟩ := bind_eq_ok_iff.1 later
    exact ⟨datum, first, bind_eq_ok_iff.2 ⟨others, ih remaining, last⟩⟩

end Members

end Schema

namespace Field

def reader (field : Field) : Schema.FieldReader := ⟨field.name, field.presence, field.schema.read⟩

/-- Whether a tree gives a field what its absence means. -/
def Defaults (field : Field) (tree : Tree) : Prop :=
  ∃ slot, field.reader.slot field.schema.height tree = .ok slot ∧ field.reader.absent = .ok slot

end Field

namespace Schema

theorem fieldReaders_eq (fields : List Field) : fieldReaders fields = fields.map Field.reader := by
  induction fields with
  | nil => rfl
  | cons field rest ih =>
    obtain ⟨name, presence, schema⟩ := field
    rw [fieldReaders, ih]
    rfl

/-- Whether a schema is sound and reads the same at some depth as at any greater one. -/
structure Steady (schema : Schema) (depth : Nat) : Prop where
  sound : schema.sound = true
  fixed : schema.fixed = true
  enough : schema.height ≤ depth

namespace Steady

variable {depth : Nat}

theorem list {item : Schema} (steady : (Schema.list item).Steady depth) :
    ∃ n, depth = n + 1 ∧ item.Steady n := by
  obtain ⟨sound, fixed, enough⟩ := steady
  rw [height] at enough
  exact ⟨depth - 1, by omega, sound, fixed, by omega⟩

theorem of_mem {fields : List Field} (sound : soundFields fields = true)
    (fixed : fixedFields fields = true) (enough : heightFields fields ≤ depth) {field : Field}
    (mem : field ∈ fields) : field.schema.Steady depth := by
  induction fields with
  | nil => exact absurd mem List.not_mem_nil
  | cons first rest ih =>
    obtain ⟨name, presence, schema⟩ := first
    rw [soundFields, Bool.and_eq_true, Bool.and_eq_true] at sound
    rw [fixedFields, Bool.and_eq_true] at fixed
    rw [heightFields] at enough
    rcases List.mem_cons.1 mem with rfl | later
    · exact ⟨sound.1.2, fixed.1, Nat.le_trans (Nat.le_max_left ..) enough⟩
    · exact ih sound.2 fixed.2 (by omega) later

theorem record {fields : List Field} (steady : (Schema.record fields).Steady depth) :
    ∃ n, depth = n + 1 ∧ ((fieldReaders fields).map FieldReader.name).Nodup ∧
      ∀ field ∈ fields, field.reader ∈ fieldReaders fields ∧ field.schema.Steady n := by
  obtain ⟨sound, fixed, enough⟩ := steady
  rw [Schema.sound, Bool.and_eq_true, decide_eq_true_eq, ← map_name_fieldReaders] at sound
  rw [height] at enough
  refine ⟨depth - 1, by omega, sound.1, fun field mem => ⟨?_, of_mem sound.2 fixed (by omega) mem⟩⟩
  rw [fieldReaders_eq]
  exact List.mem_map_of_mem mem

/-- What a field holds does not depend on the depth. -/
theorem slot_eq {field : Field} (steady : field.schema.Steady depth) (tree : Tree) :
    field.reader.slot depth tree = field.reader.slot field.schema.height tree := by
  have even : Even depth field.schema.height field.reader := fun tree =>
    read_congr steady.fixed steady.enough (Nat.le_refl _) tree
  exact even.slot tree

end Steady

/-- Changes of a tree, at one object that is read as a record, that leave every known member what it
means. -/
inductive Restates : Schema → Tree → Tree → Prop
  | permuted {fields : List Field} {members others : List (String × Tree)}
      (same : members.Perm others) :
      Restates (.record fields) (.ofMembers members) (.ofMembers others)
  | inserted {fields : List Field} {before after : List (String × Tree)} {name : String}
      {tree : Tree} (unknown : name ∉ fields.map Field.name) (whole : tree.whole = true) :
      Restates (.record fields) (.ofMembers (before ++ after))
        (.ofMembers (before ++ (name, tree) :: after))
  | dropped {fields : List Field} {before after : List (String × Tree)} {field : Field}
      {tree : Tree} (known : field ∈ fields) (defaults : field.Defaults tree) :
      Restates (.record fields) (.ofMembers (before ++ (field.name, tree) :: after))
        (.ofMembers (before ++ after))
  /-- The object stands in a member of another one. -/
  | member {fields : List Field} {before after : List (String × Tree)} {field : Field}
      {tree other : Tree} (known : field ∈ fields) (inner : Restates field.schema tree other) :
      Restates (.record fields) (.ofMembers (before ++ (field.name, tree) :: after))
        (.ofMembers (before ++ (field.name, other) :: after))
  /-- The object stands in a record that is given as an array. -/
  | element {fields : List Field} {before after : List Tree} {field : Field} {tree other : Tree}
      (place : fields[before.length]? = some field) (inner : Restates field.schema tree other) :
      Restates (.record fields) (.array (before ++ tree :: after)) (.array (before ++ other :: after))
  | item {item : Schema} {before after : List Tree} {tree other : Tree}
      (inner : Restates item tree other) :
      Restates (.list item) (.array (before ++ tree :: after)) (.array (before ++ other :: after))

namespace Restates

variable {schema : Schema} {tree other : Tree}

theorem ne_null (restates : Restates schema tree other) : tree ≠ .null ∧ other ≠ .null := by
  cases restates <;> simp [Tree.ofMembers, Tree.null]

/-- What a field holds does not change if what is read does not. -/
theorem slot {field : Field} {depth : Nat} (restates : Restates field.schema tree other)
    (kept : ∀ datum, field.schema.read depth tree = .ok datum →
      field.schema.read depth other = .ok datum)
    {slot : Option Datum} (taken : field.reader.slot depth tree = .ok slot) :
    field.reader.slot depth other = .ok slot := by
  unfold FieldReader.slot at taken
  split at taken
  · exact absurd rfl restates.ne_null.1
  · obtain ⟨datum, read, rfl⟩ := map_eq_ok_iff.1 taken
    exact slot_of_read (kept datum read) fun _ => restates.ne_null.2

theorem read (restates : Restates schema tree other) {depth : Nat} (steady : schema.Steady depth)
    {datum : Datum} (read : schema.read depth tree = .ok datum) :
    schema.read depth other = .ok datum := by
  induction restates generalizing depth datum with
  | permuted same =>
    obtain ⟨n, rfl, distinct, -⟩ := steady.record
    exact readRecord_perm distinct same read
  | @inserted fields before after name tree unknown whole =>
    obtain ⟨n, rfl, distinct, -⟩ := steady.record
    rw [← map_name_fieldReaders] at unknown
    have front := readRecord_cons_unknown distinct unknown whole read
    exact readRecord_perm distinct List.perm_middle.symm front
  | @dropped fields before after field tree known defaults =>
    obtain ⟨n, rfl, distinct, each⟩ := steady.record
    obtain ⟨mem, steady⟩ := each field known
    have front := readRecord_perm distinct List.perm_middle read
    refine readRecord_replace distinct mem none (fun slot taken => ?_) front
    obtain ⟨own, origin, absent⟩ := defaults
    rw [steady.slot_eq, origin] at taken
    exact taken ▸ absent
  | @member fields before after field tree other known inner ih =>
    obtain ⟨n, rfl, distinct, each⟩ := steady.record
    obtain ⟨mem, steady⟩ := each field known
    have front := readRecord_perm distinct List.perm_middle read
    have replaced := readRecord_replace distinct mem (some other)
      (fun slot taken => inner.slot (fun datum => ih steady) taken) front
    exact readRecord_perm distinct List.perm_middle.symm replaced
  | @element fields before after field tree other place inner ih =>
    obtain ⟨n, rfl, distinct, each⟩ := steady.record
    obtain ⟨slots, items, rfl⟩ := map_eq_ok_iff.1 read
    have steady := (each field (List.mem_of_getElem? place)).2
    have standing : (fieldReaders fields)[before.length]? = some field.reader := by
      rw [fieldReaders_eq, List.getElem?_map, place]
      rfl
    have replaced := readItems_replace standing
      (fun slot taken => inner.slot (fun datum => ih steady) taken) items
    exact map_eq_ok_iff.2 ⟨slots, replaced, rfl⟩
  | @item item before after tree other inner ih =>
    obtain ⟨n, rfl, inside⟩ := steady.list
    obtain ⟨items, each, last⟩ := bind_eq_ok_iff.1 read
    exact bind_eq_ok_iff.2 ⟨items, mapM_replace (fun datum => ih inside) each, last⟩

end Restates

/-- Trees in which some object that is read as a record gives a known member twice. -/
inductive Repeats : Schema → Tree → Prop
  | here {fields : List Field} {members : List (String × Tree)} {field : Field}
      (known : field ∈ fields)
      (twice : [field.name, field.name].Sublist (members.map Prod.fst)) :
      Repeats (.record fields) (.ofMembers members)
  /-- The object stands in a member of another one. -/
  | member {fields : List Field} {members : List (String × Tree)} {field : Field} {tree : Tree}
      (known : field ∈ fields) (given : (field.name, tree) ∈ members)
      (inner : Repeats field.schema tree) : Repeats (.record fields) (.ofMembers members)
  /-- The object stands in a record that is given as an array. -/
  | element {fields : List Field} {items : List Tree} {place : Nat} {field : Field} {tree : Tree}
      (known : fields[place]? = some field) (given : items[place]? = some tree)
      (inner : Repeats field.schema tree) : Repeats (.record fields) (.array items)
  | item {item : Schema} {items : List Tree} {tree : Tree} (given : tree ∈ items)
      (inner : Repeats item tree) : Repeats (.list item) (.array items)

namespace Repeats

variable {schema : Schema} {tree : Tree}

theorem ne_null (repeats : Repeats schema tree) : tree ≠ .null := by
  cases repeats <;> simp [Tree.ofMembers, Tree.null]

theorem slot_ne {field : Field} {depth : Nat} (repeats : Repeats field.schema tree)
    (unread : ∀ datum, field.schema.read depth tree ≠ .ok datum) (slot : Option Datum) :
    field.reader.slot depth tree ≠ .ok slot := by
  intro taken
  unfold FieldReader.slot at taken
  split at taken
  · exact repeats.ne_null rfl
  · obtain ⟨datum, read, -⟩ := map_eq_ok_iff.1 taken
    exact unread datum read

theorem not_read (repeats : Repeats schema tree) {depth : Nat} (steady : schema.Steady depth)
    (datum : Datum) : schema.read depth tree ≠ .ok datum := by
  intro read
  induction repeats generalizing depth datum with
  | @here fields members field known twice =>
    obtain ⟨n, rfl, distinct, -⟩ := steady.record
    obtain ⟨admits, -⟩ := (readRecord_ofMembers_eq_ok_iff distinct).1 read
    have among : field.name ∈ fields.map Field.name := List.mem_map_of_mem known
    have kept := twice.filter (· ∈ fields.map Field.name)
    rw [map_name_fieldReaders] at admits
    rw [List.filter_cons_of_pos (by simpa using among),
      List.filter_cons_of_pos (by simpa using among)] at kept
    have one := admits.once.sublist kept
    simp at one
  | @member fields members field tree known given inner ih =>
    obtain ⟨n, rfl, distinct, each⟩ := steady.record
    obtain ⟨mem, inside⟩ := each field known
    obtain ⟨admits, slots, taken, -⟩ := (readRecord_ofMembers_eq_ok_iff distinct).1 read
    obtain ⟨slot, -, holds⟩ := exists_of_forall₂ (mapM_eq_ok_iff.1 taken).flip _ mem
    have name := List.mem_map_of_mem (f := FieldReader.name) mem
    rw [FieldReader.given, (admits.lookup_eq_some_iff name).2 given] at holds
    exact inner.slot_ne (fun datum => ih inside datum) slot holds
  | @element fields items place field tree known given inner ih =>
    obtain ⟨n, rfl, distinct, each⟩ := steady.record
    have inside := (each field (List.mem_of_getElem? known)).2
    obtain ⟨slots, taken, -⟩ := map_eq_ok_iff.1 read
    have standing : (fieldReaders fields)[place]? = some field.reader := by
      rw [fieldReaders_eq, List.getElem?_map, known]
      rfl
    obtain ⟨slot, holds⟩ := exists_slot_of_readItems standing given taken
    exact inner.slot_ne (fun datum => ih inside datum) slot holds
  | @item item items tree given inner ih =>
    obtain ⟨n, rfl, inside⟩ := steady.list
    obtain ⟨found, each, -⟩ := bind_eq_ok_iff.1 read
    obtain ⟨datum, -, origin⟩ := exists_of_forall₂ (mapM_eq_ok_iff.1 each).flip tree given
    exact ih inside datum origin

end Repeats

end Schema

end PublicIp.Json
