import PublicIp.Proofs.Json.Objects

/-!
# Data that fit a schema

A schema reads only data of its own shape (`Schema.fits_of_read`), and writes data of that shape so
that it reads them again (`Schema.read_write`). The shape is `Schema.Fits`, one case for each kind of
schema; what it asks of the values that are kept as they come is a parameter, since such values are
read again only if their numbers are whole.

A schema must be `Schema.sound` for that: the fields of a record have different names, and what an
absent field means is a datum of the field's schema, a blank one if it is hidden.
-/

namespace PublicIp.Json

/-- Whether `null` counts as absence. -/
def Presence.isOptional : Presence → Bool
  | .optional _ => true
  | _ => false

namespace Schema

mutual

/-- How deep containers stand in what a schema reads, apart from values that are kept as they come. -/
def height : Schema → Nat
  | .choice _ | .map => 1
  | .list item => item.height + 1
  | .record fields => heightFields fields + 1
  | _ => 0

def heightFields : List Field → Nat
  | [] => 0
  | ⟨_, _, schema⟩ :: rest => max schema.height (heightFields rest)

end

/-- Whether a datum without inner parts is of the shape of a schema. -/
def isPlain : Schema → Datum → Bool
  | .text, .text _ => true
  | .flag, .flag _ => true
  | .choice names, .choice name => name ∈ names
  | .map, .map _ => true
  | .list _, .list [] => true
  | _, _ => false

/-- Whether what the absence of a field means is of the shape of the field, and is blank if it is not
written. -/
def stands : Presence → Schema → Bool
  | .defaulted datum hidden, schema => schema.isPlain datum && (!hidden || isBlank datum)
  | _, _ => true

mutual

/-- Whether records have different names for their fields, and mean data of the right shape by absent
ones. -/
def sound : Schema → Bool
  | .list item => item.sound
  | .record fields => decide (fields.map Field.name).Nodup && soundFields fields
  | _ => true

def soundFields : List Field → Bool
  | [] => true
  | ⟨_, presence, schema⟩ :: rest => stands presence schema && schema.sound && soundFields rest

end

/-- Whether a slot is right for a field: it may be empty only if the field is optional, and such a
field does not hold `null`. -/
def Suits (presence : Presence) (fits : Datum → Prop) : Option Datum → Prop
  | none => presence.isOptional = true
  | some datum => fits datum ∧ (presence.isOptional = true → datum ≠ .raw .null)

mutual

/-- Whether a datum has the shape of a schema, within some depth. -/
def Fits (keeps : Nat → Value → Prop) : Schema → Nat → Datum → Prop
  | .text, _, .text _ => True
  | .flag, _, .flag _ => True
  | .count, _, .count n => n < UInt32.size
  | .choice names, _, .choice name => name ∈ names
  | .raw, depth, .raw value => keeps depth value
  | .map, depth, .map _ => 0 < depth
  | .list item, depth, .list items =>
    0 < depth ∧ ∀ datum ∈ items, Fits keeps item (depth - 1) datum
  | .record fields, depth, .record slots => 0 < depth ∧ FitsFields keeps fields (depth - 1) slots
  | _, _, _ => False

def FitsFields (keeps : Nat → Value → Prop) : List Field → Nat → List (Option Datum) → Prop
  | [], _, [] => True
  | ⟨_, presence, schema⟩ :: fields, depth, slot :: slots =>
    Suits presence (Fits keeps schema depth) slot ∧ FitsFields keeps fields depth slots
  | _, _, _ => False

end

variable {keeps : Nat → Value → Prop}

theorem write_ne_null {schema : Schema} {depth : Nat} {datum : Datum}
    (fits : schema.Fits keeps depth datum) (other : datum ≠ .raw .null) :
    schema.write datum ≠ .null := by
  cases schema <;> cases datum <;> simp only [Fits] at fits
  case raw.raw value =>
    cases value <;> simp_all [write, Value.tree, Tree.null, Tree.ofBool, Tree.ofString]
  all_goals simp [write, Tree.null, Tree.ofBool, Tree.ofString, Tree.ofNat, Tree.ofMembers]

mutual

theorem written_write {schema : Schema} {depth : Nat} {datum : Datum}
    (fits : schema.Fits keeps depth datum) : (schema.write datum).Written := by
  match schema, datum with
  | .text, .text s => exact Tree.written_ofString s
  | .flag, .flag b => exact Tree.written_ofBool b
  | .count, .count n => exact ⟨rfl, Tree.legible_leaf (Number.natural n).legible⟩
  | .choice _, .choice name => exact Tree.written_ofString name
  | .raw, .raw value => exact value.written_tree
  | .map, .map entries =>
    refine Tree.written_ofMembers fun member mem => ?_
    obtain ⟨⟨key, s⟩, -, rfl⟩ := List.mem_map.1 mem
    exact Tree.written_ofString s
  | .list item, .list items =>
    rw [Fits] at fits
    refine Tree.written_array fun tree mem => ?_
    obtain ⟨datum, among, rfl⟩ := List.mem_map.1 mem
    exact written_write (fits.2 datum among)
  | .record fields, .record slots =>
    rw [Fits] at fits
    exact Tree.written_ofMembers (written_writeFields fits.2)

theorem written_writeFields {fields : List Field} {depth : Nat} {slots : List (Option Datum)}
    (fits : FitsFields keeps fields depth slots) :
    ∀ member ∈ writeFields fields slots, member.2.Written := by
  match fields, slots with
  | [], [] => simp [writeFields]
  | ⟨name, presence, schema⟩ :: fields, none :: slots =>
    rw [FitsFields] at fits
    rw [writeFields]
    exact written_writeFields fits.2
  | ⟨name, presence, schema⟩ :: fields, some datum :: slots =>
    rw [FitsFields] at fits
    rw [writeFields]
    split
    · exact written_writeFields fits.2
    · intro member mem
      rcases List.mem_cons.1 mem with rfl | later
      · exact written_write fits.1.1
      · exact written_writeFields fits.2 member later

end

theorem eq_of_hides {presence : Presence} {schema : Schema} {depth : Nat} {datum : Datum}
    (stood : stands presence schema = true) (fits : schema.Fits keeps depth datum)
    (hidden : hides presence datum = true) : ∃ hide, presence = .defaulted datum hide := by
  match presence with
  | .required | .optional _ | .defaulted _ false => cases hidden
  | .defaulted other true =>
    simp only [stands, Bool.and_eq_true, Bool.not_true, Bool.false_or] at stood
    have blank : isBlank datum = true := hidden
    refine ⟨true, ?_⟩
    cases datum with
    | text s =>
      cases schema <;> simp only [Fits] at fits
      cases other <;> simp_all [isPlain, isBlank]
    | map entries =>
      cases schema <;> simp only [Fits] at fits
      cases other with
      | map others =>
        have same : others.entries = entries.entries := by
          simp_all [isBlank, OrderedMap.isEmpty]
        rw [OrderedMap.ext same]
      | _ => simp_all [isPlain]
    | _ => cases blank

theorem names_writeFields (fields : List Field) (slots : List (Option Datum)) :
    ((writeFields fields slots).map Prod.fst).Sublist (fields.map Field.name) := by
  induction fields generalizing slots with
  | nil => cases slots <;> simp [writeFields]
  | cons field rest ih =>
    obtain ⟨name, presence, schema⟩ := field
    match slots with
    | [] => simp [writeFields]
    | none :: slots =>
      rw [writeFields]
      exact (ih slots).cons _
    | some datum :: slots =>
      rw [writeFields]
      split
      · exact (ih slots).cons _
      · exact (ih slots).cons_cons _

/-- What is written of a record gives each field once. -/
theorem admits_writeFields {fields : List Field} (distinct : (fields.map Field.name).Nodup)
    (slots : List (Option Datum)) : Admits (fields.map Field.name) (writeFields fields slots) where
  once := (distinct.sublist (names_writeFields fields slots)).filter _
  whole _ mem unknown := absurd
    ((names_writeFields fields slots).subset (List.mem_map_of_mem mem)) unknown

/-- What is written for a field. -/
def written (field : Field) : Option Datum → Option Tree
  | none => none
  | some datum => if hides field.presence datum then none else some (field.schema.write datum)

theorem writeFields_cons (field : Field) (fields : List Field) (slot : Option Datum)
    (slots : List (Option Datum)) :
    writeFields (field :: fields) (slot :: slots) =
      ((written field slot).map fun tree => (field.name, tree)).toList ++
        writeFields fields slots := by
  obtain ⟨name, presence, schema⟩ := field
  cases slot with
  | none => rfl
  | some datum =>
    rw [writeFields, written]
    split <;> rfl

/-- What is written for a field is found by its name, behind members with other names. -/
theorem lookup_append_writeFields {fields : List Field} (distinct : (fields.map Field.name).Nodup)
    {slots : List (Option Datum)} (enough : fields.length = slots.length)
    (before : List (String × Tree)) (apart : ∀ field ∈ fields, field.name ∉ before.map Prod.fst) :
    List.Forall₂ (fun field slot =>
      (before ++ writeFields fields slots).lookup field.name = written field slot) fields slots := by
  induction fields generalizing slots before with
  | nil =>
    obtain rfl := List.length_eq_zero_iff.1 enough.symm
    exact .nil
  | cons field fields ih =>
    obtain ⟨slot, slots, rfl⟩ := List.exists_cons_of_length_eq_add_one enough.symm
    rw [List.map_cons, List.nodup_cons] at distinct
    have later : field.name ∉ (writeFields fields slots).map Prod.fst := fun among =>
      distinct.1 ((names_writeFields fields slots).subset among)
    have tail := ih distinct.2 (Nat.succ.inj enough)
      (before ++ ((written field slot).map fun tree => (field.name, tree)).toList)
      fun other mem => by
        rw [List.map_append, List.mem_append, not_or]
        refine ⟨apart other (List.mem_cons_of_mem _ mem), ?_⟩
        cases written field slot with
        | none => exact List.not_mem_nil
        | some tree =>
          have different : other.name ≠ field.name := fun same =>
            distinct.1 (same ▸ List.mem_map_of_mem mem)
          simpa using different
    rw [List.append_assoc, ← writeFields_cons] at tail
    refine .cons ?_ tail
    rw [writeFields_cons, List.lookup_append,
      lookup_eq_none_of_not_mem (apart field List.mem_cons_self), List.lookup_append,
      lookup_eq_none_of_not_mem later]
    cases written field slot <;> simp

theorem lookup_writeFields {fields : List Field} (distinct : (fields.map Field.name).Nodup)
    {slots : List (Option Datum)} (enough : fields.length = slots.length) :
    List.Forall₂ (fun field slot =>
      (writeFields fields slots).lookup field.name = written field slot) fields slots :=
  lookup_append_writeFields distinct enough [] (by simp)

theorem FitsFields.length_eq {fields : List Field} {depth : Nat} {slots : List (Option Datum)}
    (fits : FitsFields keeps fields depth slots) : fields.length = slots.length := by
  induction fields generalizing slots with
  | nil =>
    cases slots with
    | nil => rfl
    | cons slot slots => exact False.elim fits
  | cons field fields ih =>
    obtain ⟨name, presence, schema⟩ := field
    cases slots with
    | nil => exact False.elim fits
    | cons slot slots =>
      rw [FitsFields] at fits
      rw [List.length_cons, List.length_cons, ih fits.2]

theorem slot_of_read {field : FieldReader} {depth : Nat} {tree : Tree} {datum : Datum}
    (read : field.read depth tree = .ok datum)
    (present : field.presence.isOptional = true → tree ≠ .null) :
    field.slot depth tree = .ok (some datum) := by
  unfold FieldReader.slot
  split
  · next optional =>
    exact absurd rfl (present (by rw [optional]; rfl))
  · rw [read]
    rfl

theorem read_map {depth : Nat} (entries : OrderedMap String String) (bound : 0 < depth) :
    Schema.map.read depth (Schema.map.write (.map entries)) = .ok (.map entries) := by
  obtain ⟨depth, rfl⟩ : ∃ n, depth = n + 1 := ⟨depth - 1, by omega⟩
  have each : (entries.entries.map fun entry =>
      (Token.string (some entry.1), Tree.ofString entry.2)).mapM (fun member : Token × Tree => do
        let key ← member.1.key
        let value ← textOfTree member.2
        return (key, value)) = (.ok (entries.entries.map id) : Except Fault _) :=
    mapM_map_pure entries.entries fun _ _ => rfl
  rw [List.map_id] at each
  simp only [write, read, readMap, Tree.ofMembers, List.map_map, Function.comp_def, enter]
  rw [each]
  simp [OrderedMap.ofList_entries, pure, Except.pure, bind, Except.bind]

theorem mapM_given_eq {readers : List FieldReader} {fields : List Field}
    (same : readers.map FieldReader.name = fields.map Field.name) {slots : List (Option Datum)}
    {members : List (String × Tree)}
    (found : List.Forall₂ (fun field slot => members.lookup field.name = written field slot)
      fields slots) (depth : Nat) :
    readers.mapM (·.given depth members) =
      (readers.zip (List.zipWith written fields slots)).mapM fun (reader, tree) =>
        reader.take depth tree := by
  induction found generalizing readers with
  | nil =>
    obtain rfl : readers = [] := by simpa using same
    rfl
  | @cons field slot fields slots first _ ih =>
    match readers with
    | [] => cases same
    | reader :: readers =>
      rw [List.map_cons, List.map_cons, List.cons.injEq] at same
      have head : reader.given depth members = reader.take depth (written field slot) := by
        rw [FieldReader.given, same.1, first]
      rw [List.mapM_cons, List.zipWith_cons_cons, List.zip_cons_cons, List.mapM_cons, ih same.2,
        head]

/-- What one record writes is read by another one with the same names field by field. -/
theorem readRecord_writeFields_iff {readers : List FieldReader} {fields : List Field}
    (same : readers.map FieldReader.name = fields.map Field.name)
    (distinct : (fields.map Field.name).Nodup) {slots : List (Option Datum)}
    (enough : fields.length = slots.length) {depth : Nat} {datum : Datum} :
    readRecord readers (depth + 1) (.ofMembers (writeFields fields slots)) = .ok datum ↔
      ∃ results, List.Forall₂ (fun (given : FieldReader × Option Tree) result =>
          given.1.take depth given.2 = .ok result)
        (readers.zip (List.zipWith written fields slots)) results ∧ datum = .record results := by
  have admits := admits_writeFields distinct slots
  have opened := mapM_given_eq same (lookup_writeFields distinct enough) depth
  rw [← same] at admits distinct
  rw [readRecord_ofMembers_eq_ok_iff distinct, opened]
  simp only [admits, true_and, mapM_eq_ok_iff]

/-- Whether values that are kept are read again from what they are written as. -/
def Rereads (keeps : Nat → Value → Prop) : Prop :=
  ∀ depth value, keeps depth value → Value.read depth value.tree = .ok value

mutual

/-- A datum that fits is read again from what it is written as. -/
theorem read_write (again : Rereads keeps) {schema : Schema} {depth : Nat} {datum : Datum}
    (sound : schema.sound = true) (fits : schema.Fits keeps depth datum) :
    schema.read depth (schema.write datum) = .ok datum := by
  match schema, datum with
  | .text, .text s => rfl
  | .flag, .flag b => rfl
  | .count, .count n =>
    rw [Fits] at fits
    have bound : n < UInt64.size := by
      have : UInt32.size < UInt64.size := by decide
      omega
    simp [write, read, readCount, Tree.ofNat, Number.numeral, Numeral.number?, bound, fits]
  | .choice names, .choice name =>
    rw [Fits] at fits
    simp [write, read, readChoice, readName, Tree.ofString, fits]
  | .raw, .raw value =>
    rw [Fits] at fits
    rw [write, read_raw_iff]
    exact again depth value fits
  | .map, .map entries =>
    rw [Fits] at fits
    exact read_map entries fits
  | .list item, .list items =>
    rw [Fits] at fits
    rw [Schema.sound] at sound
    obtain ⟨depth, rfl⟩ : ∃ n, depth = n + 1 := ⟨depth - 1, by omega⟩
    have each : (items.map item.write).mapM (item.read depth) = .ok (items.map id) :=
      mapM_map_pure items fun datum mem => read_write again sound (fits.2 datum mem)
    rw [List.map_id] at each
    simp only [write, read, readList, enter, each]
    rfl
  | .record fields, .record slots =>
    rw [Fits] at fits
    rw [Schema.sound, Bool.and_eq_true, decide_eq_true_eq] at sound
    obtain ⟨depth, rfl⟩ : ∃ n, depth = n + 1 := ⟨depth - 1, by omega⟩
    rw [write, read]
    exact (readRecord_writeFields_iff (map_name_fieldReaders fields) sound.1 fits.2.length_eq).2
      ⟨slots, take_written again sound.2 fits.2, rfl⟩

theorem take_written (again : Rereads keeps) {fields : List Field} {depth : Nat}
    {slots : List (Option Datum)} (sound : soundFields fields = true)
    (fits : FitsFields keeps fields depth slots) :
    List.Forall₂ (fun (given : FieldReader × Option Tree) result =>
        given.1.take depth given.2 = .ok result)
      ((fieldReaders fields).zip (List.zipWith written fields slots)) slots := by
  match fields, slots with
  | [], [] => exact .nil
  | ⟨name, presence, schema⟩ :: fields, slot :: slots =>
    rw [soundFields, Bool.and_eq_true, Bool.and_eq_true] at sound
    obtain ⟨suits, fits⟩ := fits
    refine .cons ?_ (take_written again sound.2 fits)
    match slot with
    | none =>
      show FieldReader.absent _ = _
      cases presence <;> first | rfl | cases suits
    | some datum =>
      rw [written]
      split
      · next hidden =>
        obtain ⟨hide, rfl⟩ := eq_of_hides sound.1.1 suits.1 hidden
        rfl
      · exact slot_of_read (read_write again sound.1.2 suits.1) fun optional =>
          write_ne_null suits.1 (suits.2 optional)

end

/-- Whether a value is one that was read. -/
def Kept (depth : Nat) (value : Value) : Prop := ∃ tree, Value.read depth tree = .ok value

/-- A slot of a field comes from what is given for the field, or from its absence. -/
def Origin (depth : Nat) (field : FieldReader) (slot : Option Datum) : Prop :=
  (∃ tree, field.slot depth tree = .ok slot) ∨ field.absent = .ok slot

theorem origin_of_beyond {field : FieldReader} {depth : Nat} {slot : Option Datum}
    (beyond : field.beyond = .ok slot) : Origin depth field slot := by
  refine .inr ?_
  unfold FieldReader.beyond at beyond
  unfold FieldReader.absent
  split at beyond <;> simp_all

theorem origin_of_readItems {depth : Nat} {fields : List FieldReader} {items : List Tree}
    {slots : List (Option Datum)} (read : readItems depth fields items = .ok slots) :
    List.Forall₂ (Origin depth) fields slots := by
  induction fields generalizing items slots with
  | nil =>
    cases items with
    | nil =>
      obtain rfl := Except.ok.inj read
      exact .nil
    | cons item items => cases read
  | cons field rest ih =>
    cases items with
    | nil =>
      rw [readItems, bind_eq_ok_iff] at read
      obtain ⟨slot, first, remaining⟩ := read
      obtain ⟨others, later, same⟩ := bind_eq_ok_iff.1 remaining
      obtain rfl := Except.ok.inj same
      exact .cons (origin_of_beyond first) (ih later)
    | cons item items =>
      rw [readItems, bind_eq_ok_iff] at read
      obtain ⟨slot, first, remaining⟩ := read
      obtain ⟨others, later, same⟩ := bind_eq_ok_iff.1 remaining
      obtain rfl := Except.ok.inj same
      exact .cons (.inl ⟨item, first⟩) (ih later)

/-- The slots of a record that was read. -/
theorem origin_of_readRecord {fields : List FieldReader}
    (distinct : (fields.map FieldReader.name).Nodup) {depth : Nat} {tree : Tree} {datum : Datum}
    (read : readRecord fields depth tree = .ok datum) :
    0 < depth ∧ ∃ slots, datum = .record slots ∧
      List.Forall₂ (Origin (depth - 1)) fields slots := by
  match depth, tree with
  | _, .leaf token => cases read
  | 0, .array _ | 0, .object _ => cases read
  | depth + 1, .array items =>
    obtain ⟨slots, inner, rfl⟩ := map_eq_ok_iff.1 read
    exact ⟨by omega, slots, rfl, origin_of_readItems inner⟩
  | depth + 1, .object members =>
    obtain ⟨named, same⟩ := exists_ofMembers distinct read
    rw [same] at read
    obtain ⟨-, slots, given, rfl⟩ := (readRecord_ofMembers_eq_ok_iff distinct).1 read
    refine ⟨by omega, slots, rfl, (mapM_eq_ok_iff.1 given).imp fun field slot holds => ?_⟩
    unfold FieldReader.given FieldReader.take at holds
    split at holds
    · exact .inl ⟨_, holds⟩
    · exact .inr holds

theorem fits_of_isPlain {schema : Schema} {depth : Nat} {datum : Datum}
    (plain : schema.isPlain datum = true) (bound : schema.height ≤ depth) :
    schema.Fits keeps depth datum := by
  match schema, datum with
  | .text, .text _ | .flag, .flag _ => trivial
  | .choice names, .choice name => simpa [isPlain, Fits] using plain
  | .map, .map _ => exact bound
  | .list item, .list [] =>
    rw [height] at bound
    simp only [Fits]
    exact ⟨by omega, fun _ mem => absurd mem List.not_mem_nil⟩

theorem eq_null_of_read {depth : Nat} {tree : Tree}
    (read : Value.read depth tree = .ok .null) : tree = .null := by
  match depth, tree with
  | depth, .leaf token =>
    rw [Value.read_leaf] at read
    cases token with
    | null => rfl
    | number numeral =>
      rw [Value.ofToken] at read
      split at read <;> cases read
    | string content => cases content <;> cases read
    | _ => cases read
  | 0, .array _ | 0, .object _ => cases read
  | depth + 1, .array items =>
    obtain ⟨_, -, same⟩ := Value.read_array_eq_ok_iff.1 read
    cases same
  | depth + 1, .object members =>
    obtain ⟨_, -, same⟩ := Value.read_object_eq_ok_iff.1 read
    cases same

theorem textOfTree_eq_ok_iff {tree : Tree} {s : String} :
    textOfTree tree = .ok s ↔ tree = .ofString s := by
  constructor
  · intro read
    unfold textOfTree at read
    split at read
    · rw [Except.ok.inj read, Tree.ofString]
    all_goals cases read
  · rintro rfl
    rfl

theorem readNull_eq_ok_iff {tree : Tree} : readNull tree = .ok () ↔ tree = .null := by
  constructor
  · intro read
    unfold readNull at read
    split at read
    · rfl
    all_goals cases read
  · rintro rfl
    rfl

theorem exists_flag {tree : Tree} {datum : Datum} (read : readFlag tree = .ok datum) :
    ∃ b, tree = .ofBool b ∧ datum = .flag b := by
  unfold readFlag at read
  split at read
  · exact ⟨_, rfl, (Except.ok.inj read).symm⟩
  all_goals cases read

theorem exists_count {tree : Tree} {datum : Datum} (read : readCount tree = .ok datum) :
    ∃ numeral, tree = .leaf (.number numeral) ∧ ∃ n < UInt32.size, datum = .count n := by
  unfold readCount at read
  split at read
  · refine ⟨_, rfl, ?_⟩
    split at read
    · split at read
      · next bound => exact ⟨_, bound, (Except.ok.inj read).symm⟩
      · cases read
    all_goals cases read
  all_goals cases read

theorem readName_eq_ok_iff {names : List String} {name : String} {datum : Datum} :
    readName names name = .ok datum ↔ name ∈ names ∧ datum = .choice name := by
  unfold readName
  split
  · next mem => simp [mem, eq_comm]
  · next other => simp [other]

theorem exists_choice {names : List String} {depth : Nat} {tree : Tree} {datum : Datum}
    (read : readChoice names depth tree = .ok datum) :
    ∃ name ∈ names, datum = .choice name ∧
      (tree = .ofString name ∨ tree = .ofMembers [(name, .null)]) := by
  unfold readChoice at read
  split at read
  · obtain ⟨mem, rfl⟩ := readName_eq_ok_iff.1 read
    exact ⟨_, mem, rfl, .inl rfl⟩
  · cases read
  · cases read
  · unfold enter at read
    split at read
    · cases read
    · split at read
      · obtain ⟨choice, named, later⟩ := bind_eq_ok_iff.1 read
        obtain ⟨⟨⟩, null, last⟩ := bind_eq_ok_iff.1 later
        split at last
        · next alone =>
          obtain rfl := Except.ok.inj last
          obtain rfl := List.isEmpty_iff.1 alone
          obtain rfl := readNull_eq_ok_iff.1 null
          obtain ⟨mem, rfl⟩ := readName_eq_ok_iff.1 named
          exact ⟨_, mem, rfl, .inr rfl⟩
        · cases last
      · cases read

theorem exists_map {depth : Nat} {tree : Tree} {datum : Datum}
    (read : readMap depth tree = .ok datum) : 0 < depth ∧ ∃ entries, datum = .map entries := by
  match depth, tree with
  | _, .leaf _ | _, .array _ | 0, .object _ => cases read
  | depth + 1, .object members =>
    obtain ⟨entries, -, same⟩ := bind_eq_ok_iff.1 read
    exact ⟨by omega, _, (Except.ok.inj same).symm⟩

theorem eq_of_readList {item : Reader} {depth : Nat} {tree : Tree}
    (read : readList item depth tree = .ok (.list [])) : tree = .array [] := by
  match depth, tree with
  | _, .leaf _ | _, .object _ | 0, .array _ => cases read
  | depth + 1, .array items =>
    obtain ⟨found, each, same⟩ := bind_eq_ok_iff.1 read
    cases same
    cases mapM_eq_ok_iff.1 each
    rfl

theorem exists_list {item : Reader} {depth : Nat} {tree : Tree} {datum : Datum}
    (read : readList item depth tree = .ok datum) : 0 < depth ∧ ∃ items, datum = .list items ∧
      ∀ datum ∈ items, ∃ tree, item (depth - 1) tree = .ok datum := by
  match depth, tree with
  | _, .leaf _ | _, .object _ | 0, .array _ => cases read
  | depth + 1, .array trees =>
    obtain ⟨items, inner, same⟩ := bind_eq_ok_iff.1 read
    refine ⟨by omega, items, (Except.ok.inj same).symm, fun datum mem => ?_⟩
    obtain ⟨tree, -, origin⟩ := exists_of_forall₂ (mapM_eq_ok_iff.1 inner) datum mem
    exact ⟨tree, origin⟩

mutual

/-- What a schema reads has its shape. -/
theorem fits_of_read {schema : Schema} {depth : Nat} {tree : Tree} {datum : Datum}
    (sound : schema.sound = true) (bound : schema.height ≤ depth)
    (read : schema.read depth tree = .ok datum) : schema.Fits Kept depth datum := by
  match schema with
  | .text =>
    obtain ⟨s, -, rfl⟩ := map_eq_ok_iff.1 read
    trivial
  | .flag =>
    obtain ⟨b, -, rfl⟩ := exists_flag read
    trivial
  | .count =>
    obtain ⟨numeral, -, n, small, rfl⟩ := exists_count read
    exact small
  | .choice names =>
    obtain ⟨name, mem, rfl, -⟩ := exists_choice read
    exact mem
  | .raw =>
    obtain ⟨value, found, rfl⟩ := map_eq_ok_iff.1 read
    exact ⟨tree, found⟩
  | .map =>
    obtain ⟨deep, entries, rfl⟩ := exists_map read
    exact deep
  | .list item =>
    rw [Schema.sound] at sound
    rw [height] at bound
    obtain ⟨deep, items, rfl, each⟩ := exists_list read
    refine ⟨deep, fun datum mem => ?_⟩
    obtain ⟨tree, origin⟩ := each datum mem
    exact fits_of_read sound (by omega) origin
  | .record fields =>
    rw [Schema.sound, Bool.and_eq_true, decide_eq_true_eq, ← map_name_fieldReaders] at sound
    rw [height] at bound
    rw [Schema.read] at read
    obtain ⟨deep, slots, rfl, origin⟩ := origin_of_readRecord sound.1 read
    rw [Fits]
    exact ⟨deep, fitsFields_of_origin sound.2 (by omega) origin⟩

theorem fitsFields_of_origin {fields : List Field} {depth : Nat} {slots : List (Option Datum)}
    (sound : soundFields fields = true) (bound : heightFields fields ≤ depth)
    (origin : List.Forall₂ (Origin depth) (fieldReaders fields) slots) :
    FitsFields Kept fields depth slots := by
  match fields, origin with
  | [], .nil => trivial
  | ⟨name, presence, schema⟩ :: fields, .cons first others =>
    rw [soundFields, Bool.and_eq_true, Bool.and_eq_true] at sound
    rw [heightFields] at bound
    have low : schema.height ≤ depth := by omega
    refine ⟨?_, fitsFields_of_origin sound.2 (by omega) others⟩
    rcases first with ⟨tree, taken⟩ | absent
    · unfold FieldReader.slot at taken
      split at taken
      · next optional =>
        obtain rfl := Except.ok.inj taken
        dsimp only at optional
        rw [Suits, optional]
        rfl
      · next other =>
        obtain ⟨datum, read, rfl⟩ := map_eq_ok_iff.1 taken
        have fits := fits_of_read sound.1.2 low read
        refine ⟨fits, fun optional same => ?_⟩
        subst same
        cases schema <;> simp only [Fits] at fits
        have null := eq_null_of_read ((read_raw_iff _ _ _).1 read)
        cases presence with
        | optional positional => exact other positional rfl null
        | _ => cases optional
    · unfold FieldReader.absent at absent
      dsimp only at absent
      split at absent
      · cases absent
      · obtain rfl := Except.ok.inj absent
        rfl
      · obtain rfl := Except.ok.inj absent
        refine ⟨fits_of_isPlain ?_ low, fun optional => nomatch optional⟩
        simp only [stands, Bool.and_eq_true] at sound
        exact sound.1.1.1

end

end Schema

end PublicIp.Json
