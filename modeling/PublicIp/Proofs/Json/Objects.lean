import PublicIp.Proofs.Json.Values

/-!
# What is read from an object

The members of an object may come in any order, mixed with others that are skipped, and still only the
members that are fields count: `Schema.readRecord_ofMembers_eq_ok_iff` says which objects are read as
a record, and as which. It takes one step lemma for the reader, for a member that is a field and for
one that is none.
-/

namespace PublicIp.Json.Schema

/-- What a field holds if something is given for it, or nothing. -/
def FieldReader.take (field : FieldReader) (depth : Nat) : Option Tree → Except Fault (Option Datum)
  | some tree => field.slot depth tree
  | none => field.absent

/-- What a field holds in an object with some members. -/
def FieldReader.given (field : FieldReader) (depth : Nat) (members : List (String × Tree)) :
    Except Fault (Option Datum) :=
  field.take depth (members.lookup field.name)

/-- Whether the members of an object that have some names have each only once, and the others are
JSON. -/
structure Admits (names : List String) (members : List (String × Tree)) : Prop where
  once : ((members.map Prod.fst).filter (· ∈ names)).Nodup
  whole : ∀ member ∈ members, member.1 ∉ names → member.2.whole = true

namespace Admits

variable {names : List String} {name : String} {tree : Tree} {rest : List (String × Tree)}

theorem cons_known (known : name ∈ names) :
    Admits names ((name, tree) :: rest) ↔ name ∉ rest.map Prod.fst ∧ Admits names rest := by
  constructor
  · rintro ⟨once, whole⟩
    rw [List.map_cons, List.filter_cons_of_pos (by simpa using known), List.nodup_cons] at once
    refine ⟨fun again => once.1 (List.mem_filter.2 ⟨again, by simpa using known⟩), once.2, ?_⟩
    exact fun member mem => whole member (List.mem_cons_of_mem _ mem)
  · rintro ⟨new, once, whole⟩
    constructor
    · rw [List.map_cons, List.filter_cons_of_pos (by simpa using known), List.nodup_cons]
      exact ⟨fun again => new (List.mem_filter.1 again).1, once⟩
    · intro member mem unknown
      rcases List.mem_cons.1 mem with rfl | later
      · exact absurd known unknown
      · exact whole member later unknown

theorem cons_unknown (unknown : name ∉ names) :
    Admits names ((name, tree) :: rest) ↔ tree.whole = true ∧ Admits names rest := by
  constructor
  · rintro ⟨once, whole⟩
    rw [List.map_cons, List.filter_cons_of_neg (by simpa using unknown)] at once
    refine ⟨whole _ List.mem_cons_self unknown, once, ?_⟩
    exact fun member mem => whole member (List.mem_cons_of_mem _ mem)
  · rintro ⟨first, once, whole⟩
    constructor
    · rwa [List.map_cons, List.filter_cons_of_neg (by simpa using unknown)]
    · intro member mem other
      rcases List.mem_cons.1 mem with rfl | later
      · exact first
      · exact whole member later other

end Admits

variable {fields : List FieldReader} {depth : Nat}

theorem mem_of_lookup {members : List (String × Tree)} {name : String} {tree : Tree}
    (given : members.lookup name = some tree) : (name, tree) ∈ members := by
  induction members with
  | nil => cases given
  | cons member rest ih =>
    rw [Entries.lookup_cons] at given
    split at given
    · next same =>
      obtain rfl := Option.some.inj given
      exact same ▸ List.mem_cons_self
    · exact List.mem_cons_of_mem _ (ih given)

theorem lookup_eq_none_of_not_mem {members : List (String × Tree)} {name : String}
    (missing : name ∉ members.map Prod.fst) : members.lookup name = none := by
  refine List.lookup_eq_none_iff.2 fun member mem => ?_
  simpa using fun same : name = member.1 => missing (same ▸ List.mem_map_of_mem mem)

/-- Of the members that are known, the first one with a name is the only one. -/
theorem Admits.lookup_eq_some_iff {names : List String} {members : List (String × Tree)}
    (admits : Admits names members) {name : String} (known : name ∈ names) {tree : Tree} :
    members.lookup name = some tree ↔ (name, tree) ∈ members := by
  refine ⟨mem_of_lookup, fun mem => ?_⟩
  induction members with
  | nil => exact absurd mem List.not_mem_nil
  | cons member rest ih =>
    obtain ⟨own, value⟩ := member
    rw [Entries.lookup_cons]
    rcases List.mem_cons.1 mem with first | later
    · obtain ⟨rfl, rfl⟩ := Prod.mk.inj first
      exact if_pos rfl
    · by_cases same : name = own
      · subst same
        exact absurd (List.mem_map_of_mem later) ((cons_known known).1 admits).1
      · rw [if_neg same]
        refine ih ⟨?_, fun other among => admits.whole other (List.mem_cons_of_mem _ among)⟩ later
        exact admits.once.sublist (((List.sublist_cons_self ..).map _).filter _)

theorem find?_eq_some_of_mem (distinct : (fields.map FieldReader.name).Nodup) {field : FieldReader}
    (mem : field ∈ fields) : fields.find? (·.name = field.name) = some field := by
  induction fields with
  | nil => exact absurd mem List.not_mem_nil
  | cons first rest ih =>
    rw [List.map_cons, List.nodup_cons] at distinct
    rcases List.mem_cons.1 mem with rfl | later
    · simp
    · have other : first.name ≠ field.name := fun same =>
        distinct.1 (same ▸ List.mem_map_of_mem later)
      simpa [other] using ih distinct.2 later

theorem eq_of_name_eq (distinct : (fields.map FieldReader.name).Nodup) {field other : FieldReader}
    (mem : field ∈ fields) (among : other ∈ fields) (same : other.name = field.name) :
    other = field := by
  have one := find?_eq_some_of_mem distinct among
  rw [same, find?_eq_some_of_mem distinct mem] at one
  exact (Option.some.inj one).symm

theorem find?_eq_none_of_not_mem {name : String} (unknown : name ∉ fields.map FieldReader.name) :
    fields.find? (·.name = name) = none := by
  refine List.find?_eq_none.2 fun field mem => ?_
  simp only [decide_eq_true_eq]
  rintro rfl
  exact unknown (List.mem_map_of_mem mem)

def keyed (members : List (String × Tree)) : List (Token × Tree) :=
  members.map fun (key, tree) => (.string (some key), tree)

section Members

variable {found result : List (String × Option Datum)} {members : List (Token × Tree)}

theorem readMembers_key {token : Token} {tree : Tree}
    (read : readMembers fields depth found ((token, tree) :: members) = .ok result) :
    ∃ name, token = .string (some name) := by
  rw [readMembers, bind_eq_ok_iff] at read
  obtain ⟨name, named, -⟩ := read
  exact ⟨name, Value.key_eq_ok_iff.1 named⟩

theorem readMembers_unknown {name : String} {tree : Tree}
    (unknown : name ∉ fields.map FieldReader.name) :
    readMembers fields depth found ((.string (some name), tree) :: members) = .ok result ↔
      tree.whole = true ∧ readMembers fields depth found members = .ok result := by
  rw [readMembers]
  simp only [Token.key, bind, Except.bind, find?_eq_none_of_not_mem unknown]
  split <;> simp_all

theorem readMembers_known (distinct : (fields.map FieldReader.name).Nodup) {field : FieldReader}
    (mem : field ∈ fields) {tree : Tree} :
    readMembers fields depth found ((.string (some field.name), tree) :: members) = .ok result ↔
      found.lookup field.name = none ∧ ∃ slot, field.slot depth tree = .ok slot ∧
        readMembers fields depth ((field.name, slot) :: found) members = .ok result := by
  rw [readMembers]
  simp only [Token.key, bind, Except.bind, find?_eq_some_of_mem distinct mem]
  cases found.lookup field.name with
  | some slot => simp
  | none => cases field.slot depth tree <;> simp

end Members

theorem exists_named {found result : List (String × Option Datum)} {members : List (Token × Tree)}
    (distinct : (fields.map FieldReader.name).Nodup)
    (read : readMembers fields depth found members = .ok result) :
    ∃ named, members = keyed named := by
  induction members generalizing found with
  | nil => exact ⟨[], rfl⟩
  | cons member rest ih =>
    obtain ⟨token, tree⟩ := member
    obtain ⟨name, rfl⟩ := readMembers_key read
    have later : ∃ found, readMembers fields depth found rest = .ok result := by
      by_cases known : name ∈ fields.map FieldReader.name
      · obtain ⟨field, mem, rfl⟩ := List.mem_map.1 known
        obtain ⟨-, slot, -, later⟩ := (readMembers_known distinct mem).1 read
        exact ⟨_, later⟩
      · exact ⟨_, ((readMembers_unknown known).1 read).2⟩
    obtain ⟨found, later⟩ := later
    obtain ⟨named, rfl⟩ := ih later
    exact ⟨(name, tree) :: named, rfl⟩

/-- Whether a table holds what the members give for each field, and what it held before for the
others. -/
def Holds (fields : List FieldReader) (depth : Nat) (members : List (String × Tree))
    (found result : List (String × Option Datum)) : Prop :=
  ∀ field ∈ fields, match members.lookup field.name with
    | some tree => ∃ slot, field.slot depth tree = .ok slot ∧ result.lookup field.name = some slot
    | none => result.lookup field.name = found.lookup field.name

/-- Members that were read give no field twice, nor one that was given before, and leave their slots
in the table. -/
theorem admits_of_readMembers (distinct : (fields.map FieldReader.name).Nodup)
    {members : List (String × Tree)} {found result : List (String × Option Datum)}
    (read : readMembers fields depth found (keyed members) = .ok result) :
    Admits (fields.map FieldReader.name) members ∧
      (∀ field ∈ fields, field.name ∈ members.map Prod.fst → found.lookup field.name = none) ∧
      Holds fields depth members found result := by
  induction members generalizing found with
  | nil =>
    obtain rfl := Except.ok.inj read
    exact ⟨⟨by simp, by simp⟩, by simp, fun field _ => rfl⟩
  | cons member rest ih =>
    obtain ⟨name, tree⟩ := member
    by_cases known : name ∈ fields.map FieldReader.name
    · obtain ⟨field, mem, rfl⟩ := List.mem_map.1 known
      obtain ⟨new, slot, taken, later⟩ := (readMembers_known distinct mem).1 read
      obtain ⟨admits, unseen, holds⟩ := ih later
      have once : field.name ∉ rest.map Prod.fst := fun again => by
        have absent := unseen field mem again
        simp at absent
      refine ⟨(Admits.cons_known known).2 ⟨once, admits⟩, ?_, ?_⟩
      · intro other among given
        by_cases same : other.name = field.name
        · rw [same, new]
        · have absent := unseen other among
            ((List.mem_cons.1 given).resolve_left same)
          rwa [Entries.lookup_cons, if_neg same] at absent
      · intro other among
        have kept := holds other among
        rw [Entries.lookup_cons]
        by_cases same : other.name = field.name
        · obtain rfl := eq_of_name_eq distinct mem among same
          rw [lookup_eq_none_of_not_mem once] at kept
          simp only [if_true]
          refine ⟨slot, taken, ?_⟩
          rw [kept]
          simp
        · rw [if_neg same]
          rwa [Entries.lookup_cons, if_neg same] at kept
    · obtain ⟨whole, later⟩ := (readMembers_unknown known).1 read
      obtain ⟨admits, unseen, holds⟩ := ih later
      have other {field : FieldReader} (among : field ∈ fields) : field.name ≠ name := by
        rintro rfl
        exact known (List.mem_map_of_mem among)
      refine ⟨(Admits.cons_unknown known).2 ⟨whole, admits⟩, ?_, ?_⟩
      · intro field among given
        exact unseen field among ((List.mem_cons.1 given).resolve_left (other among))
      · intro field among
        rw [Entries.lookup_cons, if_neg (other among)]
        exact holds field among

/-- Members are read if they give no field twice, nor one that was given before, and each gives its
field a slot. -/
theorem readMembers_of_admits (distinct : (fields.map FieldReader.name).Nodup)
    {members : List (String × Tree)} {found : List (String × Option Datum)}
    (admits : Admits (fields.map FieldReader.name) members)
    (unseen : ∀ field ∈ fields, field.name ∈ members.map Prod.fst → found.lookup field.name = none)
    (taken : ∀ field ∈ fields, ∀ tree, members.lookup field.name = some tree →
      ∃ slot, field.slot depth tree = .ok slot) :
    ∃ result, readMembers fields depth found (keyed members) = .ok result := by
  induction members generalizing found with
  | nil => exact ⟨found, rfl⟩
  | cons member rest ih =>
    obtain ⟨name, tree⟩ := member
    have others (apart : ∀ field ∈ fields, field.name ∈ rest.map Prod.fst → field.name ≠ name) :
        ∀ field ∈ fields, ∀ tree, rest.lookup field.name = some tree →
          ∃ slot, field.slot depth tree = .ok slot := by
      intro field among tree given
      refine taken field among tree ?_
      rw [Entries.lookup_cons,
        if_neg (apart field among (List.mem_map_of_mem (mem_of_lookup given)))]
      exact given
    by_cases known : name ∈ fields.map FieldReader.name
    · obtain ⟨once, remaining⟩ := (Admits.cons_known known).1 admits
      obtain ⟨field, mem, rfl⟩ := List.mem_map.1 known
      obtain ⟨slot, read⟩ := taken field mem tree (by simp)
      have apart : ∀ other ∈ fields, other.name ∈ rest.map Prod.fst → other.name ≠ field.name :=
        fun other _ given same => once (same ▸ given)
      have unlisted : ∀ other ∈ fields, other.name ∈ rest.map Prod.fst →
          ((field.name, slot) :: found).lookup other.name = none := by
        intro other among given
        rw [Entries.lookup_cons, if_neg (apart other among given)]
        exact unseen other among (List.mem_cons_of_mem _ given)
      obtain ⟨result, later⟩ := ih remaining unlisted (others apart)
      exact ⟨result, (readMembers_known distinct mem).2
        ⟨unseen field mem List.mem_cons_self, slot, read, later⟩⟩
    · obtain ⟨whole, remaining⟩ := (Admits.cons_unknown known).1 admits
      have apart : ∀ other ∈ fields, other.name ∈ rest.map Prod.fst → other.name ≠ name :=
        fun other among _ same => known (same ▸ List.mem_map_of_mem among)
      obtain ⟨result, later⟩ := ih remaining
        (fun field among given => unseen field among (List.mem_cons_of_mem _ given)) (others apart)
      exact ⟨result, (readMembers_unknown known).2 ⟨whole, later⟩⟩

theorem collect_of_holds {members : List (String × Tree)}
    {result : List (String × Option Datum)} (holds : Holds fields depth members [] result)
    {field : FieldReader} (mem : field ∈ fields) :
    collect result field = field.given depth members := by
  have kept := holds field mem
  unfold collect FieldReader.given
  split at kept
  · next tree given =>
    obtain ⟨slot, read, held⟩ := kept
    rw [held, given, FieldReader.take, read]
  · next absent =>
    rw [kept, absent]
    rfl

theorem mapM_congr {m : Type → Type} [Monad m] [LawfulMonad m] {α β : Type} {f g : α → m β}
    {items : List α} (same : ∀ item ∈ items, f item = g item) : items.mapM f = items.mapM g := by
  induction items with
  | nil => rfl
  | cons item rest ih =>
    rw [List.mapM_cons, List.mapM_cons, same item List.mem_cons_self,
      ih fun other mem => same other (List.mem_cons_of_mem _ mem)]

/-- A record is read from an object exactly if each field that is given is given once and all others
are JSON, and each field holds something by itself or in what is given for it. -/
theorem readRecord_ofMembers_eq_ok_iff (distinct : (fields.map FieldReader.name).Nodup)
    {members : List (String × Tree)} {datum : Datum} :
    readRecord fields (depth + 1) (.ofMembers members) = .ok datum ↔
      Admits (fields.map FieldReader.name) members ∧ ∃ slots,
        fields.mapM (·.given depth members) = .ok slots ∧ datum = .record slots := by
  have opened : readRecord fields (depth + 1) (.ofMembers members) =
      (do
        let found ← readMembers fields depth [] (keyed members)
        let slots ← fields.mapM (collect found)
        return .record slots) := rfl
  rw [opened, bind_eq_ok_iff]
  constructor
  · rintro ⟨found, read, collected⟩
    obtain ⟨admits, -, holds⟩ := admits_of_readMembers distinct read
    obtain ⟨slots, collected, same⟩ := bind_eq_ok_iff.1 collected
    rw [mapM_congr fun field mem => collect_of_holds holds mem] at collected
    exact ⟨admits, slots, collected, (Except.ok.inj same).symm⟩
  · rintro ⟨admits, slots, given, rfl⟩
    have taken : ∀ field ∈ fields, ∀ tree, members.lookup field.name = some tree →
        ∃ slot, field.slot depth tree = .ok slot := by
      intro field mem tree present
      obtain ⟨slot, -, holds⟩ := exists_of_forall₂ (mapM_eq_ok_iff.1 given).flip field mem
      simp only [FieldReader.given, FieldReader.take, present] at holds
      exact ⟨slot, holds⟩
    obtain ⟨found, read⟩ : ∃ found, readMembers fields depth [] (keyed members) = .ok found :=
      readMembers_of_admits distinct admits (fun _ _ _ => rfl) taken
    obtain ⟨-, -, holds⟩ := admits_of_readMembers distinct read
    rw [← mapM_congr fun field mem => collect_of_holds holds mem] at given
    exact ⟨found, read, bind_eq_ok_iff.2 ⟨slots, given, rfl⟩⟩

theorem exists_ofMembers (distinct : (fields.map FieldReader.name).Nodup)
    {members : List (Token × Tree)} {datum : Datum}
    (read : readRecord fields (depth + 1) (.object members) = .ok datum) :
    ∃ named, Tree.object members = .ofMembers named := by
  obtain ⟨found, inner, -⟩ := bind_eq_ok_iff.1 (show (do
    let found ← readMembers fields depth [] members
    let slots ← fields.mapM (collect found)
    return Datum.record slots) = .ok datum from read)
  obtain ⟨named, rfl⟩ := exists_named distinct inner
  exact ⟨named, rfl⟩

end PublicIp.Json.Schema
