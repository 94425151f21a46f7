import PublicIp.Proofs.Json.Depth
import PublicIp.Proofs.Json.Layout

/-!
# Texts that are read

What a schema reads from a text, it reads from a tree, and the text is one of that tree
(`Codec.decode_eq_ok_iff`): its tokens are those that the tree is written with.
-/

namespace PublicIp.Json

open Text (Symbol)

namespace Tree

mutual

theorem tokens_of_readWithin {fuel : Nat} {run rest : List Token} {tree : Tree}
    (read : readWithin fuel run = (tree, rest)) (whole : tree.whole = true) :
    run = tree.tokens ++ rest := by
  unfold readWithin at read
  split at read
  case h_1 | h_2 =>
    obtain ⟨rfl, rfl⟩ := Prod.mk.inj read
    cases whole
  case h_3 | h_5 =>
    obtain ⟨rfl, rfl⟩ := Prod.mk.inj read
    rfl
  case h_4 fuel after _ =>
    match found : readItems fuel after with
    | (items, left) =>
      rw [found] at read
      obtain ⟨rfl, rfl⟩ := Prod.mk.inj read
      obtain ⟨item, more, rfl, rfl⟩ := tokens_of_readItems found whole
      simp [tokens]
  case h_6 fuel after _ =>
    match found : readMembers fuel after with
    | (members, left) =>
      rw [found] at read
      obtain ⟨rfl, rfl⟩ := Prod.mk.inj read
      obtain ⟨key, value, more, rfl, rfl⟩ := tokens_of_readMembers found whole
      simp [tokens]
  case h_7 =>
    obtain ⟨rfl, rfl⟩ := Prod.mk.inj read
    rfl
termination_by fuel

theorem tokens_of_readItems {fuel : Nat} {run rest : List Token} {items : List Tree}
    (read : readItems fuel run = (items, rest)) (whole : wholeItems items = true) :
    ∃ item more, items = item :: more ∧ run = item.tokens ++ (itemTokens more ++ rest) := by
  match fuel with
  | 0 =>
    obtain ⟨rfl, rfl⟩ := Prod.mk.inj read
    cases whole
  | fuel + 1 =>
    rw [readItems] at read
    match found : readWithin fuel run with
    | (item, left) =>
      rw [found] at read
      simp only at read
      split at read
      · next after =>
        match others : readItems fuel after with
        | (more, last) =>
          rw [others] at read
          obtain ⟨rfl, rfl⟩ := Prod.mk.inj read
          rw [wholeItems, Bool.and_eq_true] at whole
          obtain ⟨next, later, rfl, rfl⟩ := tokens_of_readItems others whole.2
          refine ⟨item, _, rfl, ?_⟩
          rw [tokens_of_readWithin found whole.1]
          simp [itemTokens]
      · obtain ⟨rfl, rfl⟩ := Prod.mk.inj read
        rw [wholeItems, Bool.and_eq_true] at whole
        exact ⟨item, [], rfl, tokens_of_readWithin found whole.1⟩
      · obtain ⟨rfl, rfl⟩ := Prod.mk.inj read
        simp [wholeItems, broken, Tree.whole, Token.isScalar] at whole
termination_by fuel

theorem tokens_of_readMembers {fuel : Nat} {run rest : List Token} {members : List (Token × Tree)}
    (read : readMembers fuel run = (members, rest)) (whole : wholeMembers members = true) :
    ∃ key value more, members = (key, value) :: more ∧
      run = key :: .colon :: (value.tokens ++ (memberTokens more ++ rest)) := by
  unfold readMembers at read
  split at read
  case h_2 fuel key after =>
    match found : readWithin fuel after with
    | (value, left) =>
      rw [found] at read
      simp only at read
      split at read
      · next after =>
        match others : readMembers fuel after with
        | (more, last) =>
          rw [others] at read
          obtain ⟨rfl, rfl⟩ := Prod.mk.inj read
          rw [wholeMembers, Bool.and_eq_true] at whole
          obtain ⟨next, other, later, rfl, rfl⟩ := tokens_of_readMembers others whole.2
          refine ⟨.string key, value, _, rfl, ?_⟩
          rw [tokens_of_readWithin found whole.1]
          simp [memberTokens]
      · obtain ⟨rfl, rfl⟩ := Prod.mk.inj read
        rw [wholeMembers, Bool.and_eq_true] at whole
        refine ⟨.string key, value, [], rfl, ?_⟩
        rw [tokens_of_readWithin found whole.1]
        rfl
      · obtain ⟨rfl, rfl⟩ := Prod.mk.inj read
        simp [wholeMembers] at whole
  case h_3 token _ _ =>
    obtain ⟨rfl, rfl⟩ := Prod.mk.inj read
    cases token <;> cases whole
  case h_1 | h_4 =>
    obtain ⟨rfl, rfl⟩ := Prod.mk.inj read
    cases whole
termination_by fuel

end

mutual

theorem junk_not_mem_tokens {tree : Tree} (whole : tree.whole = true) : .junk ∉ tree.tokens := by
  match tree with
  | .leaf token => cases token <;> simp_all [Tree.whole, Token.isScalar, tokens]
  | .array [] => simp [tokens]
  | .array (item :: items) =>
    rw [Tree.whole, wholeItems, Bool.and_eq_true] at whole
    simp [tokens, junk_not_mem_tokens whole.1, junk_not_mem_itemTokens whole.2]
  | .object [] => simp [tokens]
  | .object ((key, value) :: members) =>
    cases key <;> simp only [Tree.whole, wholeMembers, Bool.and_eq_true, Bool.false_eq_true] at whole
    simp [tokens, junk_not_mem_tokens whole.1, junk_not_mem_memberTokens whole.2]
termination_by sizeOf tree

theorem junk_not_mem_itemTokens {items : List Tree} (whole : wholeItems items = true) :
    .junk ∉ itemTokens items := by
  match items with
  | [] => simp [itemTokens]
  | item :: items =>
    rw [wholeItems, Bool.and_eq_true] at whole
    simp [itemTokens, junk_not_mem_tokens whole.1, junk_not_mem_itemTokens whole.2]
termination_by sizeOf items

theorem junk_not_mem_memberTokens {members : List (Token × Tree)}
    (whole : wholeMembers members = true) : .junk ∉ memberTokens members := by
  match members with
  | [] => simp [memberTokens]
  | (key, value) :: members =>
    cases key <;> simp only [wholeMembers, Bool.and_eq_true, Bool.false_eq_true] at whole
    simp [memberTokens, junk_not_mem_tokens whole.1, junk_not_mem_memberTokens whole.2]
termination_by sizeOf members

end

end Tree

namespace Schema

/-- Whether what is read is JSON. -/
def ReadsWhole (read : Reader) : Prop :=
  ∀ depth tree datum, read depth tree = .ok datum → tree.whole = true

theorem readsWhole_map : ReadsWhole readMap := by
  intro depth tree datum read
  match depth, tree with
  | _, .leaf _ | _, .array _ | 0, .object _ => cases read
  | depth + 1, .object members =>
    obtain ⟨entries, inner, -⟩ := bind_eq_ok_iff.1 read
    have related := mapM_eq_ok_iff.1 inner
    clear inner read
    induction related with
    | nil => rfl
    | @cons member entry _ _ first _ ih =>
      obtain ⟨token, value⟩ := member
      obtain ⟨key, named, later⟩ := bind_eq_ok_iff.1 first
      obtain ⟨s, text, -⟩ := bind_eq_ok_iff.1 later
      obtain rfl := Value.key_eq_ok_iff.1 named
      obtain rfl := textOfTree_eq_ok_iff.1 text
      exact ih

theorem readsWhole_list {item : Reader} (whole : ReadsWhole item) : ReadsWhole (readList item) := by
  intro depth tree datum read
  match depth, tree with
  | _, .leaf _ | _, .object _ | 0, .array _ => cases read
  | depth + 1, .array items =>
    obtain ⟨found, inner, -⟩ := bind_eq_ok_iff.1 read
    refine (Tree.wholeItems_eq_true_iff items).2 fun tree mem => ?_
    obtain ⟨datum, -, origin⟩ := exists_of_forall₂ (mapM_eq_ok_iff.1 inner).flip tree mem
    exact whole depth tree datum origin

section Record

variable {fields : List FieldReader} {depth : Nat}

theorem whole_of_slot {field : FieldReader} (whole : ReadsWhole field.read) {tree : Tree}
    {slot : Option Datum} (taken : field.slot depth tree = .ok slot) : tree.whole = true := by
  unfold FieldReader.slot at taken
  split at taken
  · rfl
  · obtain ⟨datum, read, -⟩ := map_eq_ok_iff.1 taken
    exact whole _ _ _ read

theorem whole_of_readItems (whole : ∀ field ∈ fields, ReadsWhole field.read) {items : List Tree}
    {slots : List (Option Datum)} (read : readItems depth fields items = .ok slots) :
    ∀ item ∈ items, item.whole = true := by
  induction fields generalizing items slots with
  | nil =>
    cases items with
    | nil => exact fun _ mem => absurd mem List.not_mem_nil
    | cons item items => cases read
  | cons field rest ih =>
    cases items with
    | nil => exact fun _ mem => absurd mem List.not_mem_nil
    | cons item items =>
      rw [readItems, bind_eq_ok_iff] at read
      obtain ⟨slot, first, remaining⟩ := read
      obtain ⟨others, later, -⟩ := bind_eq_ok_iff.1 remaining
      intro other mem
      rcases List.mem_cons.1 mem with rfl | among
      · exact whole_of_slot (whole field List.mem_cons_self) first
      · exact ih (fun field mem => whole field (List.mem_cons_of_mem _ mem)) later other among

theorem readsWhole_record (distinct : (fields.map FieldReader.name).Nodup)
    (whole : ∀ field ∈ fields, ReadsWhole field.read) : ReadsWhole (readRecord fields) := by
  intro depth tree datum read
  match depth, tree with
  | _, .leaf _ | 0, .array _ | 0, .object _ => cases read
  | depth + 1, .array items =>
    obtain ⟨slots, inner, -⟩ := map_eq_ok_iff.1 read
    exact (Tree.wholeItems_eq_true_iff items).2 (whole_of_readItems whole inner)
  | depth + 1, .object members =>
    obtain ⟨named, same⟩ := exists_ofMembers distinct read
    rw [same] at read ⊢
    obtain ⟨admits, slots, given, -⟩ := (readRecord_ofMembers_eq_ok_iff distinct).1 read
    refine (Tree.whole_ofMembers_iff named).2 fun (name, value) mem => ?_
    by_cases known : name ∈ fields.map FieldReader.name
    · obtain ⟨field, among, rfl⟩ := List.mem_map.1 known
      obtain ⟨slot, -, taken⟩ := exists_of_forall₂ (mapM_eq_ok_iff.1 given).flip field among
      rw [FieldReader.given, (admits.lookup_eq_some_iff known).2 mem] at taken
      exact whole_of_slot (whole field among) taken
    · exact admits.whole _ mem known

end Record

mutual

theorem readsWhole {schema : Schema} (regular : schema.fixed = true) (sound : schema.sound = true) :
    ReadsWhole schema.read := by
  match schema with
  | .text =>
    intro depth tree datum read
    obtain ⟨s, text, -⟩ := map_eq_ok_iff.1 read
    obtain rfl := textOfTree_eq_ok_iff.1 text
    rfl
  | .flag =>
    intro depth tree datum read
    obtain ⟨b, rfl, -⟩ := exists_flag read
    rfl
  | .count =>
    intro depth tree datum read
    obtain ⟨numeral, rfl, -⟩ := exists_count read
    rfl
  | .choice names =>
    intro depth tree datum read
    obtain ⟨name, -, -, rfl | rfl⟩ := exists_choice read
    · rfl
    · rfl
  | .map => exact readsWhole_map
  | .list item => exact readsWhole_list (readsWhole regular sound)
  | .record fields =>
    rw [Schema.sound, Bool.and_eq_true, decide_eq_true_eq, ← map_name_fieldReaders] at sound
    exact readsWhole_record sound.1 (readsWhole_fieldReaders regular sound.2)

theorem readsWhole_fieldReaders {fields : List Field} (regular : fixedFields fields = true)
    (sound : soundFields fields = true) : ∀ field ∈ fieldReaders fields, ReadsWhole field.read := by
  match fields with
  | [] => exact fun _ mem => absurd mem List.not_mem_nil
  | ⟨name, presence, schema⟩ :: fields =>
    rw [fixedFields, Bool.and_eq_true] at regular
    rw [soundFields, Bool.and_eq_true, Bool.and_eq_true] at sound
    intro field mem
    rcases List.mem_cons.1 mem with rfl | later
    · exact readsWhole regular.1 sound.1.2
    · exact readsWhole_fieldReaders regular.2 sound.2 field later

end

end Schema

theorem Tree.Spells.spaced {tree : Tree} {text : List Symbol} (spells : tree.Spells text) :
    Spaced text text :=
  spaced_self (spells.tokens ▸ Tree.junk_not_mem_tokens spells.whole)

namespace Codec

variable {α : Type} {codec : Codec α}

/-- A text is decoded as a value if it is one of a tree that is read as the value. -/
theorem decode_eq_ok_iff (regular : codec.schema.fixed = true) (sound : codec.schema.sound = true)
    {text : List Symbol} {value : α} :
    codec.decode text = .ok value ↔
      ∃ tree : Tree, tree.Spells text ∧ codec.Reads depthLimit tree value := by
  constructor
  · intro decoded
    unfold decode at decoded
    match found : Tree.read (tokens text) with
    | (tree, rest) =>
      rw [found] at decoded
      obtain ⟨other, read, last⟩ := bind_eq_ok_iff.1 decoded
      split at last
      · next alone =>
        obtain rfl := Except.ok.inj last
        obtain rfl := List.isEmpty_iff.1 alone
        have reads := ofTree_eq_ok_iff.1 read
        obtain ⟨datum, origin, -⟩ := reads
        have whole := Schema.readsWhole regular sound _ _ _ origin
        have run := Tree.tokens_of_readWithin found whole
        rw [List.append_nil] at run
        exact ⟨tree, ⟨whole, run⟩, ofTree_eq_ok_iff.1 read⟩
      · cases last
  · rintro ⟨tree, spells, reads⟩
    rw [decode_of_spells spells]
    exact ofTree_eq_ok_iff.2 reads

end Codec

end PublicIp.Json
