import PublicIp.OrderedMap

/-!
# Bindings of ordered maps

A map is known by its bindings: `find?_eq_some_iff` finds them among the entries, and by
`ext_find?` maps with the same bindings are equal. A map is made again from its own entries.
-/

namespace PublicIp

variable {κ α β : Type} [Ord κ]

namespace Entries

section Order

variable [Std.TransOrd κ]

theorem ne_of_ascending {key : κ} {value : α} {entries : List (κ × α)}
    (ascending : Ascending ((key, value) :: entries)) {entry : κ × α} (mem : entry ∈ entries) :
    entry.1 ≠ key := by
  intro same
  have below := (List.pairwise_cons.1 ascending).1 entry mem
  simp [same, Std.ReflCmp.compare_self] at below

theorem lookup_eq_some_iff [DecidableEq κ] {entries : List (κ × α)} (ascending : Ascending entries)
    (key : κ) (value : α) : entries.lookup key = some value ↔ (key, value) ∈ entries := by
  induction entries with
  | nil => simp
  | cons head rest ih =>
    obtain ⟨k, v⟩ := head
    rw [lookup_cons, List.mem_cons]
    by_cases same : key = k
    · subst same
      rw [if_pos rfl]
      constructor
      · rintro ⟨⟩
        exact .inl rfl
      · rintro (first | later)
        · rw [(Prod.mk.inj first).2]
        · exact absurd rfl (ne_of_ascending ascending later)
    · rw [if_neg same, ih (List.pairwise_cons.1 ascending).2]
      constructor
      · exact .inr
      · rintro (first | later)
        · exact absurd (Prod.mk.inj first).1 same
        · exact later

theorem mem_insert_iff [DecidableEq κ] [Std.LawfulEqOrd κ] {entries : List (κ × α)}
    (ascending : Ascending entries) {key : κ} (value : α) (new : ∀ entry ∈ entries, entry.1 ≠ key)
    (entry : κ × α) : entry ∈ insert key value entries ↔ entry = (key, value) ∨ entry ∈ entries := by
  obtain ⟨k, v⟩ := entry
  rw [← lookup_eq_some_iff (ascending_insert key value ascending), lookup_insert,
    ← lookup_eq_some_iff ascending]
  by_cases same : k = key
  · subst same
    have absent : entries.lookup k ≠ some v := fun held =>
      new (k, v) ((lookup_eq_some_iff ascending k v).1 held) rfl
    simp [absent, eq_comm]
  · simp [same]

theorem mem_insertAll_iff [DecidableEq κ] [Std.LawfulEqOrd κ] {new entries : List (κ × α)}
    (ascending : Ascending entries) (distinct : (new.map Prod.fst).Nodup)
    (apart : ∀ a ∈ new, ∀ b ∈ entries, b.1 ≠ a.1) (entry : κ × α) :
    entry ∈ insertAll new entries ↔ entry ∈ new ∨ entry ∈ entries := by
  induction new generalizing entries with
  | nil => simp
  | cons first rest ih =>
    rw [List.map_cons, List.nodup_cons] at distinct
    have inserted := mem_insert_iff ascending first.2 (apart first List.mem_cons_self)
    have others : ∀ a ∈ rest, ∀ b ∈ insert first.1 first.2 entries, b.1 ≠ a.1 := by
      intro a later b mem
      rcases (inserted b).1 mem with rfl | mem
      · exact fun same => distinct.1 (List.mem_map.2 ⟨a, later, same.symm⟩)
      · exact apart a (List.mem_cons_of_mem _ later) b mem
    rw [insertAll_cons, ih (ascending_insert _ _ ascending) distinct.2 others, inserted,
      List.mem_cons]
    constructor
    · rintro (later | now | old)
      · exact .inl (.inr later)
      · exact .inl (.inl now)
      · exact .inr old
    · rintro ((now | later) | old)
      · exact .inr (.inl now)
      · exact .inl later
      · exact .inr (.inr old)

/-- Two lists in ascending order of their keys are equal if they have the same members. -/
theorem eq_of_mem_iff {a b : List (κ × α)} (ha : Ascending a) (hb : Ascending b)
    (same : ∀ entry, entry ∈ a ↔ entry ∈ b) : a = b := by
  have distinct {l : List (κ × α)} (h : Ascending l) : l.Nodup := h.imp fun below same => by
    simp [same, Std.ReflCmp.compare_self] at below
  have asymmetric (x y : κ × α) (below : compare x.1 y.1 = .lt) (above : compare y.1 x.1 = .lt) :
      x = y := by
    rw [Std.OrientedCmp.gt_of_lt below] at above
    exact absurd above (by decide)
  have permuted := (List.perm_ext_iff_of_nodup (distinct ha) (distinct hb)).2 same
  exact permuted.eq_of_pairwise (fun x y _ _ => asymmetric x y) ha hb

theorem nodup_keys {entries : List (κ × α)} (ascending : Ascending entries) :
    (entries.map Prod.fst).Nodup := by
  refine List.pairwise_map.2 (ascending.imp fun below same => ?_)
  simp [same, Std.ReflCmp.compare_self] at below

/-- Entries in any order, each key once, come to stand in ascending order. -/
theorem insertAll_of_perm [DecidableEq κ] [Std.LawfulEqOrd κ] {given entries : List (κ × α)}
    (same : given.Perm entries) (ascending : Ascending entries) : insertAll given [] = entries := by
  refine eq_of_mem_iff (ascending_insertAll given List.Pairwise.nil) ascending fun entry => ?_
  rw [mem_insertAll_iff List.Pairwise.nil ((same.map _).nodup_iff.2 (nodup_keys ascending))
    (fun _ _ _ mem => absurd mem List.not_mem_nil)]
  simp [same.mem_iff]

end Order

/-- Of several values that are inserted for a key the last one is found, and what was there before if
none is inserted. -/
theorem lookup_insertAll [DecidableEq κ] [Std.LawfulEqOrd κ] (new entries : List (κ × α)) (key : κ) :
    (insertAll new entries).lookup key = (new.reverse.lookup key).or (entries.lookup key) := by
  induction new generalizing entries with
  | nil => rfl
  | cons entry rest ih =>
    obtain ⟨k, v⟩ := entry
    rw [insertAll_cons, ih, List.reverse_cons, List.lookup_append, Option.or_assoc, lookup_insert,
      lookup_cons]
    split <;> rfl

end Entries

namespace OrderedMap

variable [Std.TransOrd κ]

theorem find?_eq_some_iff [DecidableEq κ] (m : OrderedMap κ α) (key : κ) (value : α) :
    m.find? key = some value ↔ (key, value) ∈ m.entries :=
  Entries.lookup_eq_some_iff m.ascending key value

theorem mem_values_iff [DecidableEq κ] (m : OrderedMap κ α) (value : α) :
    value ∈ m.values ↔ ∃ key, m.find? key = some value := by
  simp only [values, List.mem_map, find?_eq_some_iff]
  constructor
  · rintro ⟨⟨key, _⟩, mem, rfl⟩
    exact ⟨key, mem⟩
  · rintro ⟨key, mem⟩
    exact ⟨(key, value), mem, rfl⟩

theorem ext_find? [DecidableEq κ] {a b : OrderedMap κ α}
    (same : ∀ key, a.find? key = b.find? key) : a = b := by
  refine ext (Entries.eq_of_mem_iff a.ascending b.ascending ?_)
  rintro ⟨key, value⟩
  rw [← find?_eq_some_iff, ← find?_eq_some_iff, same]

@[simp] theorem ofList_entries [DecidableEq κ] [Std.LawfulEqOrd κ] (m : OrderedMap κ α) :
    ofList m.entries = m :=
  ext (Entries.insertAll_of_perm (List.Perm.refl _) m.ascending)

theorem find?_ofList_eq_some_iff [DecidableEq κ] [Std.LawfulEqOrd κ] {entries : List (κ × α)}
    (distinct : (entries.map Prod.fst).Nodup) (key : κ) (value : α) :
    (ofList entries).find? key = some value ↔ (key, value) ∈ entries := by
  rw [find?_eq_some_iff, ofList, Entries.mem_insertAll_iff List.Pairwise.nil distinct
    (fun _ _ _ mem => absurd mem List.not_mem_nil)]
  simp

theorem find?_ofList_append [DecidableEq κ] [Std.LawfulEqOrd κ] (a b : List (κ × α)) (key : κ) :
    (ofList (a ++ b)).find? key = ((ofList b).find? key).or ((ofList a).find? key) := by
  have entries : (ofList (a ++ b)).entries = Entries.insertAll b (ofList a).entries :=
    Entries.insertAll_append a b []
  have alone : (ofList b).find? key = (b.reverse.lookup key).or none :=
    Entries.lookup_insertAll b [] key
  rw [find?, entries, Entries.lookup_insertAll, alone, Option.or_none, find?]

section All

variable [DecidableEq κ] {m : OrderedMap κ α} {p : κ → α → Prop}

omit [Std.TransOrd κ] in
theorem all_empty : ∀ key value, (∅ : OrderedMap κ α).find? key = some value → p key value :=
  fun _ _ held => absurd held (by simp)

variable (all : ∀ key value, m.find? key = some value → p key value)

include all

theorem all_insert [Std.LawfulEqOrd κ] {key : κ} {value : α} (new : p key value) :
    ∀ other found, (m.insert key value).find? other = some found → p other found := by
  intro other found held
  rw [find?_insert] at held
  split at held
  · next same =>
    obtain rfl := Option.some.inj held
    exact same ▸ new
  · exact all other found held

omit [Std.TransOrd κ] in
theorem all_erase (key : κ) :
    ∀ other found, (m.erase key).find? other = some found → p other found := by
  intro other found held
  rw [find?_erase] at held
  split at held
  · cases held
  · exact all other found held

end All

omit [Std.TransOrd κ] in
/-- A function applied to what the keys are bound to. -/
def map (f : α → β) (m : OrderedMap κ α) : OrderedMap κ β where
  entries := m.entries.map fun entry => (entry.1, f entry.2)
  ascending := by
    refine List.pairwise_map.2 ?_
    exact m.ascending

omit [Std.TransOrd κ] in
theorem values_map (f : α → β) (m : OrderedMap κ α) : (m.map f).values = m.values.map f := by
  simp [values, map]

omit [Std.TransOrd κ] in
theorem find?_map [DecidableEq κ] (f : α → β) (m : OrderedMap κ α) (key : κ) :
    (m.map f).find? key = (m.find? key).map f := by
  simp only [find?, map]
  induction m.entries with
  | nil => rfl
  | cons head rest ih =>
    rw [List.map_cons, Entries.lookup_cons, Entries.lookup_cons, ih]
    split <;> rfl

theorem map_insert [DecidableEq κ] [Std.LawfulEqOrd κ] (f : α → β) (m : OrderedMap κ α) (key : κ)
    (value : α) : (m.insert key value).map f = (m.map f).insert key (f value) := by
  refine ext_find? fun other => ?_
  rw [find?_map, find?_insert, find?_insert, find?_map]
  split <;> rfl

theorem map_erase [DecidableEq κ] (f : α → β) (m : OrderedMap κ α) (key : κ) :
    (m.erase key).map f = (m.map f).erase key := by
  refine ext_find? fun other => ?_
  rw [find?_map, find?_erase, find?_erase, find?_map]
  split <;> rfl

omit [Std.TransOrd κ] in
/-- The bindings of some of the keys. -/
def restrict (p : κ → Bool) (m : OrderedMap κ α) : OrderedMap κ α where
  entries := m.entries.filter fun entry => p entry.1
  ascending := m.ascending.filter _

section Restrict

variable [DecidableEq κ] (p : κ → Bool) (m : OrderedMap κ α)

omit [Std.TransOrd κ] in
theorem find?_restrict (key : κ) :
    (m.restrict p).find? key = if p key then m.find? key else none := by
  simp only [find?, restrict]
  induction m.entries with
  | nil => simp
  | cons head rest ih =>
    obtain ⟨k, v⟩ := head
    by_cases same : key = k
    · subst same
      by_cases kept : p key = true
      · simp [List.filter_cons_of_pos, kept]
      · simp [List.filter_cons_of_neg, kept, ih]
    · by_cases kept : p k = true
      · rw [List.filter_cons_of_pos (by simpa using kept), Entries.lookup_cons,
          Entries.lookup_cons, ih, if_neg same, if_neg same]
      · rw [List.filter_cons_of_neg (by simpa using kept), Entries.lookup_cons, ih, if_neg same]

theorem restrict_insert_of_pos [Std.LawfulEqOrd κ] {key : κ} (kept : p key = true) (value : α) :
    (m.insert key value).restrict p = (m.restrict p).insert key value := by
  refine ext_find? fun other => ?_
  rw [find?_restrict, find?_insert, find?_insert, find?_restrict]
  by_cases same : other = key
  · simp [same, kept]
  · simp [same]

theorem restrict_insert_of_neg [Std.LawfulEqOrd κ] {key : κ} (left : p key = false) (value : α) :
    (m.insert key value).restrict p = m.restrict p := by
  refine ext_find? fun other => ?_
  rw [find?_restrict, find?_insert, find?_restrict]
  by_cases same : other = key
  · simp [same, left]
  · simp [same]

theorem restrict_erase (key : κ) : (m.erase key).restrict p = (m.restrict p).erase key := by
  refine ext_find? fun other => ?_
  rw [find?_restrict, find?_erase, find?_erase, find?_restrict]
  split <;> split <;> rfl

theorem restrict_erase_of_neg {key : κ} (left : p key = false) :
    (m.erase key).restrict p = m.restrict p := by
  refine ext_find? fun other => ?_
  rw [find?_restrict, find?_erase, find?_restrict]
  by_cases same : other = key
  · simp [same, left]
  · simp [same]

end Restrict

/-- What a key is bound to, found by going through all entries. -/
theorem filter_key [DecidableEq κ] (m : OrderedMap κ α) (key : κ) :
    m.entries.filter (·.1 = key) = (m.find? key).toList.map (key, ·) := by
  have single : Ascending ((m.find? key).toList.map (key, ·)) := by
    cases m.find? key with
    | none => exact List.Pairwise.nil
    | some value => exact List.pairwise_singleton _ _
  refine Entries.eq_of_mem_iff (m.ascending.filter _) single ?_
  rintro ⟨other, value⟩
  rw [List.mem_filter, ← find?_eq_some_iff]
  constructor
  · rintro ⟨held, same⟩
    obtain rfl : other = key := by simpa using same
    simp [held]
  · intro mem
    simp only [List.mem_map, Option.mem_toList, Prod.mk.injEq] at mem
    obtain ⟨_, held, rfl, rfl⟩ := mem
    exact ⟨held, by simp⟩

end OrderedMap

end PublicIp
