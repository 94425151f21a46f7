/-!
# Finite maps in ascending key order

An `OrderedMap` is the list of its entries, one for each key, in strictly ascending order of the
keys. Two maps with the same bindings are therefore equal, and listing a map needs no sort.

The operations stand on bare entry lists first (`Entries`), since JSON objects keep their members in
such a list without the proof. `find?_insert` and `find?_erase` say what the operations do to the
bindings.
-/

namespace PublicIp

variable {κ : Type} {α : Type}

/-- Each key once, in ascending order. -/
def Ascending [Ord κ] (entries : List (κ × α)) : Prop :=
  entries.Pairwise fun a b => compare a.1 b.1 = .lt

namespace Entries

/-- Binds `key` to `value` at its place in the order, replacing what `key` was bound to. -/
def insert [Ord κ] (key : κ) (value : α) : List (κ × α) → List (κ × α)
  | [] => [(key, value)]
  | (k, v) :: rest =>
    match compare key k with
    | .lt => (key, value) :: (k, v) :: rest
    | .eq => (key, value) :: rest
    | .gt => (k, v) :: insert key value rest

/-- Inserts from left to right, so the last value given for a key stays. -/
def insertAll [Ord κ] (new : List (κ × α)) (entries : List (κ × α)) : List (κ × α) :=
  new.foldl (fun acc entry => insert entry.1 entry.2 acc) entries

@[simp] theorem insertAll_nil [Ord κ] (entries : List (κ × α)) : insertAll [] entries = entries :=
  rfl

@[simp] theorem insertAll_cons [Ord κ] (entry : κ × α) (new entries : List (κ × α)) :
    insertAll (entry :: new) entries = insertAll new (insert entry.1 entry.2 entries) := rfl

theorem insertAll_append [Ord κ] (a b entries : List (κ × α)) :
    insertAll (a ++ b) entries = insertAll b (insertAll a entries) := by
  simp [insertAll, List.foldl_append]

variable [Ord κ]

theorem mem_insert {key : κ} {value : α} {entry : κ × α} {entries : List (κ × α)}
    (h : entry ∈ insert key value entries) : entry = (key, value) ∨ entry ∈ entries := by
  induction entries with
  | nil => simpa [insert] using h
  | cons head rest ih =>
    obtain ⟨k, v⟩ := head
    simp only [insert] at h
    split at h
    · simpa using h
    · rcases List.mem_cons.1 h with h | h <;> simp [h]
    · rcases List.mem_cons.1 h with h | h
      · simp [h]
      · rcases ih h with h | h <;> simp [h]

theorem ascending_insert [Std.TransOrd κ] [Std.LawfulEqOrd κ] (key : κ) (value : α)
    {entries : List (κ × α)} (h : Ascending entries) : Ascending (insert key value entries) := by
  induction entries with
  | nil => simp [insert, Ascending]
  | cons head rest ih =>
    obtain ⟨k, v⟩ := head
    obtain ⟨below, rest_ascending⟩ := List.pairwise_cons.1 h
    simp only [insert]
    split
    · next before =>
      refine List.pairwise_cons.2 ⟨fun entry mem => ?_, h⟩
      rcases List.mem_cons.1 mem with rfl | mem
      · exact before
      · exact Std.TransCmp.lt_trans before (below entry mem)
    · next same =>
      obtain rfl : key = k := Std.LawfulEqCmp.eq_of_compare same
      exact List.pairwise_cons.2 ⟨below, rest_ascending⟩
    · next after =>
      refine List.pairwise_cons.2 ⟨fun entry mem => ?_, ih rest_ascending⟩
      rcases mem_insert mem with rfl | mem
      · exact Std.OrientedCmp.lt_of_gt after
      · exact below entry mem

theorem ascending_insertAll [Std.TransOrd κ] [Std.LawfulEqOrd κ] (new : List (κ × α))
    {entries : List (κ × α)} (h : Ascending entries) : Ascending (insertAll new entries) := by
  induction new generalizing entries with
  | nil => exact h
  | cons entry new ih => exact ih (ascending_insert _ _ h)

omit [Ord κ] in
theorem lookup_cons [DecidableEq κ] (key other : κ) (value : α) (rest : List (κ × α)) :
    ((key, value) :: rest).lookup other = if other = key then some value else rest.lookup other := by
  rw [List.lookup_cons]
  by_cases h : other = key
  · simp [h]
  · simp [h, beq_false_of_ne h]

theorem lookup_insert [DecidableEq κ] [Std.LawfulEqOrd κ] (key other : κ) (value : α)
    (entries : List (κ × α)) :
    (insert key value entries).lookup other =
      if other = key then some value else entries.lookup other := by
  induction entries with
  | nil => simp [insert, lookup_cons]
  | cons head rest ih =>
    obtain ⟨k, v⟩ := head
    simp only [insert]
    split
    · exact lookup_cons ..
    · next same =>
      obtain rfl : key = k := Std.LawfulEqCmp.eq_of_compare same
      by_cases h : other = key <;> simp [lookup_cons, h]
    · next after =>
      have ne : key ≠ k := by
        rintro rfl
        simp at after
      by_cases hk : other = k
      · subst hk
        simp [Ne.symm ne]
      · simp [lookup_cons, hk, ih]

end Entries

/-- A finite map, as its entries in ascending key order. -/
structure OrderedMap (κ α : Type) [Ord κ] where
  entries : List (κ × α)
  ascending : Ascending entries

namespace OrderedMap

variable [Ord κ]

instance : EmptyCollection (OrderedMap κ α) := ⟨⟨[], List.Pairwise.nil⟩⟩

instance : Inhabited (OrderedMap κ α) := ⟨∅⟩

@[ext] theorem ext {a b : OrderedMap κ α} (h : a.entries = b.entries) : a = b := by
  cases a; cases b; cases h; rfl

instance [DecidableEq κ] [DecidableEq α] : DecidableEq (OrderedMap κ α) := fun a b =>
  if h : a.entries = b.entries then .isTrue (ext h) else .isFalse fun e => h (e ▸ rfl)

@[simp] theorem entries_empty : (∅ : OrderedMap κ α).entries = [] := rfl

def isEmpty (m : OrderedMap κ α) : Bool := m.entries.isEmpty

def values (m : OrderedMap κ α) : List α := m.entries.map (·.2)

def find? [DecidableEq κ] (m : OrderedMap κ α) (key : κ) : Option α := m.entries.lookup key

def erase [DecidableEq κ] (m : OrderedMap κ α) (key : κ) : OrderedMap κ α where
  entries := m.entries.filter (·.1 ≠ key)
  ascending := m.ascending.filter _

variable [Std.TransOrd κ] [Std.LawfulEqOrd κ]

def insert (m : OrderedMap κ α) (key : κ) (value : α) : OrderedMap κ α where
  entries := Entries.insert key value m.entries
  ascending := Entries.ascending_insert key value m.ascending

/-- The bindings of a list, the last one for each key. -/
def ofList (entries : List (κ × α)) : OrderedMap κ α where
  entries := Entries.insertAll entries []
  ascending := Entries.ascending_insertAll entries List.Pairwise.nil

variable [DecidableEq κ]

omit [Std.TransOrd κ] [Std.LawfulEqOrd κ] in
@[simp] theorem find?_empty (key : κ) : (∅ : OrderedMap κ α).find? key = none := rfl

theorem find?_insert (m : OrderedMap κ α) (key other : κ) (value : α) :
    (m.insert key value).find? other = if other = key then some value else m.find? other :=
  Entries.lookup_insert key other value m.entries

omit [Std.TransOrd κ] [Std.LawfulEqOrd κ] in
theorem find?_erase (m : OrderedMap κ α) (key other : κ) :
    (m.erase key).find? other = if other = key then none else m.find? other := by
  simp only [find?, erase]
  induction m.entries with
  | nil => simp
  | cons head rest ih =>
    obtain ⟨k, v⟩ := head
    by_cases hk : k = key
    · subst hk
      rw [List.filter_cons_of_neg (by simp), ih, Entries.lookup_cons]
      split <;> rfl
    · rw [List.filter_cons_of_pos (by simpa using hk), Entries.lookup_cons, Entries.lookup_cons, ih]
      by_cases hok : other = k
      · simp [hok, hk]
      · simp [hok]

end OrderedMap

end PublicIp
