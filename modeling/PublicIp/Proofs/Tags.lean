import Mathlib.Data.List.Induction
import PublicIp.Message.OfRecord
import PublicIp.Proofs.OrderedMap
import PublicIp.Proofs.Text.ByteOrder

/-!
# Tags in canonical form

Tags go through a map on their way from one message to another. What comes out (`Tag.canonical`) is the
last tag with each key, in the order of the bytes of the keys: by `Tag.eq_canonical_iff` there is no other
list of which this is true.
-/

namespace PublicIp

namespace Tag

open Text (utf8)

/-- The tags as they come back from a map. -/
def canonical (tags : List Tag) : List Tag := ofMap (toMap tags)

/-- A tag stands in a list and none with the same key after it. -/
def LastOf (tags : List Tag) (tag : Tag) : Prop :=
  ∃ before after, tags = before ++ tag :: after ∧ ∀ later ∈ after, later.key ≠ tag.key

/-- The tags are in strictly ascending order of the bytes of their keys. -/
def InOrder (tags : List Tag) : Prop := tags.Pairwise fun a b => utf8 a.key < utf8 b.key

theorem not_lastOf_nil (tag : Tag) : ¬ LastOf [] tag := by
  rintro ⟨before, after, split, -⟩
  simp at split

theorem lastOf_concat_iff (tags : List Tag) (last tag : Tag) :
    LastOf (tags ++ [last]) tag ↔ tag = last ∨ tag.key ≠ last.key ∧ LastOf tags tag := by
  constructor
  · rintro ⟨before, after, split, final⟩
    rcases List.eq_nil_or_concat after with rfl | ⟨middle, other, rfl⟩
    · exact .inl (List.cons.inj (List.append_inj_right' split rfl)).1.symm
    · rw [List.concat_eq_append] at split final
      rw [← List.cons_append, ← List.append_assoc] at split
      obtain ⟨front, back⟩ := List.append_inj' split rfl
      obtain rfl := (List.cons.inj back).1
      have apart : last.key ≠ tag.key := final last (by simp)
      exact .inr ⟨apart.symm, before, middle, front, fun later mem => final later (by simp [mem])⟩
  · rintro (rfl | ⟨apart, before, after, rfl, final⟩)
    · exact ⟨tags, [], rfl, by simp⟩
    · refine ⟨before, after ++ [last], by simp, fun later mem => ?_⟩
      rcases List.mem_append.1 mem with mem | mem
      · exact final later mem
      · rw [List.mem_singleton.1 mem]
        exact apart.symm

theorem toMap_concat (tags : List Tag) (last : Tag) :
    toMap (tags ++ [last]) = (toMap tags).insert last.key last.value := by
  refine OrderedMap.ext ?_
  simp [toMap, OrderedMap.ofList, OrderedMap.insert, Entries.insertAll_append]

theorem find?_toMap_append (a b : List Tag) (key : String) :
    (toMap (a ++ b)).find? key = ((toMap b).find? key).or ((toMap a).find? key) := by
  rw [toMap, List.map_append]
  exact OrderedMap.find?_ofList_append _ _ key

theorem toMap_ofMap (map : TextMap) : toMap (ofMap map) = map := by
  rw [toMap, ofMap, List.map_map]
  have same : ((fun tag : Tag => (tag.key, tag.value)) ∘
      fun (entry : String × String) => ⟨entry.1, entry.2⟩) = id := rfl
  rw [same, List.map_id, OrderedMap.ofList_entries]

theorem find?_toMap_eq_some_iff (tags : List Tag) (key value : String) :
    (toMap tags).find? key = some value ↔ LastOf tags ⟨key, value⟩ := by
  induction tags using List.reverseRecOn with
  | nil => exact iff_of_false (by simp [toMap, OrderedMap.find?, OrderedMap.ofList]) (not_lastOf_nil _)
  | append_singleton tags last ih =>
    rw [toMap_concat, OrderedMap.find?_insert, lastOf_concat_iff, ← ih]
    obtain ⟨k, v⟩ := last
    by_cases same : key = k
    · simp [same, eq_comm]
    · simp [same]

theorem mem_ofMap_iff (map : TextMap) (tag : Tag) :
    tag ∈ ofMap map ↔ map.find? tag.key = some tag.value := by
  rw [OrderedMap.find?_eq_some_iff, ofMap, List.mem_map]
  constructor
  · rintro ⟨entry, mem, rfl⟩
    exact mem
  · intro mem
    exact ⟨_, mem, rfl⟩

theorem inOrder_ofMap (map : TextMap) : InOrder (ofMap map) := by
  refine List.pairwise_map.2 (map.ascending.imp fun below => ?_)
  rw [Text.utf8_lt_iff]
  exact compareOfLessAndEq_eq_lt.1 below

theorem mem_canonical_iff (tags : List Tag) (tag : Tag) :
    tag ∈ canonical tags ↔ LastOf tags tag := by
  rw [canonical, mem_ofMap_iff, find?_toMap_eq_some_iff]

theorem inOrder_canonical (tags : List Tag) : InOrder (canonical tags) := inOrder_ofMap _

theorem InOrder.eq_of_mem_iff {a b : List Tag} (ha : InOrder a) (hb : InOrder b)
    (same : ∀ tag, tag ∈ a ↔ tag ∈ b) : a = b := by
  have distinct {tags : List Tag} (ordered : InOrder tags) : tags.Nodup :=
    ordered.imp fun below same => by
      rw [same] at below
      exact List.lt_irrefl _ below
  have permuted := (List.perm_ext_iff_of_nodup (distinct ha) (distinct hb)).2 same
  exact permuted.eq_of_pairwise (fun x y _ _ below above => absurd above (List.lt_asymm below)) ha hb

/-- The canonical form is the only list in order that holds the last tag with each key. -/
theorem eq_canonical_iff (tags given : List Tag) :
    given = canonical tags ↔ InOrder given ∧ ∀ tag, tag ∈ given ↔ LastOf tags tag := by
  constructor
  · rintro rfl
    exact ⟨inOrder_canonical tags, mem_canonical_iff tags⟩
  · rintro ⟨ordered, members⟩
    refine ordered.eq_of_mem_iff (inOrder_canonical tags) fun tag => ?_
    rw [members, mem_canonical_iff]

theorem canonical_canonical (tags : List Tag) : canonical (canonical tags) = canonical tags :=
  congrArg ofMap (toMap_ofMap (toMap tags))

theorem InOrder.exists_ofMap {tags : List Tag} (ordered : InOrder tags) : ∃ map, ofMap map = tags := by
  have ascending : Ascending (tags.map fun tag => (tag.key, tag.value)) := by
    refine List.pairwise_map.2 (ordered.imp fun below => ?_)
    exact compareOfLessAndEq_eq_lt.2 ((Text.utf8_lt_iff _ _).1 below)
  refine ⟨⟨_, ascending⟩, ?_⟩
  rw [ofMap, List.map_map]
  exact List.map_id tags

theorem canonical_eq_self_iff (tags : List Tag) : canonical tags = tags ↔ InOrder tags := by
  constructor
  · intro same
    exact same ▸ inOrder_canonical tags
  · intro ordered
    obtain ⟨map, rfl⟩ := ordered.exists_ofMap
    exact congrArg ofMap (toMap_ofMap map)

/-- A map comes back from its tags. Tags come back from their map as the last one with each key, in the
order of the bytes of the keys, so that nothing happens to tags that are in order, and nothing more to
tags that have been through a map once. The map of tags after others has the bindings of both, with the
later ones first. -/
theorem maps_keep_last :
    (∀ map : TextMap, toMap (ofMap map) = map) ∧
    (∀ tags, InOrder (ofMap (toMap tags)) ∧
      (∀ key value, ⟨key, value⟩ ∈ ofMap (toMap tags) ↔ LastOf tags ⟨key, value⟩) ∧
      (ofMap (toMap tags) = tags ↔ InOrder tags) ∧
      ofMap (toMap (ofMap (toMap tags))) = ofMap (toMap tags)) ∧
    ∀ a b key, (toMap (a ++ b)).find? key = ((toMap b).find? key).or ((toMap a).find? key) := by
  refine ⟨toMap_ofMap, fun tags => ⟨?_, fun key value => ?_, ?_, ?_⟩, find?_toMap_append⟩
  · exact inOrder_canonical tags
  · exact mem_canonical_iff tags ⟨key, value⟩
  · exact canonical_eq_self_iff tags
  · exact canonical_canonical tags

end Tag

end PublicIp
