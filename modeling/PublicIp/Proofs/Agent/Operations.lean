import PublicIp.Agent.Registry
import PublicIp.Proofs.OrderedMap

/-!
# The operations and the keys

What an operation does to the entry under one key, and to the id there: deleting takes entries away,
storing never does, an entry that stays keeps its id, and one that is new gets a fresh id. Each entry
stands under its own key at all times (`Keyed`).
-/

namespace PublicIp.Agent.Registry

theorem find?_delete (entries : List Entry) (registry : Registry) (key : Key) :
    (registry.delete entries).registry.find? key = registry.find? key ∨
      (registry.delete entries).registry.find? key = none := by
  induction entries generalizing registry with
  | nil => exact .inl rfl
  | cons entry rest ih =>
    unfold delete
    cases registry.find? entry.key with
    | none => exact .inl rfl
    | some held =>
      rcases ih (registry.erase entry.key) with kept | gone
      · simp only [kept, OrderedMap.find?_erase]
        split
        · exact .inr rfl
        · exact .inl rfl
      · exact .inr gone

theorem drawn_delete (entries : List Entry) (registry : Registry) :
    (registry.delete entries).drawn = 0 := by
  induction entries generalizing registry with
  | nil => rfl
  | cons entry rest ih =>
    unfold delete
    cases registry.find? entry.key with
    | none => rfl
    | some held => exact ih _

theorem answer_delete {entries : List Entry} {registry : Registry} {answer : Answer}
    (carried : (registry.delete entries).answer = .ok answer) : answer = {} := by
  induction entries generalizing registry with
  | nil => exact (Except.ok.inj carried).symm
  | cons entry rest ih =>
    unfold delete at carried
    cases held : registry.find? entry.key with
    | none => simp [held] at carried
    | some entry' => exact ih (by simpa [held] using carried)

theorem isComplete_iff (entry : Entry) :
    isComplete entry = true ↔ entry.name ≠ "" ∧ entry.location ≠ "" := by
  simp [isComplete]

def store (registry : Registry) (fresh : String) (entry : Entry) : Registry :=
  registry.insert entry.key (registry.admitted fresh entry)

/-- How many ids were drawn after an entry is stored. -/
def drawnAfter (registry : Registry) (drawn : Nat) (entry : Entry) : Nat :=
  if registry.provision entry = .created then drawn + 1 else drawn

theorem storeAll_cons (registry : Registry) (ids : Nat → String) (drawn : Nat) (entry : Entry)
    (rest : List Entry) :
    registry.storeAll ids drawn (entry :: rest) =
      let effect := storeAll (registry.store (ids drawn) entry) ids
        (registry.drawnAfter drawn entry) rest
      { effect with
        answer := registry.admitted (ids drawn) entry :: effect.answer
        events := .stored entry.name entry.location (registry.provision entry) :: effect.events } :=
  rfl

theorem find?_store (registry : Registry) (fresh : String) (entry : Entry) (key : Key) :
    (registry.store fresh entry).find? key =
      if key = entry.key then some (registry.admitted fresh entry) else registry.find? key :=
  OrderedMap.find?_insert ..

theorem le_drawnAfter (registry : Registry) (drawn : Nat) (entry : Entry) :
    drawn ≤ registry.drawnAfter drawn entry := by
  unfold drawnAfter
  split <;> omega

theorem drawnAfter_add (registry : Registry) (base drawn : Nat) (entry : Entry) :
    registry.drawnAfter (base + drawn) entry = base + registry.drawnAfter drawn entry := by
  unfold drawnAfter
  split <;> omega

/-- What a key holds after a batch was a message of the batch, or it stood there before and no message
was for the key. -/
theorem held_storeAll {ids : Nat → String} (entries : List Entry) {registry : Registry} {drawn : Nat}
    {key : Key} {held : Entry}
    (found : (registry.storeAll ids drawn entries).registry.find? key = some held) :
    (∃ message ∈ entries, held = { message with id := held.id, status := held.status }) ∨
      (registry.find? key = some held ∧ ∀ message ∈ entries, message.key ≠ key) := by
  induction entries generalizing registry drawn with
  | nil => exact .inr ⟨found, fun _ mem => absurd mem List.not_mem_nil⟩
  | cons entry rest ih =>
    rw [storeAll_cons] at found
    rcases ih found with ⟨message, mem, same⟩ | ⟨before, others⟩
    · exact .inl ⟨message, List.mem_cons_of_mem _ mem, same⟩
    · rw [find?_store] at before
      by_cases own : key = entry.key
      · rw [if_pos own] at before
        exact .inl ⟨entry, List.mem_cons_self, Option.some.inj before ▸ rfl⟩
      · rw [if_neg own] at before
        exact .inr ⟨before, List.forall_mem_cons.2 ⟨Ne.symm own, others⟩⟩

/-- A batch with an incomplete entry changes nothing, and the first such entry is named. -/
theorem post_refused (registry : Registry) (ids : Nat → String) {batch : List Entry} {entry : Entry}
    (first : batch.find? (!isComplete ·) = some entry) :
    registry.post ids batch = { answer := .error (.incomplete entry.name), registry } := by
  unfold post
  rw [first]

theorem post_complete (registry : Registry) (ids : Nat → String) {batch : List Entry}
    (complete : ∀ entry ∈ batch, isComplete entry = true) :
    registry.post ids batch =
      { registry.storeAll ids 0 batch with
        answer := .ok { entries := (registry.storeAll ids 0 batch).answer } } := by
  have nothing : batch.find? (!isComplete ·) = none :=
    List.find?_eq_none.2 fun entry mem => by simp [complete entry mem]
  unfold post
  rw [nothing]

theorem post_singleton (registry : Registry) (ids : Nat → String) {entry : Entry}
    (complete : isComplete entry = true) :
    registry.post ids [entry] =
      { answer := .ok { entries := [registry.admitted (ids 0) entry] }
        registry := registry.store (ids 0) entry
        events := [.stored entry.name entry.location (registry.provision entry)]
        drawn := registry.drawnAfter 0 entry } := by
  rw [post_complete registry ids (by simpa using complete)]
  rfl

theorem post_incomplete (registry : Registry) (ids : Nat → String) {entry : Entry}
    (incomplete : isComplete entry = false) :
    registry.post ids [entry] = { answer := .error (.incomplete entry.name), registry } :=
  registry.post_refused ids (List.find?_cons_of_pos (by simp [incomplete]))

def idAt (registry : Registry) (key : Key) : Option String := (registry.find? key).map Entry.id

theorem idAt_delete (entries : List Entry) (registry : Registry) (key : Key) :
    idAt (registry.delete entries).registry key = registry.idAt key ∨
      idAt (registry.delete entries).registry key = none := by
  rcases find?_delete entries registry key with kept | gone
  · exact .inl (congrArg (·.map Entry.id) kept)
  · exact .inr (congrArg (·.map Entry.id) gone)

theorem idAt_store (registry : Registry) (fresh : String) (entry : Entry) (key : Key) :
    idAt (registry.store fresh entry) key =
      if key = entry.key then some ((registry.idAt entry.key).getD fresh) else registry.idAt key := by
  unfold idAt
  rw [find?_store]
  split <;> rfl

theorem drawnAfter_of_absent {registry : Registry} {entry : Entry}
    (absent : registry.idAt entry.key = none) (drawn : Nat) :
    registry.drawnAfter drawn entry = drawn + 1 := by
  unfold drawnAfter provision
  unfold idAt at absent
  simp [Option.map_eq_none_iff.1 absent]

/-- What storing entries does to ids. -/
structure StoresIds (ids : Nat → String) (registry : Registry) (drawn : Nat)
    (effect : Effect (List Entry)) : Prop where
  drawn_le : drawn ≤ effect.drawn
  kept : ∀ key id, registry.idAt key = some id → effect.registry.idAt key = some id
  told : ∀ entry ∈ effect.answer, effect.registry.idAt entry.key = some entry.id
  fresh : ∀ key id, registry.idAt key = none → effect.registry.idAt key = some id →
    ∃ n, drawn ≤ n ∧ n < effect.drawn ∧ id = ids n

theorem storesIds_storeAll (ids : Nat → String) (entries : List Entry) (registry : Registry)
    (drawn : Nat) : StoresIds ids registry drawn (registry.storeAll ids drawn entries) := by
  induction entries generalizing registry drawn with
  | nil =>
    exact {
      drawn_le := Nat.le_refl _
      kept := fun _ _ held => held
      told := fun _ mem => absurd mem List.not_mem_nil
      fresh := fun key id absent held => absurd held (by simp [storeAll, absent]) }
  | cons entry rest ih =>
    have later := ih (registry.store (ids drawn) entry) (registry.drawnAfter drawn entry)
    have le := registry.le_drawnAfter drawn entry
    have placed := registry.idAt_store (ids drawn) entry
    rw [storeAll_cons]
    refine ⟨Nat.le_trans le later.drawn_le, fun key id held => later.kept key id ?_, ?_, ?_⟩
    · rw [placed]
      split
      · next same =>
        subst same
        rw [held, Option.getD_some]
      · exact held
    · intro told mem
      rcases List.mem_cons.1 mem with rfl | mem
      · exact later.kept entry.key _ ((placed _).trans (if_pos rfl))
      · exact later.told told mem
    · intro key id absent held
      by_cases same : key = entry.key
      · subst same
        have now : idAt (registry.store (ids drawn) entry) entry.key = some (ids drawn) := by
          rw [placed, if_pos rfl, absent, Option.getD_none]
        have drew : id = ids drawn := Option.some.inj (held.symm.trans (later.kept _ _ now))
        have counted := drawnAfter_of_absent absent drawn
        have bound := later.drawn_le
        exact ⟨drawn, Nat.le_refl _, by simp only; omega, drew⟩
      · obtain ⟨n, above, below, drew⟩ :=
          later.fresh key id (by rw [placed, if_neg same]; exact absent) held
        exact ⟨n, Nat.le_trans le above, below, drew⟩

/-- Whether each entry stands under the key that its location and name make up. -/
def Keyed (registry : Registry) : Prop :=
  ∀ key entry, registry.find? key = some entry → entry.key = key

theorem Keyed.key_of_mem {registry : Registry} (keyed : registry.Keyed) {entry : Key × Entry}
    (mem : entry ∈ registry.entries) : entry.2.key = entry.1 :=
  keyed entry.1 entry.2 ((registry.find?_eq_some_iff ..).2 mem)

/-- A look through all entries finds what a look-up by key does. -/
theorem Keyed.mem_values_iff {registry : Registry} (keyed : registry.Keyed) (entry : Entry) :
    entry ∈ registry.values ↔ registry.find? entry.key = some entry := by
  rw [OrderedMap.mem_values_iff]
  constructor
  · intro ⟨key, held⟩
    rw [keyed key entry held]
    exact held
  · exact fun held => ⟨entry.key, held⟩

theorem keyed_empty : Keyed ∅ := OrderedMap.all_empty

theorem keyed_storeAll {ids : Nat → String} (entries : List Entry) {registry : Registry}
    {drawn : Nat} (keyed : registry.Keyed) :
    Keyed (registry.storeAll ids drawn entries).registry := by
  induction entries generalizing registry drawn with
  | nil => exact keyed
  | cons entry rest ih =>
    rw [storeAll_cons]
    exact ih (OrderedMap.all_insert keyed rfl)

theorem keyed_delete {registry : Registry} (entries : List Entry) (keyed : registry.Keyed) :
    Keyed (registry.delete entries).registry := by
  intro key entry held
  rcases find?_delete entries registry key with kept | gone
  · exact keyed key entry (kept.symm.trans held)
  · exact absurd (gone.symm.trans held) (by simp)

theorem keyed_invoke {registry : Registry} (ids : Nat → String) (invocation : Invocation)
    (keyed : registry.Keyed) : Keyed (registry.invoke ids invocation).registry := by
  obtain ⟨operation, entries⟩ := invocation
  cases operation with
  | get => exact keyed
  | post =>
    simp only [invoke, post]
    cases entries.find? (!isComplete ·) with
    | some entry => exact keyed
    | none => exact keyed_storeAll entries keyed
  | delete => exact keyed_delete entries keyed

theorem error_invoke {registry : Registry} {ids : Nat → String} {invocation : Invocation}
    {answer : Answer} (carried : (registry.invoke ids invocation).answer = .ok answer) :
    answer.error = "" := by
  obtain ⟨operation, entries⟩ := invocation
  cases operation with
  | get => exact Except.ok.inj carried ▸ rfl
  | post =>
    simp only [invoke, post] at carried
    cases refused : entries.find? (!isComplete ·) with
    | some entry => simp [refused] at carried
    | none =>
      rw [refused] at carried
      exact Except.ok.inj carried ▸ rfl
  | delete => rw [answer_delete carried]

end PublicIp.Agent.Registry
