import PublicIp.Agent.Uuid
import PublicIp.Proofs.Agent.Asking

/-!
# Prechecks and what they foretell

A precheck looks for a holder of each wanted address. It may go through the entries in any order, and
names the holder that it meets first; nothing else depends on the order (`objectionTo_of_mem_iff`).
Where no address is held twice, it accepts what can be stored without a clash of addresses.
-/

namespace PublicIp.Agent

theorem Registry.answer_precheck (registry : Registry) (order batch : List Entry) :
    (registry.precheck order batch).answer = .ofObjection (objectionTo order batch) := rfl

/-- Whether two objections are the same, up to which of several holders of an address is named. -/
inductive SameButHolder (entries : List Entry) : Option String → Option String → Prop
  | same (objection : Option String) : SameButHolder entries objection objection
  | held {wanted first second : Entry} (address : wanted.ipAddress ≠ "") (known : first ∈ entries)
      (also : second ∈ entries) (blocks : Blocks wanted first) (too : Blocks wanted second) :
      SameButHolder entries (some (assigned wanted.ipAddress first.name))
        (some (assigned wanted.ipAddress second.name))

theorem SameButHolder.isNone_eq {entries : List Entry} {first second : Option String}
    (same : SameButHolder entries first second) : first.isNone = second.isNone := by
  cases same with
  | same => rfl
  | held => rfl

theorem SameButHolder.mono {entries others : List Entry} (sub : entries ⊆ others)
    {first second : Option String} (same : SameButHolder entries first second) :
    SameButHolder others first second := by
  cases same with
  | same => exact .same _
  | held address known also blocks too => exact .held address (sub known) (sub also) blocks too

section Order

variable {order other : List Entry}

theorem objectionIn?_of_mem_iff {wanted : Entry}
    (same : ∀ entry, entry.location = wanted.location → (entry ∈ order ↔ entry ∈ other)) :
    SameButHolder order (objectionIn? order wanted) (objectionIn? other wanted) := by
  unfold objectionIn?
  split
  · exact .same _
  split
  · exact .same _
  next address =>
    cases first : order.find? fun entry => Blocks wanted entry with
    | none =>
      have nobody : ∀ entry ∈ other, ¬ Blocks wanted entry := fun entry mem blocks =>
        List.find?_eq_none.1 first entry ((same entry blocks.1).2 mem) (decide_eq_true blocks)
      rw [List.find?_eq_none.2 fun entry mem => by simpa using nobody entry mem]
      exact .same _
    | some holder =>
      have blocks : Blocks wanted holder := by simpa using List.find?_some first
      have known := List.mem_of_find?_eq_some first
      cases second : other.find? fun entry => Blocks wanted entry with
      | none =>
        exact absurd (decide_eq_true blocks)
          (List.find?_eq_none.1 second holder ((same holder blocks.1).1 known))
      | some rival =>
        have also : Blocks wanted rival := by simpa using List.find?_some second
        have there := (same rival also.1).2 (List.mem_of_find?_eq_some second)
        exact .held address known there blocks also

/-- The objection to a batch depends on the entries at its locations only, up to the holder that is
named. -/
theorem objectionTo_of_mem_iff (batch : List Entry)
    (same : ∀ wanted ∈ batch, ∀ entry, entry.location = wanted.location →
      (entry ∈ order ↔ entry ∈ other)) :
    SameButHolder order (objectionTo order batch) (objectionTo other batch) := by
  induction batch with
  | nil => exact .same none
  | cons wanted rest ih =>
    obtain ⟨here, there⟩ := List.forall_mem_cons.1 same
    have first := objectionIn?_of_mem_iff here
    unfold objectionTo
    rw [List.findSome?_cons, List.findSome?_cons]
    revert first
    generalize objectionIn? order wanted = one
    generalize objectionIn? other wanted = another
    intro first
    cases first with
    | same =>
      cases one with
      | none => exact ih there
      | some text => exact .same _
    | held address known also blocks too => exact .held address known also blocks too

theorem objectionTo_eq_none_iff (batch : List Entry) :
    objectionTo order batch = none ↔
      ∀ wanted ∈ batch, wanted.location ≠ "" ∧
        (wanted.ipAddress ≠ "" → ∀ entry ∈ order, ¬ Blocks wanted entry) := by
  rw [objectionTo, List.findSome?_eq_none_iff]
  refine forall₂_congr fun wanted _ => ?_
  unfold objectionIn?
  by_cases located : wanted.location = ""
  · simp [located]
  · by_cases address : wanted.ipAddress = ""
    · simp [located, address]
    · simp [located, address]

end Order

/-- Whether no two entries at one location have one address under different names. -/
def AddressUnique (entries : List Entry) : Prop :=
  ∀ first ∈ entries, ∀ second ∈ entries, first.location = second.location →
    first.ipAddress = second.ipAddress → first.ipAddress ≠ "" → first.name = second.name

instance : DecidablePred AddressUnique := fun entries =>
  inferInstanceAs (Decidable (∀ first ∈ entries, ∀ second ∈ entries, _ → _ → _ → _))

theorem SameButHolder.eq_of_unique {entries : List Entry} (unique : AddressUnique entries)
    {first second : Option String} (same : SameButHolder entries first second) :
    first = second := by
  cases same with
  | same => rfl
  | @held wanted holder rival address known also blocks too =>
    have one := unique holder known rival also (blocks.1.trans too.1.symm)
      (blocks.2.1.trans too.2.1.symm) (blocks.2.1 ▸ address)
    rw [one]

/-- Entries that take location, address and name from others clash no more than these. -/
theorem AddressUnique.of_origin {entries others : List Entry} (unique : AddressUnique others)
    (origin : ∀ entry ∈ entries, ∃ other ∈ others, entry.location = other.location ∧
      entry.ipAddress = other.ipAddress ∧ entry.name = other.name) : AddressUnique entries := by
  intro first mem second mem' location address given
  obtain ⟨one, known, located, addressed, named⟩ := origin first mem
  obtain ⟨two, also, located', addressed', named'⟩ := origin second mem'
  rw [named, named']
  refine unique one known two also ?_ ?_ (addressed ▸ given)
  · rw [← located, ← located', location]
  · rw [← addressed, ← addressed', address]

/-- A batch to which there is no objection clashes with none of the entries that there are. -/
theorem AddressUnique.append {entries batch : List Entry} (unique : AddressUnique entries)
    (among : AddressUnique batch) (accepted : objectionTo entries batch = none) :
    AddressUnique (batch ++ entries) := by
  have free : ∀ wanted ∈ batch, wanted.ipAddress ≠ "" → ∀ entry ∈ entries,
      entry.location = wanted.location → entry.ipAddress = wanted.ipAddress →
        entry.name = wanted.name := by
    intro wanted mem given entry known location address
    have unblocked := ((objectionTo_eq_none_iff batch).1 accepted wanted mem).2 given entry known
    exact Decidable.not_not.1 fun named => unblocked ⟨location, address, named⟩
  intro first mem second mem' location address given
  rcases List.mem_append.1 mem with new | old
  · rcases List.mem_append.1 mem' with new' | old'
    · exact among first new second new' location address given
    · exact (free first new given second old' location.symm address.symm).symm
  · rcases List.mem_append.1 mem' with new' | old'
    · exact free second new' (address ▸ given) first old location address
    · exact unique first old second old' location address given

namespace Registry

variable {registry : Registry} (keyed : registry.Keyed)

include keyed

theorem addressUnique_storeAll (unique : AddressUnique registry.values) {batch : List Entry}
    (among : AddressUnique batch) (accepted : objectionTo registry.values batch = none)
    (ids : Nat → String) (drawn : Nat) :
    AddressUnique (registry.storeAll ids drawn batch).registry.values := by
  have later : Keyed (registry.storeAll ids drawn batch).registry := keyed_storeAll batch keyed
  -- What is held afterwards was held before, or takes location, name and address from the batch.
  refine (unique.append among accepted).of_origin fun entry mem => ?_
  rcases held_storeAll batch ((later.mem_values_iff entry).1 mem) with
    ⟨message, new, same⟩ | ⟨old, -⟩
  · refine ⟨message, List.mem_append_left _ new, ?_⟩
    rw [same]
    exact ⟨rfl, rfl, rfl⟩
  · exact ⟨entry, List.mem_append_right _ ((keyed.mem_values_iff entry).2 old), rfl, rfl, rfl⟩

omit keyed in
theorem post_of_accepted {batch : List Entry} (named : ∀ entry ∈ batch, entry.name ≠ "")
    (accepted : objectionTo registry.values batch = none) (ids : Nat → String) :
    registry.post ids batch =
      { registry.storeAll ids 0 batch with
        answer := .ok { entries := (registry.storeAll ids 0 batch).answer } } := by
  refine registry.post_complete ids fun entry mem => (isComplete_iff entry).2 ⟨named entry mem, ?_⟩
  exact ((objectionTo_eq_none_iff batch).1 accepted entry mem).1

/-- An entry that blocks another one stays when that one is stored, and clashes with it. -/
theorem not_addressUnique_store {wanted holder : Entry} (given : wanted.ipAddress ≠ "")
    (known : holder ∈ registry.values) (blocks : Blocks wanted holder) (fresh : String) :
    ¬ AddressUnique (registry.store fresh wanted).values := by
  intro unique
  have later : Keyed (registry.store fresh wanted) := OrderedMap.all_insert keyed rfl
  have apart : holder.key ≠ wanted.key := fun same => blocks.2.2 (congrArg Key.name same)
  have old : holder ∈ (registry.store fresh wanted).values := by
    rw [later.mem_values_iff, find?_store, if_neg apart]
    exact (keyed.mem_values_iff holder).1 known
  have new : registry.admitted fresh wanted ∈ (registry.store fresh wanted).values := by
    rw [later.mem_values_iff]
    exact (registry.find?_store fresh wanted wanted.key).trans (if_pos rfl)
  have same := unique holder old (registry.admitted fresh wanted) new blocks.1 blocks.2.1
  exact blocks.2.2 (same (blocks.2.1 ▸ given))

end Registry

/-- What the verdicts on batches say about storing them, where the entries are met in any order. -/
structure Foretells (registry : Registry) : Prop where
  /-- A batch that is accepted is stored, and no two entries clash afterwards. -/
  sound : AddressUnique registry.values → ∀ order : List Entry, order.Perm registry.values →
    ∀ batch : List Entry, AddressUnique batch → (∀ entry ∈ batch, entry.name ≠ "") →
      (registry.precheck order batch).answer.accepted = true → ∀ ids : Nat → String,
        (∃ answer, (registry.post ids batch).answer = .ok answer) ∧
          AddressUnique (registry.post ids batch).registry.values
  /-- A single entry is accepted exactly if it can be stored without a clash. -/
  complete : AddressUnique registry.values → ∀ order : List Entry, order.Perm registry.values →
    ∀ entry : Entry, entry.name ≠ "" → entry.location ≠ "" → ∀ ids : Nat → String,
      ((registry.precheck order [entry]).answer.accepted = true ↔
        AddressUnique (registry.post ids [entry]).registry.values)
  /-- Any two orders come to the same verdict. -/
  steady : ∀ order other : List Entry, order.Perm registry.values → other.Perm registry.values →
    ∀ batch : List Entry, (registry.precheck order batch).answer.accepted =
      (registry.precheck other batch).answer.accepted
  /-- If no address is held twice, the text is the same too. -/
  worded : AddressUnique registry.values → ∀ order other : List Entry,
    order.Perm registry.values → other.Perm registry.values → ∀ batch : List Entry,
      (registry.precheck order batch).answer = (registry.precheck other batch).answer

namespace Registry

theorem foretells_of_keyed {registry : Registry} (keyed : registry.Keyed) : Foretells registry := by
  have alike {order other : List Entry} (perm : order.Perm registry.values)
      (perm' : other.Perm registry.values) (batch : List Entry) :
      SameButHolder registry.values (objectionTo order batch) (objectionTo other batch) :=
    (objectionTo_of_mem_iff batch fun _ _ _ _ => (perm.trans perm'.symm).mem_iff).mono perm.subset
  have accepts {order : List Entry} (perm : order.Perm registry.values) (batch : List Entry) :
      (registry.precheck order batch).answer.accepted = true ↔
        objectionTo registry.values batch = none := by
    rw [answer_precheck, Verdict.ofObjection, (alike perm (.refl _) batch).isNone_eq,
      Option.isNone_iff_eq_none]
  constructor
  case sound =>
    intro unique order perm batch among named accepted ids
    have free := (accepts perm batch).1 accepted
    rw [post_of_accepted named free]
    exact ⟨⟨_, rfl⟩, addressUnique_storeAll keyed unique among free ids 0⟩
  case complete =>
    intro unique order perm entry named located ids
    rw [accepts perm, post_singleton registry ids ((isComplete_iff entry).2 ⟨named, located⟩)]
    constructor
    · intro accepted
      have alone : AddressUnique [entry] := by
        intro first mem second mem' _ _ _
        rw [List.mem_singleton.1 mem, List.mem_singleton.1 mem']
      exact addressUnique_storeAll keyed unique alone accepted ids 0
    · intro stored
      rw [objectionTo_eq_none_iff]
      intro wanted mem
      obtain rfl := List.mem_singleton.1 mem
      exact ⟨located, fun given holder known blocks =>
        not_addressUnique_store keyed given known blocks (ids 0) stored⟩
  case steady =>
    intro order other perm perm' batch
    rw [answer_precheck, answer_precheck, Verdict.ofObjection, Verdict.ofObjection,
      (alike perm perm' batch).isNone_eq]
  case worded =>
    intro unique order other perm perm' batch
    rw [answer_precheck, answer_precheck, (alike perm perm' batch).eq_of_unique unique]

end Registry

namespace Service

/-- After any run, prechecks foretell what can be stored, and the agent answers them so, in whatever
order it meets the entries. -/
theorem precheck_foretells (service : Service) (supply : Nat → String)
    (requests : List Http.Request) :
    let state := service.final supply requests {}
    Foretells state.registry ∧
      (∀ request batch, service.task request = .precheck batch →
        ∃ order : List Entry, order.Perm state.registry.values ∧
          service.serve supply request state =
            (.ofText 200 (Verdict.codec.encode (state.registry.precheck order batch).answer),
              state.apply (state.registry.precheck order batch))) ∧
      ∀ request batch, service.task request = .invoke ⟨.post, batch⟩ →
        service.serve supply request state =
          (replyTo (state.registry.post (state.ids supply) batch).answer,
            state.apply (state.registry.post (state.ids supply) batch)) := by
  intro state
  have keyed : state.registry.Keyed := service.keyed_final supply requests Registry.keyed_empty
  refine ⟨Registry.foretells_of_keyed keyed, fun request batch asked => ?_,
    fun request batch asked => serve_of_task asked supply state⟩
  exact ⟨service.scan.order state, service.scan.perm state, serve_of_precheck asked supply state⟩

/-- The address of an entry that was stored is refused to another one, which would clash. -/
theorem precheck_foretells_taken :
    let stored : Request := ⟨.post, [{ name := "web", location := "loc1", ipAddress := "20.1.2.3" }]⟩
    let registry := (final {} Uuid.text [asking stored] {}).registry
    let wanted : Entry := { name := "db", location := "loc1", ipAddress := "20.1.2.3" }
    AddressUnique registry.values ∧
      (registry.precheck registry.values [wanted]).answer =
        ⟨false, "IP address 20.1.2.3 is already assigned to [web]"⟩ ∧
      ¬ AddressUnique (registry.post Uuid.text [wanted]).registry.values := by
  intro stored registry wanted
  obtain ⟨unique, refused⟩ : AddressUnique registry.values ∧
      (registry.precheck registry.values [wanted]).answer =
        ⟨false, "IP address 20.1.2.3 is already assigned to [web]"⟩ := by decide +kernel
  obtain ⟨foretold, -, -⟩ := precheck_foretells {} Uuid.text [asking stored]
  refine ⟨unique, refused, fun clear => ?_⟩
  have accepted := (foretold.complete unique registry.values (List.Perm.refl _) wanted
    (by decide) (by decide) Uuid.text).2 clear
  rw [refused] at accepted
  exact absurd accepted Bool.false_ne_true

end Service

end PublicIp.Agent
