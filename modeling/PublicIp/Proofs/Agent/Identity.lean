import PublicIp.Proofs.Agent.Asking

/-!
# The life of an id

Ids come from the supply, each for one key, and a key keeps its id until it is removed. `Issued` is
what holds of the registry at any time if the supply repeats nothing; `Continues` says what one
request does to the id under a key. From the two follows what the replies of a run may carry.
-/

namespace PublicIp.Agent

/-- Whether the first ids of a supply are different from each other. -/
def NoRepeats (supply : Nat → String) (limit : Nat) : Prop :=
  ∀ m n, m < limit → n < limit → supply m = supply n → m = n

theorem NoRepeats.mono {supply : Nat → String} {limit less : Nat}
    (distinct : NoRepeats supply limit) (le : less ≤ limit) : NoRepeats supply less :=
  fun m n hm hn => distinct m n (Nat.lt_of_lt_of_le hm le) (Nat.lt_of_lt_of_le hn le)

/-- Each entry stands under its own key, with an id that was drawn and that no other entry has. -/
structure Issued (supply : Nat → String) (registry : Registry) (drawn : Nat) : Prop where
  keyed : ∀ key entry, registry.find? key = some entry → entry.key = key
  generated : ∀ key id, registry.idAt key = some id → ∃ n < drawn, id = supply n
  distinct : ∀ key other id, registry.idAt key = some id → registry.idAt other = some id → key = other

namespace Registry

variable {supply : Nat → String}

theorem issued_empty : Issued supply ∅ 0 where
  keyed _ _ held := absurd held (by simp)
  generated _ _ held := absurd held (by simp [idAt])
  distinct _ _ _ held := absurd held (by simp [idAt])

theorem not_idAt_supply {registry : Registry} {drawn : Nat} (issued : Issued supply registry drawn)
    (distinct : NoRepeats supply (drawn + 1)) (key : Key) :
    registry.idAt key ≠ some (supply drawn) := by
  intro held
  obtain ⟨n, below, same⟩ := issued.generated key _ held
  have again := distinct drawn n (by omega) (by omega) same
  omega

theorem issued_store {registry : Registry} {drawn : Nat} (issued : Issued supply registry drawn)
    (entry : Entry) (distinct : NoRepeats supply (registry.drawnAfter drawn entry)) :
    Issued supply (registry.store (supply drawn) entry) (registry.drawnAfter drawn entry) := by
  have le := registry.le_drawnAfter drawn entry
  have placed := registry.idAt_store (supply drawn) entry
  -- the id under the key of the entry is not that of another key
  have apart : ∀ other, other ≠ entry.key →
      registry.idAt other ≠ some ((registry.idAt entry.key).getD (supply drawn)) := by
    intro other ne
    cases held : registry.idAt entry.key with
    | some id => exact fun also => ne (issued.distinct other entry.key id also held)
    | none =>
      rw [drawnAfter_of_absent held] at distinct
      exact not_idAt_supply issued distinct other
  constructor
  case keyed => exact OrderedMap.all_insert issued.keyed rfl
  case generated =>
    intro key id held
    rw [placed] at held
    split at held
    · obtain rfl := Option.some.inj held
      cases old : registry.idAt entry.key with
      | some id =>
        obtain ⟨n, below, drew⟩ := issued.generated _ _ old
        exact ⟨n, Nat.lt_of_lt_of_le below le, drew⟩
      | none => exact ⟨drawn, by rw [drawnAfter_of_absent old]; omega, rfl⟩
    · obtain ⟨n, below, drew⟩ := issued.generated key id held
      exact ⟨n, Nat.lt_of_lt_of_le below le, drew⟩
  case distinct =>
    intro key other id held also
    rw [placed] at held also
    by_cases hk : key = entry.key <;> by_cases ho : other = entry.key
    · exact hk.trans ho.symm
    · rw [if_pos hk] at held
      rw [if_neg ho] at also
      exact absurd (also.trans held.symm) (apart other ho)
    · rw [if_neg hk] at held
      rw [if_pos ho] at also
      exact absurd (held.trans also.symm) (apart key hk)
    · rw [if_neg hk] at held
      rw [if_neg ho] at also
      exact issued.distinct key other id held also

theorem issued_storeAll (base : Nat) (entries : List Entry) (registry : Registry) (drawn : Nat)
    (issued : Issued supply registry (base + drawn))
    (distinct : NoRepeats supply
      (base + (registry.storeAll (fun n => supply (base + n)) drawn entries).drawn)) :
    Issued supply (registry.storeAll (fun n => supply (base + n)) drawn entries).registry
      (base + (registry.storeAll (fun n => supply (base + n)) drawn entries).drawn) := by
  induction entries generalizing registry drawn with
  | nil => exact issued
  | cons entry rest ih =>
    rw [storeAll_cons] at distinct ⊢
    have counted := registry.drawnAfter_add base drawn entry
    have le := (storesIds_storeAll (fun n => supply (base + n)) rest
      (registry.store (supply (base + drawn)) entry) (registry.drawnAfter drawn entry)).drawn_le
    have first := issued_store issued entry
      (distinct.mono (by rw [counted]; exact Nat.add_le_add_left le base))
    rw [counted] at first
    exact ih _ _ first distinct

theorem issued_delete {registry : Registry} {drawn : Nat} (issued : Issued supply registry drawn)
    (entries : List Entry) : Issued supply (registry.delete entries).registry drawn := by
  have ids (key : Key) (id : String)
      (held : idAt (registry.delete entries).registry key = some id) :
      registry.idAt key = some id := by
    rcases idAt_delete entries registry key with kept | gone
    · exact kept.symm.trans held
    · exact absurd (gone.symm.trans held) (by simp)
  constructor
  case keyed => exact keyed_delete entries issued.keyed
  case generated =>
    intro key id held
    exact issued.generated key id (ids key id held)
  case distinct =>
    intro key other id held also
    exact issued.distinct key other id (ids key id held) (ids other id also)

end Registry

def answered : Except Refusal Answer → List Entry
  | .ok answer => answer.entries
  | .error _ => []

/-- What happens to ids while a reply with some records is made. -/
structure Continues (supply : Nat → String) (before : Service.State) (records : List Entry)
    (after : Service.State) : Prop where
  drawn_le : before.drawn ≤ after.drawn
  kept : ∀ key id, before.registry.idAt key = some id →
    after.registry.idAt key = some id ∨ after.registry.idAt key = none
  told : ∀ entry ∈ records, after.registry.idAt entry.key = some entry.id
  fresh : ∀ key id, before.registry.idAt key = none → after.registry.idAt key = some id →
    ∃ n, before.drawn ≤ n ∧ n < after.drawn ∧ id = supply n

namespace Service

variable {supply : Nat → String}

/-- Whether ids are issued rightly in a state. -/
def State.IsIssued (state : State) (supply : Nat → String) : Prop :=
  Issued supply state.registry state.drawn

theorem continues_of_same {before after : State} (registry : after.registry = before.registry)
    (drawn : after.drawn = before.drawn) : Continues supply before [] after where
  drawn_le := Nat.le_of_eq drawn.symm
  kept _ _ held := .inl (registry ▸ held)
  told _ mem := absurd mem List.not_mem_nil
  fresh _ _ absent held := absurd held (by simp [registry, absent])

theorem continues_get {state : State} (issued : state.IsIssued supply) (wanted : List Entry) :
    Continues supply state (wanted.flatMap state.registry.wantedBy)
      (state.apply (state.registry.get wanted)) where
  drawn_le := Nat.le_refl _
  kept _ _ held := .inl held
  fresh _ _ absent held := absurd (absent.symm.trans held) (by simp)
  told entry mem := by
    obtain ⟨_, -, found⟩ := List.mem_flatMap.1 mem
    obtain ⟨key, held⟩ :=
      (state.registry.mem_values_iff entry).1 (List.mem_filter.1 found).1
    obtain rfl := issued.keyed key entry held
    exact Option.map_eq_some_iff.2 ⟨entry, held, rfl⟩

theorem continues_invoke {state : State} (issued : state.IsIssued supply)
    (invocation : Invocation) :
    Continues supply state (answered (state.invoke supply invocation).answer)
      (state.apply (state.invoke supply invocation)) := by
  obtain ⟨operation, entries⟩ := invocation
  cases operation with
  | get => exact continues_get issued entries
  | post =>
    simp only [State.invoke, Registry.invoke, Registry.post]
    cases entries.find? (!Registry.isComplete ·) with
    | some entry => exact continues_of_same rfl rfl
    | none =>
      have stores := Registry.storesIds_storeAll (state.ids supply) entries state.registry 0
      constructor
      case drawn_le => exact Nat.le_add_right _ _
      case kept => exact fun key id held => .inl (stores.kept key id held)
      case told => exact stores.told
      case fresh =>
        intro key id absent held
        obtain ⟨n, -, below, drew⟩ := stores.fresh key id absent held
        exact ⟨state.drawn + n, Nat.le_add_right _ _, Nat.add_lt_add_left below _, drew⟩
  | delete =>
    have shrunk (key : Key) := Registry.idAt_delete entries state.registry key
    have drew : (state.apply (state.invoke supply ⟨.delete, entries⟩)).drawn = state.drawn := by
      simp [State.apply, State.invoke, Registry.invoke, Registry.drawn_delete]
    constructor
    case drawn_le => exact Nat.le_of_eq drew.symm
    case kept =>
      intro key id held
      rcases shrunk key with kept | gone
      · exact .inl (kept.trans held)
      · exact .inr gone
    case told =>
      intro entry mem
      simp only [State.invoke, Registry.invoke] at mem
      cases carried : (state.registry.delete entries).answer with
      | error refusal => simp [carried, answered] at mem
      | ok answer => simp [carried, answered, Registry.answer_delete carried] at mem
    case fresh =>
      intro key id absent held
      rcases shrunk key with kept | gone
      · exact absurd (absent.symm.trans (kept.symm.trans held)) (by simp)
      · exact absurd (gone.symm.trans held) (by simp)

theorem issued_invoke {state : State} (issued : state.IsIssued supply) (invocation : Invocation)
    (distinct : NoRepeats supply (state.apply (state.invoke supply invocation)).drawn) :
    (state.apply (state.invoke supply invocation)).IsIssued supply := by
  obtain ⟨operation, entries⟩ := invocation
  cases operation with
  | get => exact issued
  | post =>
    unfold State.IsIssued
    simp only [State.apply, State.invoke, Registry.invoke, Registry.post] at distinct ⊢
    cases refused : entries.find? (!Registry.isComplete ·) with
    | some entry => exact issued
    | none =>
      rw [refused] at distinct
      exact Registry.issued_storeAll state.drawn entries state.registry 0 issued distinct
  | delete =>
    have drew := Registry.drawn_delete entries state.registry
    unfold State.IsIssued
    simp only [State.apply, State.invoke, Registry.invoke, drew, Nat.add_zero]
    exact Registry.issued_delete issued entries

/-- The records in a reply. -/
def records (service : Service) (supply : Nat → String) (exchange : Exchange) : List Entry :=
  match service.invocation? exchange.request with
  | some invocation => answered (exchange.before.invoke supply invocation).answer
  | none => []

theorem records_exchange (service : Service) (request : Http.Request) (state : State) :
    service.records supply (service.exchange supply request state) =
      match service.invocation? request with
      | some invocation => answered (state.invoke supply invocation).answer
      | none => [] := rfl

theorem continues_exchange {state : State} (issued : state.IsIssued supply) (service : Service)
    (request : Http.Request) :
    Continues supply state (service.records supply (service.exchange supply request state))
      (service.exchange supply request state).after := by
  rw [records_exchange]
  rcases service.exchange_cases supply request state with
    ⟨invocation, asked, -, after⟩ | ⟨asked, registry, drawn⟩
  · rw [asked, after]
    exact continues_invoke issued invocation
  · rw [asked]
    exact continues_of_same registry drawn

theorem issued_exchange {state : State} (issued : state.IsIssued supply) (service : Service)
    (request : Http.Request)
    (distinct : NoRepeats supply (service.exchange supply request state).after.drawn) :
    (service.exchange supply request state).after.IsIssued supply := by
  rcases service.exchange_cases supply request state with
    ⟨invocation, -, -, after⟩ | ⟨-, registry, drawn⟩
  · rw [after] at distinct ⊢
    exact issued_invoke issued invocation distinct
  · unfold State.IsIssued
    rw [registry, drawn]
    exact issued

theorem drawn_le_after (service : Service) (request : Http.Request) (state : State) :
    state.drawn ≤ (service.exchange supply request state).after.drawn := by
  rcases service.exchange_cases supply request state with
    ⟨invocation, -, -, after⟩ | ⟨-, -, drawn⟩
  · rw [after]
    exact Nat.le_add_right _ _
  · exact Nat.le_of_eq drawn.symm

theorem drawn_le_final (supply : Nat → String) (service : Service)
    (requests : List Http.Request) (state : State) :
    state.drawn ≤ (service.final supply requests state).drawn := by
  induction requests generalizing state with
  | nil => exact Nat.le_refl _
  | cons request rest ih => exact Nat.le_trans (service.drawn_le_after request state) (ih _)

theorem issued_final (service : Service) (requests : List Http.Request) {state : State}
    (issued : state.IsIssued supply)
    (distinct : NoRepeats supply (service.final supply requests state).drawn) :
    (service.final supply requests state).IsIssued supply := by
  induction requests generalizing state with
  | nil => exact issued
  | cons request rest ih =>
    exact ih (issued_exchange issued service request (distinct.mono (drawn_le_final ..))) distinct

/-- The ids that were told in a run were drawn in it or before. -/
theorem told_generated (service : Service) (requests : List Http.Request) {state : State}
    (issued : state.IsIssued supply)
    (distinct : NoRepeats supply (service.final supply requests state).drawn)
    {exchange : Exchange} (mem : exchange ∈ service.history supply requests state)
    {entry : Entry} (told : entry ∈ service.records supply exchange) :
    ∃ n < (service.final supply requests state).drawn, entry.id = supply n := by
  induction requests generalizing state with
  | nil => exact absurd mem List.not_mem_nil
  | cons request rest ih =>
    have bound := drawn_le_final supply service rest
      (service.exchange supply request state).after
    have next := issued_exchange issued service request (distinct.mono bound)
    rcases List.mem_cons.1 mem with rfl | later
    · have held := (continues_exchange issued service request).told entry told
      obtain ⟨n, below, drew⟩ := next.generated _ _ held
      exact ⟨n, Nat.lt_of_lt_of_le below bound, drew⟩
    · exact ih next distinct later

/-- While a key stays in the registry, all replies tell the id that it has. -/
theorem told_of_held (service : Service) (requests : List Http.Request) {state : State}
    (issued : state.IsIssued supply)
    (distinct : NoRepeats supply (service.final supply requests state).drawn)
    {key : Key} {id : String} (held : state.registry.idAt key = some id)
    (stays : ∀ exchange ∈ (service.history supply requests state).dropLast,
      (exchange.after.registry.find? key).isSome)
    {exchange : Exchange} (mem : exchange ∈ service.history supply requests state)
    {entry : Entry} (told : entry ∈ service.records supply exchange) (keyed : entry.key = key) :
    entry.id = id := by
  induction requests generalizing state with
  | nil => exact absurd mem List.not_mem_nil
  | cons request rest ih =>
    have bound := drawn_le_final supply service rest
      (service.exchange supply request state).after
    have step := continues_exchange issued service request
    rw [history] at mem stays
    rcases List.mem_cons.1 mem with rfl | later
    · have now := step.told entry told
      rw [keyed] at now
      rcases step.kept key id held with same | gone
      · exact Option.some.inj (now.symm.trans same)
      · exact absurd (now.symm.trans gone) (by simp)
    · have more := List.ne_nil_of_mem later
      rw [List.dropLast_cons_of_ne_nil more] at stays
      have present := stays _ List.mem_cons_self
      have after : (service.exchange supply request state).after.registry.idAt key = some id := by
        refine (step.kept key id held).resolve_right fun gone => ?_
        rw [Option.map_eq_none_iff.1 gone] at present
        exact absurd present (by simp)
      exact ih (issued_exchange issued service request (distinct.mono bound)) distinct after
        (fun exchange mem => stays exchange (List.mem_cons_of_mem _ mem)) later

theorem told_alike (service : Service) (requests : List Http.Request) {state : State}
    (issued : state.IsIssued supply)
    (distinct : NoRepeats supply (service.final supply requests state).drawn) (key : Key)
    (stays : ∀ exchange ∈ (service.history supply requests state).dropLast,
      (exchange.after.registry.find? key).isSome) :
    ∃ id, ∀ exchange ∈ service.history supply requests state,
      ∀ entry ∈ service.records supply exchange, entry.key = key → entry.id = id := by
  cases requests with
  | nil => exact ⟨"", fun _ mem => absurd mem List.not_mem_nil⟩
  | cons request rest =>
    have bound := drawn_le_final supply service rest
      (service.exchange supply request state).after
    have step := continues_exchange issued service request
    have next := issued_exchange issued service request (distinct.mono bound)
    refine ⟨((service.exchange supply request state).after.registry.idAt key).getD "",
      fun exchange mem entry told keyed => ?_⟩
    rw [history] at mem stays
    rcases List.mem_cons.1 mem with rfl | later
    · rw [← keyed, step.told entry told, Option.getD_some]
    · rw [List.dropLast_cons_of_ne_nil (List.ne_nil_of_mem later)] at stays
      obtain ⟨held, found⟩ := Option.isSome_iff_exists.1 (stays _ List.mem_cons_self)
      have after : (service.exchange supply request state).after.registry.idAt key =
          some held.id := Option.map_eq_some_iff.2 ⟨held, found, rfl⟩
      rw [after, Option.getD_some]
      exact told_of_held service rest next distinct after
        (fun exchange mem => stays exchange (List.mem_cons_of_mem _ mem)) later told keyed

/-- What holds of the ids of a run from the empty store. -/
structure IdLifeCycle (service : Service) (supply : Nat → String) (requests : List Http.Request) :
    Prop where
  /-- No two entries have one id. -/
  distinct : ∀ key other id, (service.final supply requests {}).registry.idAt key = some id →
    (service.final supply requests {}).registry.idAt other = some id → key = other
  /-- Every id in the store was drawn. -/
  generated : ∀ key id, (service.final supply requests {}).registry.idAt key = some id →
    ∃ n < (service.final supply requests {}).drawn, id = supply n
  /-- A reply with records carries nothing but them. -/
  carried : ∀ exchange ∈ service.history supply requests {},
    service.records supply exchange = [] ∨
      exchange.response =
        .ofText 200 (Answer.codec.encode { entries := service.records supply exchange })
  /-- The replies to some requests in turn tell one id for a key that stays in the store between
  them. -/
  kept : ∀ stay, stay <:+: service.history supply requests {} → ∀ key : Key,
    (∀ exchange ∈ stay.dropLast, (exchange.after.registry.find? key).isSome) →
      ∃ id, ∀ exchange ∈ stay, ∀ entry ∈ service.records supply exchange,
        entry.key = key → entry.id = id
  /-- A reply tells an id for a key that was not in the store, and none before told that id. -/
  fresh : ∀ earlier exchange, earlier ++ [exchange] <+: service.history supply requests {} →
    ∀ entry ∈ service.records supply exchange, exchange.before.registry.find? entry.key = none →
      ∀ past ∈ earlier, ∀ old ∈ service.records supply past, old.id ≠ entry.id

theorem carried_records (service : Service) (request : Http.Request) (state : State) :
    service.records supply (service.exchange supply request state) = [] ∨
      (service.exchange supply request state).response = .ofText 200 (Answer.codec.encode
        { entries := service.records supply (service.exchange supply request state) }) := by
  rw [records_exchange]
  rcases service.exchange_cases supply request state with
    ⟨invocation, asked, replied, -⟩ | ⟨asked, -, -⟩
  · rw [asked, replied]
    simp only
    cases carried : (state.invoke supply invocation).answer with
    | error refusal => exact .inl rfl
    | ok answer =>
      refine .inr ?_
      obtain ⟨entries, error⟩ := answer
      obtain rfl : error = "" := Registry.error_invoke carried
      rfl
  · rw [asked]
    exact .inl rfl

/-- Every run from the empty store lets ids live as they should, if the supply repeats none of the
ids that are drawn. -/
theorem ids_live_once (service : Service) (supply : Nat → String) (requests : List Http.Request)
    (distinct : NoRepeats supply (service.final supply requests {}).drawn) :
    IdLifeCycle service supply requests := by
  have start : State.IsIssued {} supply := Registry.issued_empty
  have ending := issued_final service requests start distinct
  constructor
  case distinct => exact ending.distinct
  case generated => exact ending.generated
  case carried =>
    intro exchange mem
    obtain ⟨earlier, later, split⟩ := List.append_of_mem mem
    obtain ⟨early, request, -, -, -, rfl⟩ := history_at split
    exact carried_records service request _
  case kept =>
    intro stay inside key stays
    obtain ⟨before, after, split⟩ := inside
    obtain ⟨early, rest, rfl, made, rfl⟩ := history_split split.symm
    obtain ⟨first, others, rfl, -, rfl⟩ := history_split made
    rw [final_append, final_append] at distinct
    have during := distinct.mono (drawn_le_final supply service rest _)
    have before := during.mono (drawn_le_final supply service others _)
    exact told_alike service others (issued_final service first start before) during key stays
  case fresh =>
    intro earlier exchange begins entry told absent past mem old known
    obtain ⟨later, split⟩ := begins
    rw [List.append_assoc, List.singleton_append] at split
    obtain ⟨early, request, late, rfl, rfl, rfl⟩ := history_at split.symm
    rw [final_append] at distinct
    have after := distinct.mono (drawn_le_final supply service late _)
    have before := after.mono (drawn_le_after service request _)
    have issued := issued_final service early start before
    have step := continues_exchange issued service request
    obtain ⟨m, low, was⟩ := told_generated service early start before mem known
    obtain ⟨n, high, below, now⟩ := step.fresh entry.key entry.id
      (Option.map_eq_none_iff.2 absent) (step.told entry told)
    intro same
    have again := after m n (Nat.lt_trans (Nat.lt_of_lt_of_le low high) below) below
      (was.symm.trans (same.trans now))
    omega

theorem records_asking {request : PublicIp.Request}
    (fits : (Request.codec.toTree request).size ≤ maxBodySize) (state : State) :
    records {} supply (exchange {} supply (asking request) state) =
      answered (state.invoke supply (.ofRequest request)).answer := by
  rw [records_exchange, invocation?_asking (Nat.le_trans (Nat.le_of_eq (size_asking request)) fits)]

/-- An address is created, deleted, and created once more, with another id than before. -/
theorem ids_live_once_recreated :
    let supply (n : Nat) := String.ofList (List.replicate (n + 1) 'a')
    let requests := [
      asking ⟨.post, [{ name := "ip1", location := "westus", id := "mine" }]⟩,
      asking ⟨.delete, [{ name := "ip1", location := "westus" }]⟩,
      asking ⟨.post, [{ name := "ip1", location := "westus" }]⟩]
    NoRepeats supply (final {} supply requests {}).drawn ∧
      (history {} supply requests {}).map (fun exchange =>
        (records {} supply exchange).map Entry.id) = [["a"], [], ["aa"]] ∧
      IdLifeCycle {} supply requests := by
  intro supply requests
  have distinct (limit : Nat) : NoRepeats supply limit := by
    intro m n _ _ same
    have lengths := congrArg (fun s : String => s.toList.length) same
    simpa [supply] using lengths
  have told : (history {} supply requests {}).map (fun exchange =>
      (records {} supply exchange).map Entry.id) = [["a"], [], ["aa"]] := by
    have created : (Request.codec.toTree
        ⟨.post, [{ name := "ip1", location := "westus", id := "mine" }]⟩).size ≤ maxBodySize := by
      decide +kernel
    have deleted : (Request.codec.toTree
        ⟨.delete, [{ name := "ip1", location := "westus" }]⟩).size ≤ maxBodySize := by
      decide +kernel
    have recreated : (Request.codec.toTree
        ⟨.post, [{ name := "ip1", location := "westus" }]⟩).size ≤ maxBodySize := by
      decide +kernel
    simp only [requests, history, List.map_cons, List.map_nil, records_asking created,
      records_asking deleted, records_asking recreated, after_asking created, after_asking deleted]
    decide +kernel
  exact ⟨distinct _, told, ids_live_once {} supply requests (distinct _)⟩

end Service

end PublicIp.Agent
