import Mathlib.Data.List.Find
import PublicIp.Agent.Uuid
import PublicIp.Proofs.Agent.Asking

/-!
# Storing a batch

The entries of a batch are stored in turn, each into what the ones before it have left, so a batch may be
cut anywhere (`storeAll_append`). What is told of an entry depends on the registry and on the keys that
come before it, and what is left under a key is what was told of it last.
-/

namespace PublicIp.Agent

namespace Registry

variable (registry : Registry) (ids : Nat → String)

theorem storeAll_append (drawn : Nat) (first second : List Entry) :
    registry.storeAll ids drawn (first ++ second) =
      let effect := registry.storeAll ids drawn first
      let later := storeAll effect.registry ids effect.drawn second
      { later with
        answer := effect.answer ++ later.answer
        events := effect.events ++ later.events } := by
  induction first generalizing registry drawn with
  | nil => rfl
  | cons entry first ih =>
    rw [List.cons_append, storeAll_cons, storeAll_cons, ih]
    rfl

/-- It makes no difference whether ids are counted from the start or from later on. -/
theorem storeAll_shift (base drawn : Nat) (entries : List Entry) :
    registry.storeAll ids (base + drawn) entries =
      let effect := registry.storeAll (fun n => ids (base + n)) drawn entries
      { effect with drawn := base + effect.drawn } := by
  induction entries generalizing registry drawn with
  | nil => rfl
  | cons entry rest ih =>
    rw [storeAll_cons, storeAll_cons, drawnAfter_add, ih]

theorem length_storeAll (drawn : Nat) (entries : List Entry) :
    (registry.storeAll ids drawn entries).answer.length = entries.length := by
  induction entries generalizing registry drawn with
  | nil => rfl
  | cons entry rest ih =>
    rw [storeAll_cons]
    exact congrArg (· + 1) (ih _ _)

theorem told_storeAll (drawn : Nat) (earlier : List Entry) (entry : Entry) (later : List Entry) :
    (registry.storeAll ids drawn (earlier ++ entry :: later)).answer[earlier.length]? =
      some (admitted (registry.storeAll ids drawn earlier).registry
        (ids (registry.storeAll ids drawn earlier).drawn) entry) := by
  have place := registry.length_storeAll ids drawn earlier
  rw [storeAll_append]
  simp only [storeAll_cons]
  rw [List.getElem?_append_right (Nat.le_of_eq place), place, Nat.sub_self,
    List.getElem?_cons_zero]

theorem find?_storeAll_of_not_mem {key : Key} (drawn : Nat) {entries : List Entry}
    (away : key ∉ entries.map Entry.key) :
    (registry.storeAll ids drawn entries).registry.find? key = registry.find? key := by
  induction entries generalizing registry drawn with
  | nil => rfl
  | cons entry rest ih =>
    rw [List.map_cons, List.mem_cons, not_or] at away
    rw [storeAll_cons]
    refine (ih _ _ away.2).trans ?_
    rw [find?_store, if_neg away.1]

theorem find?_storeAll_eq_none_iff (key : Key) (drawn : Nat) (entries : List Entry) :
    (registry.storeAll ids drawn entries).registry.find? key = none ↔
      registry.find? key = none ∧ key ∉ entries.map Entry.key := by
  induction entries generalizing registry drawn with
  | nil => simp [storeAll]
  | cons entry rest ih =>
    rw [storeAll_cons]
    refine (ih _ _).trans ?_
    rw [find?_store, List.map_cons, List.mem_cons]
    by_cases own : key = entry.key <;> simp [own]

/-- Whether an entry is created, which follows others of a batch. -/
theorem provision_storeAll (drawn : Nat) (earlier : List Entry) (entry : Entry) :
    provision (registry.storeAll ids drawn earlier).registry entry =
      if registry.find? entry.key = none ∧ entry.key ∉ earlier.map Entry.key then .created
      else .updated := by
  have absent := registry.find?_storeAll_eq_none_iff ids entry.key drawn earlier
  unfold provision
  by_cases new : registry.find? entry.key = none ∧ entry.key ∉ earlier.map Entry.key
  · rw [if_pos new, absent.2 new]
    rfl
  · rw [if_neg new, Option.isSome_iff_ne_none.2 (fun none => new (absent.1 none))]
    rfl

end Registry

/-- What is told of a batch that is stored, and what is left of the registry. -/
structure StoresBatch (registry : Registry) (batch told : List Entry) (after : Registry) : Prop where
  length : told.length = batch.length
  /-- An entry is told as it was given but for its id and its status. It is created if its key was
  absent and does not come earlier in the batch. -/
  each : ∀ earlier entry later, batch = earlier ++ entry :: later → ∃ id,
    told[earlier.length]? = some { entry with
      id := id
      status := some (Provision.status
        (if registry.find? entry.key = none ∧ entry.key ∉ earlier.map Entry.key then .created
        else .updated)) }
  oneId : ∀ first ∈ told, ∀ second ∈ told, first.key = second.key → first.id = second.id
  keptId : ∀ reply ∈ told, ∀ old, registry.find? reply.key = some old → reply.id = old.id
  /-- A key holds what was told of it last. -/
  last : ∀ earlier entry later, batch = earlier ++ entry :: later →
    entry.key ∉ later.map Entry.key → after.find? entry.key = told[earlier.length]?
  others : ∀ key, key ∉ batch.map Entry.key → after.find? key = registry.find? key

theorem Registry.storesBatch (registry : Registry) (ids : Nat → String) (drawn : Nat)
    (batch : List Entry) :
    StoresBatch registry batch (registry.storeAll ids drawn batch).answer
      (registry.storeAll ids drawn batch).registry := by
  have stores := storesIds_storeAll ids batch registry drawn
  constructor
  case length => exact registry.length_storeAll ids drawn batch
  case each =>
    rintro earlier entry later rfl
    rw [told_storeAll, admitted, provision_storeAll]
    exact ⟨_, rfl⟩
  case oneId =>
    intro first mem second mem' same
    have held := stores.told first mem
    rw [same, stores.told second mem'] at held
    exact (Option.some.inj held).symm
  case keptId =>
    intro reply mem old held
    have kept := stores.kept reply.key old.id (Option.map_eq_some_iff.2 ⟨old, held, rfl⟩)
    exact Option.some.inj ((stores.told reply mem).symm.trans kept)
  case last =>
    rintro earlier entry later rfl alone
    rw [told_storeAll, storeAll_append]
    simp only [storeAll_cons]
    rw [find?_storeAll_of_not_mem _ _ _ alone, find?_store, if_pos rfl]
  case others => exact fun key away => registry.find?_storeAll_of_not_mem ids drawn away

namespace Service

/-- What becomes of a batch to be stored: what is replied, and what is left of the registry. -/
structure PostsBatch (registry : Registry) (batch : List Entry) (response : Http.Response)
    (after : Registry) : Prop where
  /-- The first entry without a name or a location is named, and nothing is stored. -/
  refused : ∀ first, batch.find? (fun entry => entry.name = "" ∨ entry.location = "") = some first →
    response =
        .ofText 400 ("public IP address [" ++ first.name ++ "] needs a name and a location") ∧
      after = registry
  stored : (∀ entry ∈ batch, entry.name ≠ "" ∧ entry.location ≠ "") → ∃ told,
    response = .ofText 200 (Answer.codec.encode { entries := told }) ∧
      StoresBatch registry batch told after

theorem State.apply_post_append (state : State) (supply : Nat → String) {first second : List Entry}
    (complete : ∀ entry ∈ first ++ second, Registry.isComplete entry = true) :
    let early := state.invoke supply ⟨.post, first⟩
    let late := (state.apply early).invoke supply ⟨.post, second⟩
    let whole := state.invoke supply ⟨.post, first ++ second⟩
    state.apply whole = (state.apply early).apply late ∧
      ∃ told more, early.answer = .ok { entries := told } ∧ late.answer = .ok { entries := more } ∧
        whole.answer = .ok { entries := told ++ more } := by
  intro early late whole
  obtain ⟨early_complete, late_complete⟩ := List.forall_mem_append.1 complete
  let told := state.registry.storeAll (state.ids supply) 0 first
  let more := Registry.storeAll told.registry (fun n => state.ids supply (told.drawn + n)) 0 second
  have early_eq : early = { told with answer := .ok { entries := told.answer } } :=
    Registry.post_complete _ _ early_complete
  have late_eq : late = { more with answer := .ok { entries := more.answer } } := by
    calc late
      _ = (state.apply early).registry.post ((state.apply early).ids supply) second := rfl
      _ = Registry.post told.registry (fun n => state.ids supply (told.drawn + n)) second := by
        rw [State.registry_apply, State.ids_apply, early_eq]
      _ = _ := Registry.post_complete _ _ late_complete
  have shifted : Registry.storeAll told.registry (state.ids supply) told.drawn second =
      { more with drawn := told.drawn + more.drawn } :=
    Registry.storeAll_shift told.registry (state.ids supply) told.drawn 0 second
  have whole_eq : whole = {
      answer := .ok { entries := told.answer ++ more.answer }
      registry := more.registry
      events := told.events ++ more.events
      drawn := told.drawn + more.drawn } := by
    calc whole
      _ = state.registry.post (state.ids supply) (first ++ second) := rfl
      _ = _ := by
        rw [Registry.post_complete _ _ complete, Registry.storeAll_append]
        dsimp only
        rw [shifted]
  rw [early_eq, late_eq, whole_eq]
  refine ⟨?_, told.answer, more.answer, rfl, rfl, rfl⟩
  simp only [State.apply, List.append_assoc, Nat.add_assoc]

theorem postsBatch (registry : Registry) (ids : Nat → String) (batch : List Entry) :
    PostsBatch registry batch (replyTo (registry.post ids batch).answer)
      (registry.post ids batch).registry := by
  have same : (batch.find? fun entry => entry.name = "" ∨ entry.location = "") =
      batch.find? (!Registry.isComplete ·) := by
    refine List.find?_congr fun entry _ => ?_
    simp [Registry.isComplete]
  constructor
  case refused =>
    intro first found
    rw [same] at found
    rw [registry.post_refused ids found]
    exact ⟨rfl, rfl⟩
  case stored =>
    intro complete
    have complete (entry) (mem) := (Registry.isComplete_iff entry).2 (complete entry mem)
    rw [registry.post_complete ids complete]
    exact ⟨_, rfl, registry.storesBatch ids 0 batch⟩

variable (service : Service) (supply : Nat → String) (requests : List Http.Request)

/-- After any run, a batch with an incomplete entry is refused, and any other one is stored entry by
entry. Storing two batches one after the other is storing both as one. -/
theorem batch_posted (batch : List Entry) :
    let state := service.final supply requests {}
    let effect := state.invoke supply ⟨.post, batch⟩
    PostsBatch state.registry batch (replyTo effect.answer) effect.registry ∧
      (∀ first second : List Entry, batch = first ++ second →
        (∀ entry ∈ batch, entry.name ≠ "" ∧ entry.location ≠ "") →
          let early := state.invoke supply ⟨.post, first⟩
          let late := (state.apply early).invoke supply ⟨.post, second⟩
          state.apply effect = (state.apply early).apply late ∧
            ∃ told more, early.answer = .ok { entries := told } ∧
              late.answer = .ok { entries := more } ∧
                effect.answer = .ok { entries := told ++ more }) ∧
      ∀ request, service.task request = .invoke ⟨.post, batch⟩ →
        service.serve supply request state = (replyTo effect.answer, state.apply effect) := by
  intro state effect
  refine ⟨postsBatch state.registry (state.ids supply) batch, ?_, fun request asked => ?_⟩
  · rintro first second rfl complete
    exact state.apply_post_append supply fun entry mem =>
      (Registry.isComplete_iff entry).2 (complete entry mem)
  · exact serve_of_task asked supply state

/-- An address that comes twice in a batch is created first and updated then, next to one that was
there before. -/
theorem batch_posted_repeated :
    let stored : PublicIp.Request := ⟨.post, [{ name := "db", location := "loc1" }]⟩
    let posting : PublicIp.Request := ⟨.post, [{ name := "web", location := "loc1" },
      { name := "db", location := "loc1" },
      { name := "web", location := "loc1", ipAddress := "10.0.0.1" }]⟩
    let state := final {} Uuid.text [asking stored] {}
    let effect := state.invoke Uuid.text (.ofRequest posting)
    ∃ told : List Entry,
      serve {} Uuid.text (asking posting) state =
          (.ofText 200 (Answer.codec.encode { entries := told }), state.apply effect) ∧
        told.length = 3 ∧
        told[0]?.bind Entry.status = some Provision.created.status ∧
        told[1]?.bind Entry.status = some Provision.updated.status ∧
        told[2]?.bind Entry.status = some Provision.updated.status ∧
        effect.registry.find? ⟨"loc1", "web"⟩ = told[2]? := by
  intro stored posting state effect
  let web : Entry := .ofMessage { name := "web", location := "loc1" }
  let db : Entry := .ofMessage { name := "db", location := "loc1" }
  let again : Entry := .ofMessage { name := "web", location := "loc1", ipAddress := "10.0.0.1" }
  have reached : state = State.apply {} (State.invoke {} Uuid.text (.ofRequest stored)) :=
    final_asking (by decide +kernel) Uuid.text [] {}
  have absent : state.registry.find? web.key = none := by
    rw [reached]
    decide +kernel
  have present : state.registry.find? db.key ≠ none := by
    rw [reached]
    decide +kernel
  obtain ⟨posts, -, served⟩ := batch_posted {} Uuid.text [asking stored] [web, db, again]
  obtain ⟨told, replied, stores⟩ := posts.stored (by decide +kernel)
  have fits : (asking posting).body.size ≤ maxBodySize := by
    rw [size_asking]
    decide +kernel
  refine ⟨told, ?_, stores.length, ?_, ?_, ?_, ?_⟩
  · have asked : task {} (asking posting) = .invoke ⟨.post, [web, db, again]⟩ := task_asking fits
    exact (served _ asked).trans (congrArg (·, state.apply effect) replied)
  · obtain ⟨id, first⟩ := stores.each [] web [db, again] rfl
    rw [if_pos ⟨absent, List.not_mem_nil⟩] at first
    exact congrArg (·.bind Entry.status) first
  · obtain ⟨id, second⟩ := stores.each [web] db [again] rfl
    rw [if_neg (fun new => present new.1)] at second
    exact congrArg (·.bind Entry.status) second
  · obtain ⟨id, third⟩ := stores.each [web, db] again [] rfl
    rw [if_neg (fun new => new.2 (by decide))] at third
    exact congrArg (·.bind Entry.status) third
  · exact stores.last [web, db] again [] rfl List.not_mem_nil

end Service

end PublicIp.Agent
