import PublicIp.Agent.Uuid
import PublicIp.Proofs.Agent.Asking

/-!
# Deleting a batch

The entries of a batch are deleted in turn, each from what the ones before it have left. So what comes
before the first entry that is not there, or not there any more, is deleted in any case
(`delete_append`), and a batch is carried out as a whole exactly if all its keys are there and differ
from each other.
-/

namespace PublicIp.Agent

/-- Whether all keys of a batch are there, each of them once. -/
structure Deletable (registry : Registry) (batch : List Entry) : Prop where
  present : ∀ entry ∈ batch, (registry.find? entry.key).isSome
  distinct : (batch.map Entry.key).Nodup

/-- Where the first entry of a batch stands that is not there, or was deleted just before. -/
structure FailsAt (registry : Registry) (batch earlier : List Entry) (entry : Entry)
    (later : List Entry) : Prop where
  split : batch = earlier ++ entry :: later
  before : Deletable registry earlier
  gone : registry.find? entry.key = none ∨ entry.key ∈ earlier.map Entry.key

namespace Deletable

variable {registry : Registry} {batch : List Entry}

theorem nil (registry : Registry) : Deletable registry [] where
  present _ mem := absurd mem List.not_mem_nil
  distinct := List.nodup_nil

theorem perm {other : List Entry} (same : other.Perm batch) :
    Deletable registry other ↔ Deletable registry batch := by
  have forward {a b : List Entry} (same : a.Perm b) (deletable : Deletable registry a) :
      Deletable registry b :=
    ⟨fun entry mem => deletable.present entry (same.mem_iff.2 mem),
      (same.map _).nodup_iff.1 deletable.distinct⟩
  exact ⟨forward same, forward same.symm⟩

theorem tail {entry : Entry} {rest : List Entry} (deletable : Deletable registry (entry :: rest)) :
    Deletable (registry.erase entry.key) rest := by
  have distinct := deletable.distinct
  rw [List.map_cons, List.nodup_cons] at distinct
  refine ⟨fun other mem => ?_, distinct.2⟩
  have apart : other.key ≠ entry.key := fun same =>
    distinct.1 (same ▸ List.mem_map_of_mem mem)
  rw [OrderedMap.find?_erase, if_neg apart]
  exact deletable.present other (List.mem_cons_of_mem _ mem)

theorem concat {entry : Entry} (deletable : Deletable registry batch)
    (there : ¬ (registry.find? entry.key = none ∨ entry.key ∈ batch.map Entry.key)) :
    Deletable registry (batch ++ [entry]) := by
  obtain ⟨held, new⟩ := not_or.1 there
  constructor
  case present =>
    intro other mem
    rcases List.mem_append.1 mem with mem | mem
    · exact deletable.present other mem
    · rw [List.mem_singleton.1 mem]
      exact Option.isSome_iff_ne_none.2 held
  case distinct =>
    rw [List.map_append, List.map_singleton, List.nodup_append]
    refine ⟨deletable.distinct, List.pairwise_singleton _ _, fun key mem other last same => ?_⟩
    exact new (List.mem_singleton.1 last ▸ same ▸ mem)

end Deletable

theorem FailsAt.not_deletable {registry : Registry} {batch earlier later : List Entry}
    {entry : Entry} (fails : FailsAt registry batch earlier entry later) :
    ¬ Deletable registry batch := by
  obtain ⟨rfl, -, gone⟩ := fails
  intro deletable
  rcases gone with absent | again
  · have held := deletable.present entry (List.mem_append_right _ List.mem_cons_self)
    rw [absent] at held
    exact absurd held Bool.false_ne_true
  · have distinct := deletable.distinct
    rw [List.map_append, List.map_cons, List.nodup_append] at distinct
    exact distinct.2.2 _ again _ List.mem_cons_self rfl

theorem deletable_or_failsAt (registry : Registry) (batch : List Entry) :
    Deletable registry batch ∨ ∃ earlier entry later, FailsAt registry batch earlier entry later := by
  -- What was passed already can be deleted; the rest is gone through.
  have pass (rest done : List Entry) (deletable : Deletable registry done) :
      Deletable registry (done ++ rest) ∨
        ∃ earlier entry later, FailsAt registry (done ++ rest) earlier entry later := by
    induction rest generalizing done with
    | nil => exact .inl (by rwa [List.append_nil])
    | cons entry rest ih =>
      by_cases gone : registry.find? entry.key = none ∨ entry.key ∈ done.map Entry.key
      · exact .inr ⟨done, entry, rest, rfl, deletable, gone⟩
      · have more := ih (done ++ [entry]) (deletable.concat gone)
        rwa [List.append_assoc, List.singleton_append] at more
  exact pass batch [] (.nil registry)

namespace Registry

def eraseAll (registry : Registry) (entries : List Entry) : Registry :=
  entries.foldl (fun registry entry => registry.erase entry.key) registry

theorem find?_eraseAll (registry : Registry) (entries : List Entry) (key : Key) :
    (registry.eraseAll entries).find? key =
      if key ∈ entries.map Entry.key then none else registry.find? key := by
  induction entries generalizing registry with
  | nil => simp [eraseAll]
  | cons entry rest ih =>
    have step := ih (registry.erase entry.key)
    rw [OrderedMap.find?_erase] at step
    refine step.trans ?_
    by_cases own : key = entry.key <;> simp [own]

theorem eraseAll_eq_self_iff {registry : Registry} {entries : List Entry}
    (deletable : Deletable registry entries) :
    registry.eraseAll entries = registry ↔ entries = [] := by
  constructor
  · intro same
    cases entries with
    | nil => rfl
    | cons first rest =>
      have gone := registry.find?_eraseAll (first :: rest) first.key
      rw [same, if_pos (by simp)] at gone
      have held := deletable.present first List.mem_cons_self
      rw [gone] at held
      exact absurd held Bool.false_ne_true
  · rintro rfl
    rfl

def removal (entry : Entry) : Event := .removed entry.name entry.location

/-- As much of a batch as can be deleted is deleted first. -/
theorem delete_append {registry : Registry} {earlier : List Entry}
    (deletable : Deletable registry earlier) (rest : List Entry) :
    registry.delete (earlier ++ rest) =
      { delete (registry.eraseAll earlier) rest with
        events := earlier.map removal ++ (delete (registry.eraseAll earlier) rest).events } := by
  induction earlier generalizing registry with
  | nil => rfl
  | cons entry earlier ih =>
    obtain ⟨held, found⟩ :=
      Option.isSome_iff_exists.1 (deletable.present entry List.mem_cons_self)
    rw [List.cons_append, delete, found]
    simp only [ih deletable.tail]
    rfl

theorem delete_of_deletable {registry : Registry} {batch : List Entry}
    (deletable : Deletable registry batch) :
    registry.delete batch =
      { answer := .ok {}, registry := registry.eraseAll batch, events := batch.map removal } := by
  have whole := delete_append deletable []
  rw [List.append_nil] at whole
  rw [whole, delete, List.append_nil]

theorem delete_of_failsAt {registry : Registry} {batch earlier later : List Entry} {entry : Entry}
    (fails : FailsAt registry batch earlier entry later) :
    registry.delete batch =
      { answer := .error (.missing entry.name)
        registry := registry.eraseAll earlier
        events := earlier.map removal } := by
  obtain ⟨rfl, before, gone⟩ := fails
  have absent : (registry.eraseAll earlier).find? entry.key = none := by
    rw [find?_eraseAll]
    split
    · rfl
    · next new => exact gone.resolve_right new
  rw [delete_append before, delete, absent]
  simp only [List.append_nil]

/-- A batch is known by its keys. -/
theorem delete_congr {batch other : List Entry} (same : other.map Entry.key = batch.map Entry.key)
    (registry : Registry) : registry.delete other = registry.delete batch := by
  induction batch generalizing other registry with
  | nil => rw [List.map_eq_nil_iff.1 same]
  | cons entry rest ih =>
    obtain ⟨twin, others, rfl, key, keys⟩ := List.map_eq_cons_iff.1 same
    have name : twin.name = entry.name := congrArg Key.name key
    have location : twin.location = entry.location := congrArg Key.location key
    rw [delete, delete, key, name, location, ih keys]

end Registry

namespace Service

open Registry

/-- What becomes of a batch to be deleted: what is replied, and what is left of the registry. -/
structure DeletesBatch (registry : Registry) (batch : List Entry) (response : Http.Response)
    (after : Registry) : Prop where
  accepted : response.status = 200 ↔ Deletable registry batch
  /-- A batch that is accepted is gone afterwards, and nothing else is. -/
  carried : Deletable registry batch →
    response = .ofText 200 (Answer.codec.encode {}) ∧
      ∀ key, after.find? key =
        if key ∈ batch.map Entry.key then none else registry.find? key
  /-- Any other batch is answered with the name at which it fails. -/
  refused : ¬ Deletable registry batch → ∃ earlier entry later,
    FailsAt registry batch earlier entry later ∧
      response = .ofText 404 ("public IP address [" ++ entry.name ++ "] not found")
  /-- In any case all other entries stay. -/
  others : ∀ key, key ∉ batch.map Entry.key → after.find? key = registry.find? key

theorem deletesBatch (registry : Registry) (batch : List Entry) :
    DeletesBatch registry batch (replyTo (registry.delete batch).answer)
      (registry.delete batch).registry := by
  rcases deletable_or_failsAt registry batch with deletable | ⟨earlier, entry, later, fails⟩
  · rw [delete_of_deletable deletable]
    constructor
    case accepted => exact iff_of_true rfl deletable
    case carried => exact fun _ => ⟨rfl, registry.find?_eraseAll batch⟩
    case refused => exact fun not => absurd deletable not
    case others =>
      intro key away
      rw [find?_eraseAll, if_neg away]
  · rw [delete_of_failsAt fails]
    constructor
    case accepted => exact iff_of_false (by simp [replyTo, Http.Response.ofText]) fails.not_deletable
    case carried => exact fun deletable => absurd deletable fails.not_deletable
    case refused => exact fun _ => ⟨earlier, entry, later, fails, rfl⟩
    case others =>
      intro key away
      have kept : key ∉ earlier.map Entry.key := fun mem =>
        away (fails.split ▸ List.map_append ▸ List.mem_append_left _ mem)
      rw [find?_eraseAll, if_neg kept]

variable (service : Service) (supply : Nat → String) (requests : List Http.Request)

/-- After any run, a batch is deleted exactly if all its keys are there and differ from each other. It
is known by its keys alone, whatever else is in its entries, and it may be put in another order. -/
theorem batch_deleted (batch : List Entry) :
    let state := service.final supply requests {}
    let effect := state.invoke supply ⟨.delete, batch⟩
    DeletesBatch state.registry batch (replyTo effect.answer) effect.registry ∧
      (∀ other : List Entry, other.map Entry.key = batch.map Entry.key →
        state.invoke supply ⟨.delete, other⟩ = effect) ∧
      (∀ other : List Entry, other.Perm batch →
        ((replyTo (state.invoke supply ⟨.delete, other⟩).answer).status = 200 ↔
          (replyTo effect.answer).status = 200)) ∧
      ∀ request, service.task request = .invoke ⟨.delete, batch⟩ →
        service.serve supply request state = (replyTo effect.answer, state.apply effect) := by
  intro state effect
  have deletes (batch : List Entry) := deletesBatch state.registry batch
  refine ⟨deletes batch, fun other same => ?_, fun other same => ?_, fun request asked => ?_⟩
  · exact delete_congr same state.registry
  · exact (deletes other).accepted.trans ((Deletable.perm same).trans (deletes batch).accepted.symm)
  · exact serve_of_task asked supply state

/-- Of two addresses at a location and a namesake elsewhere, the two are deleted in either order. -/
theorem batch_deleted_namesake :
    let stored : PublicIp.Request := ⟨.post, [{ name := "web", location := "loc1" },
      { name := "db", location := "loc1" }, { name := "web", location := "loc2" }]⟩
    let deletion : PublicIp.Request := ⟨.delete, [{ name := "web", location := "loc1" },
      { name := "db", location := "loc1" }]⟩
    let reversed : List Entry := [{ name := "db", location := "loc1", id := "mine" },
      { name := "web", location := "loc1" }]
    let state := final {} Uuid.text [asking stored] {}
    (serve {} Uuid.text (asking deletion) state).1 = .ofText 200 (Answer.codec.encode {}) ∧
      (state.invoke Uuid.text (.ofRequest deletion)).registry.find? ⟨"loc2", "web"⟩ =
        state.registry.find? ⟨"loc2", "web"⟩ ∧
      (replyTo (state.invoke Uuid.text ⟨.delete, reversed⟩).answer).status = 200 := by
  intro stored deletion reversed state
  let batch : List Entry := [.ofMessage { name := "web", location := "loc1" },
    .ofMessage { name := "db", location := "loc1" }]
  have reached : state = State.apply {} (State.invoke {} Uuid.text (.ofRequest stored)) :=
    final_asking (by decide +kernel) Uuid.text [] {}
  have deletable : Deletable state.registry batch := by
    rw [reached]
    exact ⟨by decide +kernel, by decide +kernel⟩
  obtain ⟨deletes, -, -, served⟩ := batch_deleted {} Uuid.text [asking stored] batch
  obtain ⟨-, same, steady, -⟩ := batch_deleted {} Uuid.text [asking stored] batch.reverse
  have told := deletes.carried deletable
  have fits : (asking deletion).body.size ≤ maxBodySize := by
    rw [size_asking]
    decide +kernel
  have asked : task {} (asking deletion) = .invoke ⟨.delete, batch⟩ := task_asking fits
  rw [served _ asked]
  refine ⟨told.1, deletes.others _ (by decide), ?_⟩
  rw [same reversed (by decide), ← steady batch (List.reverse_perm batch).symm]
  exact deletes.accepted.2 deletable

theorem registry_post_of_refused {registry : Registry} {ids : Nat → String} {batch : List Entry}
    (refused : (replyTo (registry.post ids batch).answer).status ≠ 200) :
    (registry.post ids batch).registry = registry := by
  cases first : batch.find? (!isComplete ·) with
  | some entry => rw [registry.post_refused ids first]
  | none =>
    rw [registry.post_complete ids (by simpa using List.find?_eq_none.1 first)] at refused
    exact absurd rfl refused

/-- A batch to be stored that is refused changes nothing. A batch to be deleted that is refused loses
what comes before the entry at which it fails, and so changes nothing exactly if it fails at once. -/
theorem refused_batch_keeps (batch : List Entry) :
    let state := service.final supply requests {}
    let storing := state.invoke supply ⟨.post, batch⟩
    let deleting := state.invoke supply ⟨.delete, batch⟩
    ((replyTo storing.answer).status ≠ 200 → storing.registry = state.registry) ∧
      ((replyTo deleting.answer).status ≠ 200 → ∃ earlier entry later,
        FailsAt state.registry batch earlier entry later ∧
          (∀ key, deleting.registry.find? key =
            if key ∈ earlier.map Entry.key then none else state.registry.find? key) ∧
          (deleting.registry = state.registry ↔ earlier = [])) := by
  intro state storing deleting
  refine ⟨registry_post_of_refused, fun refused => ?_⟩
  rcases deletable_or_failsAt state.registry batch with deletable | ⟨earlier, entry, later, fails⟩
  · exact absurd ((deletesBatch state.registry batch).accepted.2 deletable) refused
  · have left : deleting.registry = state.registry.eraseAll earlier :=
      congrArg Effect.registry (delete_of_failsAt fails)
    rw [left]
    exact ⟨earlier, entry, later, fails, find?_eraseAll _ _, eraseAll_eq_self_iff fails.before⟩

/-- A batch whose first entry is not there leaves the one that comes after it. -/
theorem refused_batch_keeps_later :
    let stored : PublicIp.Request := ⟨.post, [{ name := "db", location := "loc1" }]⟩
    let batch : List Entry :=
      [{ name := "web", location := "loc1" }, { name := "db", location := "loc1" }]
    let state := final {} Uuid.text [asking stored] {}
    (replyTo (state.invoke Uuid.text ⟨.delete, batch⟩).answer).status ≠ 200 ∧
      (state.invoke Uuid.text ⟨.delete, batch⟩).registry = state.registry := by
  intro stored batch state
  have reached : state = State.apply {} (State.invoke {} Uuid.text (.ofRequest stored)) :=
    final_asking (by decide +kernel) Uuid.text [] {}
  have refused : (replyTo (state.invoke Uuid.text ⟨.delete, batch⟩).answer).status ≠ 200 := by
    rw [reached]
    decide +kernel
  obtain ⟨earlier, entry, later, fails, -, kept⟩ :=
    (refused_batch_keeps {} Uuid.text [asking stored] batch).2 refused
  refine ⟨refused, kept.2 ?_⟩
  cases earlier with
  | nil => rfl
  | cons first rest =>
    obtain ⟨rfl, -⟩ := List.cons.inj fails.split
    have held := fails.before.present _ List.mem_cons_self
    have absent : state.registry.find? ⟨"loc1", "web"⟩ = none := by
      rw [reached]
      decide +kernel
    exact absurd held (by simpa [Entry.key] using absent)

/-- A batch of an address that is there and one that is not is refused, and the first is lost. -/
theorem refused_batch_loses :
    let stored : PublicIp.Request := ⟨.post, [{ name := "db", location := "loc1" }]⟩
    let deletion : PublicIp.Request := ⟨.delete, [{ name := "db", location := "loc1" },
      { name := "web", location := "loc1" }]⟩
    let state := final {} Uuid.text [asking stored] {}
    (serve {} Uuid.text (asking deletion) state).1 =
        .ofText 404 "public IP address [web] not found" ∧
      (state.registry.find? ⟨"loc1", "db"⟩).isSome ∧
      (serve {} Uuid.text (asking deletion) state).2.registry.find? ⟨"loc1", "db"⟩ = none := by
  intro stored deletion state
  have reached : state = State.apply {} (State.invoke {} Uuid.text (.ofRequest stored)) :=
    final_asking (by decide +kernel) Uuid.text [] {}
  have refused : (state.invoke Uuid.text (.ofRequest deletion)).answer = .error (.missing "web") := by
    rw [reached]
    rfl
  rw [serve_asking (by decide +kernel), refused]
  refine ⟨rfl, ?_, ?_⟩
  · rw [reached]
    decide +kernel
  · rw [State.registry_apply, reached]
    decide +kernel

end Service

end PublicIp.Agent
