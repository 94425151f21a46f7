import PublicIp.Agent.Uuid
import PublicIp.Proofs.Agent.Asking
import PublicIp.Proofs.Agent.Keeping
import PublicIp.Proofs.Text.ByteOrder

/-!
# Finding addresses

A search goes through all entries in whatever order they are met, and sorts what it finds by name
(`matchesIn`). The order it meets them in leaves no trace: at one location a name stands for one entry,
so sorting by name puts the entries in one order only (`matchesIn_eq`).
-/

namespace PublicIp.Agent

open Text

/-- Whether the name of an entry comes first by its bytes, or is the same. -/
def Entry.precedes (first second : Entry) : Bool := decide (utf8 first.name ≤ utf8 second.name)

/-- The entries that are wanted among those that are met in some order, by name. -/
def matchesIn (order : List Entry) (wanted : Entry) : List Entry :=
  (order.filter (Registry.isWanted wanted)).mergeSort Entry.precedes

/-- What is found for one wanted entry. -/
structure Matches (registry : Registry) (wanted : Entry) (found : List Entry) : Prop where
  /-- A name is looked up. -/
  named : wanted.name ≠ "" → found = (registry.find? ⟨wanted.location, wanted.name⟩).toList
  /-- Without a name all entries at the location are found. -/
  listed : wanted.name = "" → ∀ entry,
    entry ∈ found ↔ ∃ key, registry.find? key = some entry ∧ key.location = wanted.location
  ascending : found.Pairwise fun first second => utf8 first.name < utf8 second.name

theorem Entry.precedes_trans (a b c : Entry) (ab : a.precedes b = true)
    (bc : b.precedes c = true) : a.precedes c = true :=
  decide_eq_true (List.le_trans (of_decide_eq_true ab) (of_decide_eq_true bc))

theorem Entry.precedes_total (a b : Entry) : (a.precedes b || b.precedes a) = true := by
  rw [precedes, precedes, Bool.or_eq_true, decide_eq_true_iff, decide_eq_true_iff]
  exact List.le_total _ _

theorem Entry.precedes_antisymm {a b : Entry} (ab : a.precedes b = true)
    (ba : b.precedes a = true) : a.name = b.name := by
  have le {s t : String} (below : utf8 s ≤ utf8 t) : s ≤ t :=
    String.not_lt.1 fun less => below ((utf8_lt_iff _ _).2 less)
  exact String.le_antisymm (le (of_decide_eq_true ab)) (le (of_decide_eq_true ba))

theorem isWanted_iff (wanted entry : Entry) :
    Registry.isWanted wanted entry = true ↔
      entry.location = wanted.location ∧ (wanted.name = "" ∨ entry.name = wanted.name) := by
  simp [Registry.isWanted]

namespace Registry

variable {registry : Registry} (keyed : registry.Keyed)

include keyed

theorem mem_wantedBy_iff (wanted entry : Entry) :
    entry ∈ registry.wantedBy wanted ↔ registry.find? entry.key = some entry ∧
      entry.location = wanted.location ∧ (wanted.name = "" ∨ entry.name = wanted.name) := by
  rw [wantedBy, List.mem_filter, keyed.mem_values_iff, isWanted_iff]

theorem values_ascending :
    registry.values.Pairwise fun first second => compare first.key second.key = .lt := by
  refine List.pairwise_map.2 (registry.ascending.imp_of_mem fun {a b} mem mem' below => ?_)
  rw [keyed.key_of_mem mem, keyed.key_of_mem mem']
  exact below

theorem wantedBy_ascending (wanted : Entry) :
    (registry.wantedBy wanted).Pairwise fun first second =>
      utf8 first.name < utf8 second.name := by
  refine ((values_ascending keyed).filter _).imp_of_mem fun {a b} mem mem' below => ?_
  have here := ((mem_wantedBy_iff keyed wanted a).1 mem).2.1
  have here' := ((mem_wantedBy_iff keyed wanted b).1 mem').2.1
  have names : (compare a.location b.location).then (compare a.name b.name) = .lt := below
  have one : compare wanted.location wanted.location = .eq := Std.ReflCmp.compare_self
  rw [here, here', one, Ordering.eq_then] at names
  exact (utf8_lt_iff _ _).2 (compareOfLessAndEq_eq_lt.1 names)

theorem wantedBy_named {wanted : Entry} (named : wanted.name ≠ "") :
    registry.wantedBy wanted = (registry.find? ⟨wanted.location, wanted.name⟩).toList := by
  have same : ∀ entry ∈ registry.entries,
      (isWanted wanted ∘ Prod.snd) entry = decide (entry.1 = ⟨wanted.location, wanted.name⟩) := by
    intro entry mem
    rw [Bool.eq_iff_iff, decide_eq_true_iff, ← keyed.key_of_mem mem, Function.comp_apply,
      isWanted_iff, Entry.key, Key.mk.injEq, or_iff_right named]
  rw [wantedBy, OrderedMap.values, List.filter_map, List.filter_congr same, registry.filter_key,
    List.map_map]
  exact List.map_id _

/-- The order in which entries are met leaves no trace. -/
theorem matchesIn_eq {order : List Entry} (met : order.Perm registry.values) (wanted : Entry) :
    matchesIn order wanted = registry.wantedBy wanted := by
  have same : (matchesIn order wanted).Perm (registry.wantedBy wanted) :=
    (List.mergeSort_perm _ _).trans (met.filter _)
  have sorted : (matchesIn order wanted).Pairwise fun first second => first.precedes second :=
    List.pairwise_mergeSort Entry.precedes_trans Entry.precedes_total _
  have ascending := (wantedBy_ascending keyed wanted).imp fun below =>
    decide_eq_true (List.le_of_lt below)
  refine same.eq_of_pairwise (fun a b mem mem' ab ba => ?_) sorted ascending
  -- At one location entries of the same name stand under the same key.
  obtain ⟨held, here, -⟩ := (mem_wantedBy_iff keyed wanted a).1 (same.mem_iff.1 mem)
  obtain ⟨held', here', -⟩ := (mem_wantedBy_iff keyed wanted b).1 mem'
  have key : a.key = b.key := by
    rw [Entry.key, Entry.key, here, here', Entry.precedes_antisymm ab ba]
  rw [key, held'] at held
  exact (Option.some.inj held).symm

theorem matches_wantedBy (wanted : Entry) :
    Matches registry wanted (registry.wantedBy wanted) := by
  constructor
  case named => exact wantedBy_named keyed
  case listed =>
    intro any entry
    rw [mem_wantedBy_iff keyed]
    constructor
    · rintro ⟨held, here, -⟩
      exact ⟨entry.key, held, here⟩
    · rintro ⟨key, held, here⟩
      obtain rfl := keyed key entry held
      exact ⟨held, here, .inl any⟩
  case ascending => exact wantedBy_ascending keyed wanted

end Registry

namespace Service

variable (service : Service) (supply : Nat → String) (requests : List Http.Request)

/-- After any run a search finds the same in whatever order it meets the entries: for a name what
stands under it, and without one everything at the location. The empty location has no entries. -/
theorem addresses_found (batch : List Entry) :
    let state := service.final supply requests {}
    let effect := state.invoke supply ⟨.get, batch⟩
    (∀ order : List Entry, order.Perm state.registry.values →
        effect.answer = .ok { entries := batch.flatMap (matchesIn order) } ∧
          (∀ wanted, Matches state.registry wanted (matchesIn order wanted)) ∧
          (∀ wanted, wanted.location = "" → matchesIn order wanted = []) ∧
          ∀ other : List Entry, other.Perm state.registry.values →
            batch.flatMap (matchesIn other) = batch.flatMap (matchesIn order)) ∧
      ∀ request, service.task request = .invoke ⟨.get, batch⟩ →
        service.serve supply request state = (replyTo effect.answer, state.apply effect) := by
  intro state effect
  have keyed : state.registry.Keyed := service.keyed_final supply requests Registry.keyed_empty
  refine ⟨fun order met => ?_, fun request asked => serve_of_task asked supply state⟩
  have all (order : List Entry) (met : order.Perm state.registry.values) :
      matchesIn order = state.registry.wantedBy := funext (Registry.matchesIn_eq keyed met)
  rw [all order met]
  refine ⟨rfl, Registry.matches_wantedBy keyed, fun wanted nowhere => ?_, fun other met' => ?_⟩
  · refine List.eq_nil_iff_forall_not_mem.2 fun entry mem => ?_
    obtain ⟨held, here, -⟩ := (Registry.mem_wantedBy_iff keyed wanted entry).1 mem
    have keeps : Keeps entry.key _ (state.registry.find? entry.key) :=
      keeps_run service supply requests {} [] rfl
    rw [held] at keeps
    exact keeps.2.located (here.trans nowhere)
  · rw [all other met']

/-- Met in reverse, the addresses at a location are still found by name. -/
theorem addresses_found_reversed :
    let stored : PublicIp.Request := ⟨.post, [{ name := "web", location := "loc1" },
      { name := "db", location := "loc1" }, { name := "web", location := "loc2" }]⟩
    let search : PublicIp.Request := ⟨.get, [{ name := "web", location := "loc2" },
      { location := "loc1" }, { name := "db", location := "loc2" }, {}]⟩
    let state := final {} Uuid.text [asking stored] {}
    let found := (search.addresses.map .ofMessage).flatMap (matchesIn state.registry.values.reverse)
    (serve {} Uuid.text (asking search) state).1 =
        .ofText 200 (Answer.codec.encode { entries := found }) ∧
      found.map Entry.key = [⟨"loc2", "web"⟩, ⟨"loc1", "db"⟩, ⟨"loc1", "web"⟩] := by
  intro stored search state found
  have reached : state = State.apply {} (State.invoke {} Uuid.text (.ofRequest stored)) :=
    final_asking (by decide +kernel) Uuid.text [] {}
  obtain ⟨finds, served⟩ :=
    addresses_found {} Uuid.text [asking stored] (search.addresses.map .ofMessage)
  have answered := (finds state.registry.values.reverse (List.reverse_perm _)).1
  have fits : (asking search).body.size ≤ maxBodySize := by
    rw [size_asking]
    decide +kernel
  have asked : task {} (asking search) = .invoke ⟨.get, search.addresses.map .ofMessage⟩ :=
    task_asking fits
  constructor
  · rw [served _ asked, answered]
    rfl
  · have scanned : (search.addresses.map Entry.ofMessage).flatMap state.registry.wantedBy = found :=
      congrArg Answer.entries (Except.ok.inj answered)
    rw [← scanned, reached]
    decide +kernel

end Service

end PublicIp.Agent
