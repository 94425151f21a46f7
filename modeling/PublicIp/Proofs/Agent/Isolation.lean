import Mathlib.Data.List.Forall2
import PublicIp.Proofs.Agent.Asking
import PublicIp.Proofs.Agent.Precheck

/-!
# Locations apart

A request whose entries are all at one location does to the part of the registry at that location what
it would do to that part alone (`Visit.part_leave`), and leaves every other part as it is
(`Visit.part_leave_of_ne`). By induction on the run, requests for other locations can then be left out
of it (`course_alike`).
-/

namespace PublicIp.Agent

/-- The entries at a location. -/
def Registry.part (registry : Registry) (location : String) : Registry :=
  registry.restrict fun key => key.location = location

/-- An effect as it is seen from a location. -/
def Effect.within {α : Type} (effect : Effect α) (location : String) : Effect α :=
  { effect with registry := effect.registry.part location }

namespace Registry

variable {location : String} (registry : Registry)

theorem find?_part (location : String) (key : Key) :
    (registry.part location).find? key =
      if key.location = location then registry.find? key else none := by
  unfold part
  rw [OrderedMap.find?_restrict]
  simp only [decide_eq_true_eq]

theorem find?_part_of_eq {key : Key} (here : key.location = location) :
    (registry.part location).find? key = registry.find? key := by
  rw [find?_part, if_pos here]

theorem ext_part {a b : Registry} (same : ∀ location, a.part location = b.part location) : a = b := by
  refine OrderedMap.ext_find? fun key => ?_
  rw [← a.find?_part_of_eq rfl, same, b.find?_part_of_eq rfl]

theorem values_part (keyed : registry.Keyed) (location : String) :
    (registry.part location).values =
      registry.values.filter fun entry => entry.location = location := by
  unfold part OrderedMap.restrict OrderedMap.values
  rw [List.filter_map]
  refine congrArg _ (List.filter_congr fun entry mem => ?_)
  have own := keyed.key_of_mem mem
  rw [← own]
  rfl

section Store

variable {entry : Entry} (here : entry.location = location)

include here

theorem provision_part : (registry.part location).provision entry = registry.provision entry := by
  unfold provision
  rw [registry.find?_part_of_eq here]

theorem drawnAfter_part (drawn : Nat) :
    (registry.part location).drawnAfter drawn entry = registry.drawnAfter drawn entry := by
  unfold drawnAfter
  rw [registry.provision_part here]

theorem admitted_part (fresh : String) :
    (registry.part location).admitted fresh entry = registry.admitted fresh entry := by
  unfold admitted
  rw [registry.provision_part here, registry.find?_part_of_eq here]

theorem part_store (fresh : String) :
    (registry.store fresh entry).part location = (registry.part location).store fresh entry := by
  unfold store
  rw [registry.admitted_part here]
  refine OrderedMap.restrict_insert_of_pos _ _ ?_ _
  exact decide_eq_true here

end Store

theorem part_store_of_ne (fresh : String) {entry : Entry} (away : entry.location ≠ location) :
    (registry.store fresh entry).part location = registry.part location := by
  refine OrderedMap.restrict_insert_of_neg _ _ ?_ _
  exact decide_eq_false away

theorem part_erase (location : String) (key : Key) :
    Registry.part (registry.erase key) location = (registry.part location).erase key :=
  OrderedMap.restrict_erase _ _ _

theorem part_erase_of_ne {key : Key} (away : key.location ≠ location) :
    Registry.part (registry.erase key) location = registry.part location := by
  refine OrderedMap.restrict_erase_of_neg _ _ ?_
  exact decide_eq_false away

section Here

variable {entries : List Entry} (here : ∀ entry ∈ entries, entry.location = location)

include here

theorem get_part (keyed : registry.Keyed) :
    (registry.get entries).within location = (registry.part location).get entries := by
  have found (wanted : Entry) (mem : wanted ∈ entries) :
      registry.wantedBy wanted = (registry.part location).wantedBy wanted := by
    unfold wantedBy
    rw [values_part registry keyed, List.filter_filter]
    refine List.filter_congr fun entry _ => ?_
    simp only [isWanted, here wanted mem]
    grind
  unfold get Effect.within
  simp only [List.flatMap, List.map_congr_left found]

theorem storeAll_part (ids : Nat → String) (drawn : Nat) :
    (registry.storeAll ids drawn entries).within location =
      (registry.part location).storeAll ids drawn entries := by
  induction entries generalizing registry drawn with
  | nil => rfl
  | cons entry rest ih =>
    obtain ⟨own, others⟩ := List.forall_mem_cons.1 here
    have later := ih (registry.store (ids drawn) entry) others (registry.drawnAfter drawn entry)
    rw [part_store registry own] at later
    rw [storeAll_cons, storeAll_cons, registry.provision_part own, registry.drawnAfter_part own,
      registry.admitted_part own, ← later]
    rfl

theorem post_part (ids : Nat → String) :
    (registry.post ids entries).within location = (registry.part location).post ids entries := by
  unfold post
  cases entries.find? (!isComplete ·) with
  | some entry => rfl
  | none =>
    have stored := registry.storeAll_part here ids 0
    simp only [← stored]
    rfl

theorem delete_part :
    (registry.delete entries).within location = (registry.part location).delete entries := by
  induction entries generalizing registry with
  | nil => rfl
  | cons entry rest ih =>
    obtain ⟨own, others⟩ := List.forall_mem_cons.1 here
    have found : (registry.part location).find? entry.key = registry.find? entry.key :=
      registry.find?_part_of_eq own
    unfold delete
    rw [found]
    cases registry.find? entry.key with
    | none => rfl
    | some held =>
      have later := ih (registry.erase entry.key) others
      rw [part_erase] at later
      simp only [← later]
      rfl

end Here

theorem invoke_part (ids : Nat → String) {invocation : Invocation}
    (here : ∀ entry ∈ invocation.entries, entry.location = location) (keyed : registry.Keyed) :
    (registry.invoke ids invocation).within location =
      (registry.part location).invoke ids invocation := by
  obtain ⟨operation, entries⟩ := invocation
  cases operation with
  | get => exact registry.get_part here keyed
  | post => exact registry.post_part here ids
  | delete => exact registry.delete_part here

section Away

variable {entries : List Entry} (away : ∀ entry ∈ entries, entry.location ≠ location)

include away

theorem part_storeAll_of_ne (ids : Nat → String) (drawn : Nat) :
    (registry.storeAll ids drawn entries).registry.part location = registry.part location := by
  induction entries generalizing registry drawn with
  | nil => rfl
  | cons entry rest ih =>
    obtain ⟨own, others⟩ := List.forall_mem_cons.1 away
    rw [storeAll_cons]
    exact (ih _ others _).trans (registry.part_store_of_ne _ own)

theorem part_delete_of_ne :
    (registry.delete entries).registry.part location = registry.part location := by
  induction entries generalizing registry with
  | nil => rfl
  | cons entry rest ih =>
    obtain ⟨own, others⟩ := List.forall_mem_cons.1 away
    unfold delete
    cases registry.find? entry.key with
    | none => rfl
    | some held => exact (ih _ others).trans (registry.part_erase_of_ne own)

end Away

theorem part_invoke_of_ne (ids : Nat → String) {invocation : Invocation}
    (away : ∀ entry ∈ invocation.entries, entry.location ≠ location) :
    (registry.invoke ids invocation).registry.part location = registry.part location := by
  obtain ⟨operation, entries⟩ := invocation
  cases operation with
  | get => rfl
  | post =>
    simp only [invoke, post]
    cases entries.find? (!isComplete ·) with
    | some entry => rfl
    | none => exact registry.part_storeAll_of_ne away ids 0
  | delete => exact registry.part_delete_of_ne away

end Registry

/-- A precheck goes by the entries at the location that it is about. -/
theorem objectionTo_filter {location : String} {batch : List Entry}
    (here : ∀ entry ∈ batch, entry.location = location) (order : List Entry) :
    objectionTo (order.filter fun entry => entry.location = location) batch =
      objectionTo order batch := by
  have single (wanted : Entry) (own : wanted.location = location) :
      objectionIn? (order.filter fun entry => entry.location = location) wanted =
        objectionIn? order wanted := by
    unfold objectionIn?
    rw [List.find?_filter]
    -- Whatever blocks an entry here is here itself, so the filter hides no holder.
    have blocked : (fun entry : Entry => decide (decide (entry.location = location) = true ∧
        decide (Blocks wanted entry) = true)) = fun entry => decide (Blocks wanted entry) := by
      funext entry
      by_cases blocks : Blocks wanted entry
      · simp [blocks, blocks.1.trans own]
      · simp [blocks]
    rw [blocked]
  induction batch with
  | nil => rfl
  | cons wanted rest ih =>
    obtain ⟨own, others⟩ := List.forall_mem_cons.1 here
    have later := ih others
    unfold objectionTo at later ⊢
    rw [List.findSome?_cons, List.findSome?_cons, single wanted own, later]

theorem Registry.precheck_part {location : String} (registry : Registry) {batch : List Entry}
    (here : ∀ entry ∈ batch, entry.location = location) (order : List Entry) :
    (registry.precheck order batch).within location =
      (registry.part location).precheck (order.filter fun entry => entry.location = location)
        batch := by
  unfold precheck
  rw [objectionTo_filter here]
  rfl

namespace Service

variable {location : String} {registry : Registry}

theorem Task.effect_part (keyed : registry.Keyed) (ids : Nat → String) (order : List Entry)
    {task : Task} (here : ∀ entry ∈ task.entries, entry.location = location) :
    (task.effect ids order registry).within location =
      task.effect ids (order.filter fun entry => entry.location = location)
        (registry.part location) := by
  cases task with
  | invoke invocation =>
    have same := registry.invoke_part ids here keyed
    simp only [Task.effect]
    rw [← same]
    rfl
  | precheck wanted =>
    have here : ∀ entry ∈ wanted, entry.location = location := here
    have same := registry.precheck_part here order
    simp only [Task.effect]
    rw [← same]
    rfl
  | refuse response => rfl

theorem Task.part_effect_of_ne (ids : Nat → String) (order : List Entry) {task : Task}
    (away : ∀ entry ∈ task.entries, entry.location ≠ location) :
    (task.effect ids order registry).registry.part location = registry.part location := by
  cases task with
  | invoke invocation => exact registry.part_invoke_of_ne ids away
  | precheck _ => rfl
  | refuse _ => rfl

/-- What a task leaves behind does not depend on the order in which entries are met. -/
theorem Task.registry_effect (ids : Nat → String) (order other : List Entry) (task : Task) :
    (task.effect ids order registry).registry = (task.effect ids other registry).registry := by
  cases task <;> rfl

/-- The reply to a precheck, for an objection or none. -/
def verdictReply (objection : Option String) : Http.Response :=
  .ofText 200 (Verdict.codec.encode (.ofObjection objection))

/-- Whether two replies to a task are the same, up to which of several holders of an address the reply
to a precheck names. -/
inductive Task.Alike (entries : List Entry) : Task → Http.Response → Http.Response → Prop
  | same (task : Task) (response : Http.Response) : Alike entries task response response
  | prechecked {wanted : List Entry} {objection other : Option String}
      (same : SameButHolder entries objection other) :
      Alike entries (.precheck wanted) (verdictReply objection) (verdictReply other)

/-- What a task at a location is answered depends on the entries there alone, up to the order in which
they are met. -/
theorem Task.alike_answer {a b : Registry} (keyed : a.Keyed) (keyed' : b.Keyed)
    (same : a.part location = b.part location) (ids : Nat → String) {task : Task}
    (here : ∀ entry ∈ task.entries, entry.location = location) {order other : List Entry}
    (perm : order.Perm a.values) (perm' : other.Perm b.values) :
    task.Alike (a.part location).values (task.effect ids order a).answer
      (task.effect ids other b).answer := by
  cases task with
  | invoke invocation =>
    have effects := (a.invoke_part ids here keyed).trans
      (same ▸ (b.invoke_part ids here keyed').symm)
    have answers : replyTo (a.invoke ids invocation).answer =
      replyTo (b.invoke ids invocation).answer := congrArg (replyTo ·.answer) effects
    simp only [Task.effect, answers]
    exact .same _ _
  | precheck wanted =>
    have here : ∀ entry ∈ wanted, entry.location = location := here
    have first : (order.filter fun entry => entry.location = location).Perm
        (a.part location).values := by
      rw [a.values_part keyed]
      exact perm.filter _
    have second : (other.filter fun entry => entry.location = location).Perm
        (a.part location).values := by
      rw [same, b.values_part keyed']
      exact perm'.filter _
    show (Task.precheck wanted).Alike _ (verdictReply (objectionTo order wanted))
      (verdictReply (objectionTo other wanted))
    rw [← objectionTo_filter here order, ← objectionTo_filter here other]
    refine .prechecked ((objectionTo_of_mem_iff wanted fun _ _ entry _ => ?_).mono first.subset)
    rw [first.mem_iff, second.mem_iff]
  | refuse response => exact .same _ _

/-- A request whose entries are all at one location, with the ids that it draws from. -/
structure Visit (service : Service) where
  request : Http.Request
  location : String
  ids : Nat → String
  placed : ∀ entry ∈ (service.task request).entries, entry.location = location

/-- A visit, and the registry that it meets. -/
structure Meeting (service : Service) where
  visit : Visit service
  registry : Registry

variable {service : Service}

/-- Whether a visit may get a reply, where the entries are met in any order. -/
def Meeting.MayGet (meeting : Meeting service) (response : Http.Response) : Prop :=
  ∃ order : List Entry, order.Perm meeting.registry.values ∧
    response = (service.handle meeting.visit.ids order meeting.visit.request meeting.registry).answer

/-- Whether a visit gets the same replies in two meetings, up to which holders of addresses they
name. -/
structure Meeting.Alike (meeting other : Meeting service) : Prop where
  visit : meeting.visit = other.visit
  replies : ∀ first second, meeting.MayGet first → other.MayGet second →
    (service.task meeting.visit.request).Alike
      (meeting.registry.part meeting.visit.location).values first second

/-- The registry after a visit, in whatever order the entries were met. -/
def Visit.leave (visit : Visit service) (registry : Registry) : Registry :=
  (service.handle visit.ids registry.values visit.request registry).registry

/-- The meetings of visits in turn. -/
def course : List (Visit service) → Registry → List (Meeting service)
  | [], _ => []
  | visit :: rest, registry => ⟨visit, registry⟩ :: course rest (visit.leave registry)

def leaveAll : List (Visit service) → Registry → Registry
  | [], registry => registry
  | visit :: rest, registry => leaveAll rest (visit.leave registry)

namespace Visit

variable (visit : Visit service)

theorem leave_eq (registry : Registry) (order : List Entry) :
    (service.handle visit.ids order visit.request registry).registry = visit.leave registry := by
  unfold leave
  rw [handle_eq, handle_eq]
  exact Task.registry_effect _ _ _ _

theorem keyed_leave (keyed : registry.Keyed) : (visit.leave registry).Keyed := by
  unfold leave
  rw [handle_eq]
  exact keyed_effect _ _ _ keyed

theorem part_leave_of_ne (away : visit.location ≠ location) :
    (visit.leave registry).part location = registry.part location := by
  unfold leave
  rw [handle_eq]
  exact Task.part_effect_of_ne _ _ fun entry mem => (visit.placed entry mem).symm ▸ away

theorem part_leave (keyed : registry.Keyed) :
    (visit.leave registry).part visit.location = visit.leave (registry.part visit.location) := by
  have within := Task.effect_part keyed visit.ids registry.values visit.placed
  rw [← handle_eq, ← handle_eq] at within
  rw [← visit.leave_eq registry registry.values, ← visit.leave_eq, ← within]
  rfl

theorem part_leave_congr {a b : Registry} (keyed : a.Keyed) (keyed' : b.Keyed)
    (same : a.part visit.location = b.part visit.location) :
    (visit.leave a).part visit.location = (visit.leave b).part visit.location := by
  rw [visit.part_leave keyed, visit.part_leave keyed', same]

theorem alike {a b : Registry} (keyed : a.Keyed) (keyed' : b.Keyed)
    (same : a.part visit.location = b.part visit.location) :
    Meeting.Alike ⟨visit, a⟩ ⟨visit, b⟩ where
  visit := rfl
  replies := by
    rintro _ _ ⟨order, perm, rfl⟩ ⟨other, perm', rfl⟩
    rw [handle_eq, handle_eq]
    exact Task.alike_answer keyed keyed' same visit.ids visit.placed perm perm'

end Visit

/-- Visits to other locations make no difference to the visits to a location. -/
theorem course_alike (location : String) (visits : List (Visit service)) {a b : Registry}
    (keyed : a.Keyed) (keyed' : b.Keyed) (same : a.part location = b.part location) :
    List.Forall₂ Meeting.Alike
        ((course visits a).filter fun meeting => meeting.visit.location = location)
        (course (visits.filter fun visit => visit.location = location) b) ∧
      (leaveAll visits a).part location =
        (leaveAll (visits.filter fun visit => visit.location = location) b).part location := by
  induction visits generalizing a b with
  | nil => exact ⟨.nil, same⟩
  | cons visit rest ih =>
    have next := visit.keyed_leave keyed
    by_cases here : visit.location = location
    · subst here
      have left := visit.part_leave_congr keyed keyed' same
      obtain ⟨meetings, after⟩ := ih next (visit.keyed_leave keyed') left
      rw [course, List.filter_cons_of_pos (by simp), List.filter_cons_of_pos (by simp)]
      exact ⟨.cons (visit.alike keyed keyed' same) meetings, after⟩
    · -- Only the registry that sees all visits moves on.
      have kept : (visit.leave a).part location = a.part location := visit.part_leave_of_ne here
      obtain ⟨meetings, after⟩ := ih next keyed' (kept.trans same)
      rw [course, List.filter_cons_of_neg (by simpa using here),
        List.filter_cons_of_neg (by simpa using here)]
      exact ⟨meetings, after⟩

theorem Visit.commute {first second : Visit service} (apart : first.location ≠ second.location)
    (keyed : registry.Keyed) :
    List.Forall₂ Meeting.Alike (course [first, second] registry)
        (course [second, first] registry).reverse ∧
      leaveAll [first, second] registry = leaveAll [second, first] registry := by
  have keyed₁ := first.keyed_leave keyed
  have keyed₂ := second.keyed_leave keyed
  refine ⟨.cons ?_ (.cons ?_ .nil), Registry.ext_part fun location => ?_⟩
  · exact first.alike keyed keyed₂ (second.part_leave_of_ne apart.symm).symm
  · exact second.alike keyed₁ keyed (first.part_leave_of_ne apart)
  · show (second.leave (first.leave registry)).part location =
      (first.leave (second.leave registry)).part location
    -- At a location at most one of the two does something, on the same part in both orders.
    by_cases here : first.location = location
    · subst here
      rw [second.part_leave_of_ne apart.symm]
      exact (first.part_leave_congr keyed₂ keyed (second.part_leave_of_ne apart.symm)).symm
    · rw [first.part_leave_of_ne here]
      by_cases there : second.location = location
      · subst there
        exact second.part_leave_congr keyed₁ keyed (first.part_leave_of_ne apart)
      · rw [second.part_leave_of_ne there, first.part_leave_of_ne here,
          second.part_leave_of_ne there]

/-- What a visit and an exchange have in common that are the same step of a run. -/
structure Meeting.Becomes (meeting : Meeting service) (exchange : Exchange) : Prop where
  request : meeting.visit.request = exchange.request
  registry : meeting.registry = exchange.before.registry
  response : meeting.MayGet exchange.response
  after : meeting.visit.leave meeting.registry = exchange.after.registry

theorem exists_visits (supply : Nat → String) (requests : List Http.Request) (state : State)
    (placed : ∀ request ∈ requests, ∃ location, ∀ entry ∈ (service.task request).entries,
      entry.location = location) :
    ∃ visits : List (Visit service),
      leaveAll visits state.registry = (service.final supply requests state).registry ∧
      List.Forall₂ Meeting.Becomes (course visits state.registry)
        (service.history supply requests state) := by
  induction requests generalizing state with
  | nil => exact ⟨[], rfl, .nil⟩
  | cons request rest ih =>
    obtain ⟨⟨location, here⟩, others⟩ := List.forall_mem_cons.1 placed
    let visit : Visit service := ⟨request, location, state.ids supply, here⟩
    have after : visit.leave state.registry =
        (service.exchange supply request state).after.registry :=
      (visit.leave_eq state.registry (service.scan.order state)).symm
    obtain ⟨visits, left, met⟩ := ih (service.exchange supply request state).after others
    rw [← after] at left met
    refine ⟨visit :: visits, left, .cons ⟨rfl, rfl, ?_, after⟩ met⟩
    exact ⟨service.scan.order state, service.scan.perm state, rfl⟩

/-- A run whose requests are about one location each is made of visits, of which those to a location
are alike, and leave the same there, if there are no others. -/
theorem history_isolated (supply : Nat → String) (requests : List Http.Request)
    (placed : ∀ request ∈ requests, ∃ location, ∀ entry ∈ (service.task request).entries,
      entry.location = location) (location : String) :
    ∃ visits : List (Visit service),
      let here := visits.filter fun visit => visit.location = location
      List.Forall₂ Meeting.Becomes (course visits ∅) (service.history supply requests {}) ∧
        List.Forall₂ Meeting.Alike
          ((course visits ∅).filter fun meeting => meeting.visit.location = location)
          (course here ∅) ∧
        (service.final supply requests {}).registry.part location =
          (leaveAll here ∅).part location := by
  obtain ⟨visits, left, met⟩ := exists_visits supply requests {} placed
  obtain ⟨alike, same⟩ := course_alike location visits Registry.keyed_empty Registry.keyed_empty rfl
  rw [← left]
  exact ⟨visits, met, alike, same⟩

def creating (name location : String)
    (fits : (asking ⟨.post, [{ name, location }]⟩).body.size ≤ maxBodySize) :
    Visit {} where
  request := asking ⟨.post, [{ name, location }]⟩
  location := location
  ids := Uuid.text
  placed := by
    rw [task_asking fits]
    simp [Task.entries, Invocation.ofRequest, Entry.ofMessage]

/-- After any run, requests about one location are answered, and leave the registry there, as if
requests about other locations were not made, and two requests about different locations may change
places. -/
theorem locations_isolated (service : Service) (supply : Nat → String)
    (earlier : List Http.Request) (location : String) (visits : List (Visit service)) :
    let start := (service.final supply earlier {}).registry
    let here := visits.filter fun visit => visit.location = location
    List.Forall₂ Meeting.Alike
        ((course visits start).filter fun meeting => meeting.visit.location = location)
        (course here start) ∧
      (leaveAll visits start).part location = (leaveAll here start).part location ∧
      (∀ (meeting : Meeting service) (order : List Entry), order.Perm meeting.registry.values →
        let effect :=
          service.handle meeting.visit.ids order meeting.visit.request meeting.registry
        meeting.MayGet effect.answer ∧ effect.registry = meeting.visit.leave meeting.registry) ∧
      ∀ first second : Visit service, first.location ≠ second.location →
        List.Forall₂ Meeting.Alike (course [first, second] start)
            (course [second, first] start).reverse ∧
          leaveAll [first, second] start = leaveAll [second, first] start := by
  intro start here
  have keyed : start.Keyed := service.keyed_final supply earlier Registry.keyed_empty
  obtain ⟨alike, left⟩ := course_alike location visits keyed keyed rfl
  exact ⟨alike, left,
    fun meeting order met => ⟨⟨order, met, rfl⟩, meeting.visit.leave_eq meeting.registry order⟩,
    fun first second apart => Visit.commute apart keyed⟩

/-- Addresses of one name are created at two locations. -/
theorem locations_isolated_namesakes :
    let first := creating "web" "loc1" (by decide +kernel)
    let second := creating "web" "loc2" (by decide +kernel)
    first.location ≠ second.location ∧
      leaveAll [first, second] ∅ = leaveAll [second, first] ∅ := by
  intro first second
  have apart : first.location ≠ second.location := by decide
  obtain ⟨-, -, -, commute⟩ := locations_isolated {} Uuid.text [] "loc1" [first, second]
  exact ⟨apart, (commute first second apart).2⟩

end Service

end PublicIp.Agent
