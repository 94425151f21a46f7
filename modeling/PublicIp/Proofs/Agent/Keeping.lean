import PublicIp.Proofs.Agent.Operations
import PublicIp.Proofs.Agent.Run

/-!
# What the agent keeps

What stands under a key is accounted for by the messages that were stored there since the key was
last absent: `Keeps` says how. One stored message preserves that (`keeps_insert`), so a batch does, so
a request of any kind does, and so a run does.
-/

namespace PublicIp.Agent

/-- What an entry under a key has to be after some messages for that key. -/
structure KeptEntry (key : Key) (messages : List Entry) (entry : Entry) : Prop where
  location : entry.location = key.location
  located : entry.location ≠ ""
  name : entry.name = key.name
  named : entry.name ≠ ""
  status : entry.status =
    some (if messages.length = 1 then Provision.created else Provision.updated).status
  /-- But for id and status the entry is the last message. -/
  last : ∃ message, messages.getLast? = some message ∧
    entry = { message with id := entry.id, status := entry.status }

/-- Whether some messages account for what stands under their key: there are none exactly if nothing
stands there. -/
def Keeps (key : Key) (messages : List Entry) : Option Entry → Prop
  | none => messages = []
  | some entry => messages ≠ [] ∧ KeptEntry key messages entry

/-- The messages of a batch that are for a key. -/
def messagesFor (key : Key) (entries : List Entry) : List Entry :=
  entries.filter (·.key = key)

namespace Registry

theorem keeps_insert {registry : Registry} {messages : List Entry} (fresh : String) {entry : Entry}
    (complete : isComplete entry = true)
    (keeps : Keeps entry.key messages (registry.find? entry.key)) :
    Keeps entry.key (messages ++ [entry]) (some (registry.admitted fresh entry)) := by
  obtain ⟨named, located⟩ := (isComplete_iff entry).1 complete
  have counted : registry.provision entry =
      if (messages ++ [entry]).length = 1 then Provision.created else Provision.updated := by
    unfold provision
    cases held : registry.find? entry.key with
    | none =>
      rw [held] at keeps
      obtain rfl : messages = [] := keeps
      rfl
    | some old =>
      rw [held] at keeps
      have some_before : 0 < messages.length := List.length_pos_iff.2 keeps.1
      have not_first : (messages ++ [entry]).length ≠ 1 := by
        rw [List.length_append, List.length_singleton]
        omega
      rw [if_neg not_first]
      rfl
  refine ⟨by simp, ?_⟩
  exact {
    location := rfl
    located := located
    name := rfl
    named := named
    status := by rw [← counted]; rfl
    last := ⟨entry, by simp, rfl⟩ }

theorem keeps_storeAll {key : Key} {ids : Nat → String} (entries : List Entry)
    (complete : ∀ entry ∈ entries, isComplete entry = true) (registry : Registry) (drawn : Nat)
    (messages : List Entry) (keeps : Keeps key messages (registry.find? key)) :
    Keeps key (messages ++ messagesFor key entries)
      ((registry.storeAll ids drawn entries).registry.find? key) := by
  induction entries generalizing registry drawn messages with
  | nil => simpa [storeAll, messagesFor] using keeps
  | cons entry rest ih =>
    have others : ∀ entry ∈ rest, isComplete entry = true :=
      fun other mem => complete other (List.mem_cons_of_mem _ mem)
    have placed := registry.find?_store (ids drawn) entry key
    rw [storeAll_cons]
    by_cases same : key = entry.key
    · subst same
      have first := keeps_insert (ids drawn) (complete entry List.mem_cons_self) keeps
      have later := ih others (registry.store (ids drawn) entry) (registry.drawnAfter drawn entry)
        (messages ++ [entry]) (by rw [placed, if_pos rfl]; exact first)
      simpa [messagesFor] using later
    · have later := ih others (registry.store (ids drawn) entry) (registry.drawnAfter drawn entry)
        messages (by rw [placed, if_neg same]; exact keeps)
      simpa [messagesFor, Ne.symm same] using later

/-- The messages of an operation that are stored if it is carried out. -/
def stored (registry : Registry) (ids : Nat → String) (invocation : Invocation) : List Entry :=
  if invocation.operation = .post ∧ (registry.invoke ids invocation).answer.isOk then
    invocation.entries
  else []

theorem keeps_invoke {key : Key} {messages : List Entry} (registry : Registry)
    (ids : Nat → String) (invocation : Invocation)
    (keeps : Keeps key messages (registry.find? key)) :
    (registry.invoke ids invocation).registry.find? key = none ∨
      Keeps key (messages ++ messagesFor key (registry.stored ids invocation))
        ((registry.invoke ids invocation).registry.find? key) := by
  obtain ⟨operation, entries⟩ := invocation
  cases operation with
  | get =>
    refine .inr ?_
    simpa [stored, invoke, get, messagesFor] using keeps
  | post =>
    refine .inr ?_
    unfold stored
    simp only [invoke, post]
    cases refused : entries.find? (!isComplete ·) with
    | some entry => simpa [messagesFor, Except.isOk, Except.toBool] using keeps
    | none =>
      have complete : ∀ entry ∈ entries, isComplete entry = true := by
        simpa using List.find?_eq_none.1 refused
      exact keeps_storeAll entries complete registry 0 messages keeps
  | delete =>
    have nothing : messagesFor key (registry.stored ids ⟨.delete, entries⟩) = [] := by
      simp [stored, messagesFor]
    rw [nothing, List.append_nil]
    rcases find?_delete entries registry key with kept | gone
    · exact .inr (by rw [show (registry.invoke ids ⟨.delete, entries⟩).registry.find? key =
        registry.find? key from kept]; exact keeps)
    · exact .inl gone

end Registry

namespace Service

/-- The messages that a request had the agent store: those of an operation that stores and was
answered with the status 200. -/
def accepted (service : Service) (exchange : Exchange) : List Entry :=
  match service.invocation? exchange.request with
  | some invocation =>
    if invocation.operation = .post ∧ exchange.response.status = 200 then invocation.entries else []
  | none => []

/-- The messages accepted for a key in some exchanges since the key was last absent, behind those that
were accepted before. -/
def targets (service : Service) (key : Key) (before : List Entry) : List Exchange → List Entry
  | [] => before
  | exchange :: rest =>
    if (exchange.after.registry.find? key).isNone then targets service key [] rest
    else targets service key (before ++ messagesFor key (service.accepted exchange)) rest

theorem accepted_exchange (service : Service) (supply : Nat → String) (request : Http.Request)
    (state : State) {invocation : Invocation}
    (asked : service.invocation? request = some invocation)
    (replied : (service.exchange supply request state).response =
      replyTo (state.invoke supply invocation).answer) :
    service.accepted (service.exchange supply request state) =
      state.registry.stored (state.ids supply) invocation := by
  have asked : service.invocation? (service.exchange supply request state).request =
      some invocation := asked
  simp only [accepted, asked, replied, status_replyTo, Registry.stored, State.invoke]

/-- One request preserves what accounts for the entry under a key, unless it removes the entry. -/
theorem keeps_exchange {key : Key} {messages : List Entry} (service : Service)
    (supply : Nat → String) (request : Http.Request) (state : State)
    (keeps : Keeps key messages (state.registry.find? key)) :
    (service.exchange supply request state).after.registry.find? key = none ∨
      Keeps key
        (messages ++
          messagesFor key (service.accepted (service.exchange supply request state)))
        ((service.exchange supply request state).after.registry.find? key) := by
  rcases service.exchange_cases supply request state with
    ⟨invocation, asked, replied, after⟩ | ⟨asked, registry, -⟩
  · rw [accepted_exchange service supply request state asked replied, after]
    exact Registry.keeps_invoke state.registry (state.ids supply) invocation keeps
  · refine .inr ?_
    have asked : service.invocation? (service.exchange supply request state).request = none := asked
    rw [registry]
    simpa [accepted, asked, messagesFor] using keeps

theorem keeps_run {key : Key} (service : Service) (supply : Nat → String)
    (requests : List Http.Request) (state : State) (messages : List Entry)
    (keeps : Keeps key messages (state.registry.find? key)) :
    Keeps key (service.targets key messages (service.history supply requests state))
      ((service.final supply requests state).registry.find? key) := by
  induction requests generalizing state messages with
  | nil => exact keeps
  | cons request rest ih =>
    rw [history, targets, final]
    cases held : (service.exchange supply request state).after.registry.find? key with
    | none => exact ih _ [] (by rw [held]; rfl)
    | some entry =>
      have next :=
        (keeps_exchange service supply request state keeps).resolve_left (by simp [held])
      exact ih _ _ next

/-- After any run from the empty store, each key holds what the messages accepted for it since it was
last absent account for. -/
theorem store_accounted (service : Service) (supply : Nat → String)
    (requests : List Http.Request) (key : Key) :
    Keeps key (service.targets key [] (service.history supply requests {}))
      ((service.final supply requests {}).registry.find? key) :=
  keeps_run service supply requests {} [] rfl

end Service

end PublicIp.Agent
