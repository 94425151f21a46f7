import PublicIp.Agent.Service

/-!
# Runs of the agent

A run is a list of requests that a service answers one after the other, and its `history` keeps each
of them with its reply and the states around it. `exchange_cases` says all that one request can do: it
is carried out as an operation, or it leaves the registry and the supply of ids as they are.
-/

namespace PublicIp.Agent.Service

/-- The operation that a request asks for, if nothing about the request is refused. -/
def invocation? (service : Service) (request : Http.Request) : Option Invocation :=
  if service.admits request ∧ Http.path request.target = Http.invokePath ∧ request.method = "POST"
  then (readBody Invocation.codec request).toOption
  else none

def State.ids (state : State) (supply : Nat → String) (n : Nat) : String := supply (state.drawn + n)

/-- The effect of an operation in a state. -/
def State.invoke (state : State) (supply : Nat → String) (invocation : Invocation) :
    Effect (Except Refusal Answer) :=
  state.registry.invoke (state.ids supply) invocation

def State.apply {α : Type} (state : State) (effect : Effect α) : State where
  registry := effect.registry
  drawn := state.drawn + effect.drawn
  events := state.events ++ effect.events

theorem State.registry_apply {α : Type} (state : State) (effect : Effect α) :
    (state.apply effect).registry = effect.registry := rfl

theorem State.ids_apply {α : Type} (state : State) (effect : Effect α) (supply : Nat → String) :
    (state.apply effect).ids supply = fun n => state.ids supply (effect.drawn + n) :=
  funext fun n => congrArg supply (Nat.add_assoc state.drawn effect.drawn n)

/-- A request and its reply, with the states of the service around them. -/
structure Exchange where
  before : State
  request : Http.Request
  response : Http.Response
  after : State

def exchange (service : Service) (supply : Nat → String) (request : Http.Request) (state : State) :
    Exchange where
  before := state
  request := request
  response := (service.serve supply request state).1
  after := (service.serve supply request state).2

/-- The exchanges of a run. -/
def history (service : Service) (supply : Nat → String) :
    List Http.Request → State → List Exchange
  | [], _ => []
  | request :: rest, state =>
    service.exchange supply request state ::
      history service supply rest (service.exchange supply request state).after

/-- The state after a run. -/
def final (service : Service) (supply : Nat → String) : List Http.Request → State → State
  | [], state => state
  | request :: rest, state =>
    final service supply rest (service.exchange supply request state).after

theorem final_append (service : Service) (supply : Nat → String) (first second : List Http.Request)
    (state : State) :
    service.final supply (first ++ second) state =
      service.final supply second (service.final supply first state) := by
  induction first generalizing state with
  | nil => rfl
  | cons request rest ih => exact ih _

theorem history_split {service : Service} {supply : Nat → String} {requests : List Http.Request}
    {state : State} {first second : List Exchange}
    (split : service.history supply requests state = first ++ second) :
    ∃ early late, requests = early ++ late ∧ service.history supply early state = first ∧
      service.history supply late (service.final supply early state) = second := by
  induction first generalizing requests state with
  | nil => exact ⟨[], requests, rfl, rfl, split⟩
  | cons exchange first ih =>
    cases requests with
    | nil => simp [history] at split
    | cons request rest =>
      rw [history, List.cons_append, List.cons.injEq] at split
      obtain ⟨head, tail⟩ := split
      obtain ⟨early, late, rfl, before, after⟩ := ih tail
      exact ⟨request :: early, late, rfl, by rw [history, before, head], after⟩

/-- Where an exchange stands in a history, it answers a request in the state reached so far. -/
theorem history_at {service : Service} {supply : Nat → String} {requests : List Http.Request}
    {state : State} {earlier later : List Exchange} {exchange : Exchange}
    (split : service.history supply requests state = earlier ++ exchange :: later) :
    ∃ early request late, requests = early ++ request :: late ∧
      service.history supply early state = earlier ∧
      exchange = service.exchange supply request (service.final supply early state) := by
  obtain ⟨early, late, rfl, before, after⟩ := history_split split
  cases late with
  | nil => simp [history] at after
  | cons request late =>
    rw [history, List.cons.injEq] at after
    exact ⟨early, request, late, rfl, before, after.1.symm⟩

theorem route_of_invocation {ids : Nat → String} (order : List Entry) {request : Http.Request}
    {registry : Registry} {invocation : Invocation} (path : Http.path request.target = Http.invokePath)
    (method : request.method = "POST")
    (body : readBody Invocation.codec request = .ok invocation) :
    route ids order request registry =
      { registry.invoke ids invocation with
        answer := replyTo (registry.invoke ids invocation).answer } := by
  unfold route
  simp [path, method, body]

/-- A request that is no operation changes neither the registry nor the supply. -/
theorem route_of_refusal (ids : Nat → String) (order : List Entry) {request : Http.Request}
    (registry : Registry)
    (refusal : ∀ invocation, Http.path request.target = Http.invokePath → request.method = "POST" →
      readBody Invocation.codec request ≠ .ok invocation) :
    (route ids order request registry).registry = registry ∧
      (route ids order request registry).drawn = 0 := by
  unfold route
  simp only [refuse, Registry.precheck]
  split
  · exact ⟨rfl, rfl⟩
  split
  · exact ⟨rfl, rfl⟩
  next method =>
    split
    · next path =>
      split
      · exact ⟨rfl, rfl⟩
      · next invocation body => exact absurd body (refusal invocation path (by simpa using method))
    · split <;> exact ⟨rfl, rfl⟩

theorem exchange_cases (service : Service) (supply : Nat → String) (request : Http.Request)
    (state : State) :
    (∃ invocation, service.invocation? request = some invocation ∧
      (service.exchange supply request state).response =
        replyTo (state.invoke supply invocation).answer ∧
      (service.exchange supply request state).after =
        state.apply (state.invoke supply invocation)) ∨
    (service.invocation? request = none ∧
      (service.exchange supply request state).after.registry = state.registry ∧
      (service.exchange supply request state).after.drawn = state.drawn) := by
  by_cases admitted : service.admits request = true
  · cases found : service.invocation? request with
    | some invocation =>
      refine .inl ⟨invocation, rfl, ?_⟩
      unfold invocation? at found
      split at found
      · next checks =>
        obtain ⟨-, path, method⟩ := checks
        cases body : readBody Invocation.codec request with
        | error response => simp [body, Except.toOption] at found
        | ok read =>
          obtain rfl : read = invocation := by simpa [body, Except.toOption] using found
          simp only [exchange, serve, handle, admitted, if_true,
            route_of_invocation _ path method body]
          exact ⟨rfl, rfl⟩
      · exact absurd found (by simp)
    | none =>
      refine .inr ⟨rfl, ?_⟩
      have refusal : ∀ invocation, Http.path request.target = Http.invokePath →
          request.method = "POST" → readBody Invocation.codec request ≠ .ok invocation := by
        intro invocation path method body
        simp [invocation?, admitted, path, method, body, Except.toOption] at found
      have kept := route_of_refusal (fun n => supply (state.drawn + n)) (service.scan.order state)
        state.registry refusal
      simp only [exchange, serve, handle, admitted, if_true]
      exact ⟨kept.1, by rw [kept.2, Nat.add_zero]⟩
  · refine .inr ⟨?_, ?_⟩
    · unfold invocation?
      rw [if_neg (fun checks => admitted checks.1)]
    · simp [exchange, serve, handle, admitted, refuse]

/-- An operation is answered with the status 200 exactly if it is carried out. -/
theorem status_replyTo (answer : Except Refusal Answer) :
    (replyTo answer).status = 200 ↔ answer.isOk = true := by
  match answer with
  | .ok carried => exact ⟨fun _ => rfl, fun _ => rfl⟩
  | .error (.incomplete name) => simp [replyTo, Http.Response.ofText, Except.isOk, Except.toBool]
  | .error (.missing name) => simp [replyTo, Http.Response.ofText, Except.isOk, Except.toBool]

end PublicIp.Agent.Service
