import PublicIp.Proofs.Agent.Operations
import PublicIp.Proofs.Agent.Run

/-!
# Tasks of the agent

A request is read before the registry is looked at, and what it asks for is its `task`
(`handle_eq`). All that a request does to the registry is therefore what an operation does.
-/

namespace PublicIp.Agent.Service

/-- What a request comes to before the registry is looked at. -/
inductive Task
  | invoke (invocation : Invocation)
  | precheck (wanted : List Entry)
  | refuse (response : Http.Response)

def task (service : Service) (request : Http.Request) : Task :=
  if !service.admits request then .refuse (.ofText 401 "")
  else if Http.path request.target ≠ Http.invokePath ∧
      Http.path request.target ≠ Http.precheckPath then .refuse (.ofText 404 "")
  else if request.method ≠ "POST" then .refuse (.ofText 405 "")
  else if Http.path request.target = Http.invokePath then
    match readBody Invocation.codec request with
    | .error response => .refuse response
    | .ok invocation => .invoke invocation
  else
    match readBody precheckCodec request with
    | .error response => .refuse response
    | .ok wanted => .precheck wanted

def Task.entries : Task → List Entry
  | .invoke invocation => invocation.entries
  | .precheck wanted => wanted
  | .refuse _ => []

/-- Carries out a task, where the entries are met in some order. -/
def Task.effect (ids : Nat → String) (order : List Entry) (registry : Registry) :
    Task → Effect Http.Response
  | .invoke invocation =>
    { registry.invoke ids invocation with
      answer := replyTo (registry.invoke ids invocation).answer }
  | .precheck wanted =>
    { registry.precheck order wanted with
      answer := .ofText 200 (Verdict.codec.encode (registry.precheck order wanted).answer) }
  | .refuse response => Service.refuse registry response

/-- A request is read before the registry is looked at. -/
theorem handle_eq (service : Service) (ids : Nat → String) (order : List Entry)
    (request : Http.Request) (registry : Registry) :
    service.handle ids order request registry =
      (service.task request).effect ids order registry := by
  unfold handle task route
  cases service.admits request with
  | false => rfl
  | true =>
    simp only [if_true, Bool.not_true, Bool.false_eq_true, if_false]
    split
    · rfl
    · split
      · rfl
      · split
        · cases readBody Invocation.codec request <;> rfl
        · cases readBody precheckCodec request <;> rfl

theorem serve_of_task {service : Service} {request : Http.Request} {invocation : Invocation}
    (asked : service.task request = .invoke invocation) (supply : Nat → String) (state : State) :
    service.serve supply request state =
      (replyTo (state.invoke supply invocation).answer,
        state.apply (state.invoke supply invocation)) := by
  simp only [serve, handle_eq, asked]
  rfl

theorem serve_of_precheck {service : Service} {request : Http.Request} {wanted : List Entry}
    (asked : service.task request = .precheck wanted) (supply : Nat → String) (state : State) :
    service.serve supply request state =
      let effect := state.registry.precheck (service.scan.order state) wanted
      (.ofText 200 (Verdict.codec.encode effect.answer), state.apply effect) := by
  simp only [serve, handle_eq, asked]
  rfl

theorem keyed_effect {registry : Registry} (ids : Nat → String) (order : List Entry) (task : Task)
    (keyed : registry.Keyed) : Registry.Keyed (task.effect ids order registry).registry := by
  cases task with
  | invoke invocation => exact Registry.keyed_invoke ids invocation keyed
  | precheck _ => exact keyed
  | refuse _ => exact keyed

/-- After any run from the empty registry each entry stands under its own key. -/
theorem keyed_final (service : Service) (supply : Nat → String) (requests : List Http.Request)
    {state : State} (keyed : state.registry.Keyed) :
    (service.final supply requests state).registry.Keyed := by
  induction requests generalizing state with
  | nil => exact keyed
  | cons request rest ih =>
    refine ih ?_
    show Registry.Keyed (service.handle _ _ request state.registry).registry
    rw [handle_eq]
    exact keyed_effect _ _ _ keyed

end PublicIp.Agent.Service
