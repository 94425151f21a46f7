import PublicIp.Proofs.Client.Outcome
import PublicIp.Proofs.Conversion

/-!
# Deleting, step by step

Deleting is fetching and then sending back what came first in the reply. `Client.removal` writes out
every step of that over any transport (`run_delete`): each reply of the agent leads to a second envelope,
unless there is nothing in it.
-/

namespace PublicIp

variable {α β σ : Type} (transport : Transport σ) (deadline : Deadline)

namespace Dialogue

/-- The steps of what follows a dialogue come after its own. -/
theorem run_bind (dialogue : Dialogue α) (next : α → Dialogue β) (state : σ) :
    (dialogue.bind next).run transport deadline state =
      match dialogue.run transport deadline state with
      | (.error error, steps, after) => (.error error, steps, after)
      | (.ok value, steps, after) =>
        (((next value).run transport deadline after).1,
          steps ++ ((next value).run transport deadline after).2.1,
          ((next value).run transport deadline after).2.2) := by
  induction dialogue generalizing state with
  | done result => cases result <;> rfl
  | note event rest ih =>
    rw [bind, run, run, ih]
    rcases rest.run transport deadline state with ⟨_ | value, steps, after⟩ <;> rfl
  | invoke request rest ih =>
    rw [bind, run, run]
    rcases transport.invoke deadline request state with ⟨_ | response, after⟩
    · rfl
    · simp only
      rw [ih]
      rcases (rest response).run transport deadline after with ⟨_ | value, steps, last⟩ <;> rfl
  | precheck request rest ih =>
    rw [bind, run, run]
    rcases transport.precheck deadline request state with ⟨_ | response, after⟩
    · rfl
    · simp only
      rw [ih]
      rcases (rest response).run transport deadline after with ⟨_ | value, steps, last⟩ <;> rfl

theorem run_call (event : ClientEvent) (request : Request) (read : Response → α) (state : σ) :
    (Dialogue.note event (.invoke request fun response => .done (.ok (read response)))).run
        transport deadline state =
      ((transport.invoke deadline request state).1.map read, [.noted event, .invoked request],
        (transport.invoke deadline request state).2) := by
  rw [run, run]
  rcases transport.invoke deadline request state with ⟨_ | response, after⟩ <;> rfl

end Dialogue

namespace Client

variable (location name : String) (state : σ)

def lookupRequest : Request := ⟨.get, [{ name, location }]⟩

def looked : List Step :=
  [.noted (.lookup location name), .invoked (lookupRequest location name)]

theorem run_get :
    (get location name).run transport deadline state =
      if location = "" then
        (.error (.invalidInput "location not specified"), [.noted (.lookup location name)], state)
      else
        ((transport.invoke deadline (lookupRequest location name) state).1.map Response.records,
          looked location name, (transport.invoke deadline (lookupRequest location name) state).2) := by
  unfold get Request.byName
  rw [Request.ofRecord_eq]
  by_cases unlocated : location = ""
  · rw [if_pos unlocated, Ledger.defect?, if_pos unlocated]
    rfl
  · have sound : Ledger.defect? location (.named name) = none :=
      (Ledger.defect?_eq_none_iff _ _).2 ⟨unlocated, name, rfl⟩
    rw [if_neg unlocated, sound]
    exact Dialogue.run_call transport deadline _ (lookupRequest location name) Response.records state

/-- What deleting comes to: its result, its steps and the state after them. -/
def removal : Except ApiError Unit × List Step × σ :=
  if name = "" then (.error (.invalidInput "name not specified"), [], state)
  else if location = "" then
    (.error (.invalidInput "location not specified"), [.noted (.lookup location name)], state)
  else
    match transport.invoke deadline (lookupRequest location name) state with
    | (.error error, after) => (.error error, looked location name, after)
    | (.ok response, after) =>
      match response.addresses with
      | [] =>
        (.error (.notFound ("public IP address [" ++ name ++ "] not found")), looked location name,
          after)
      | first :: _ =>
        let request : Request := ⟨.delete, [first.resent location]⟩
        ((transport.invoke deadline request after).1.map fun _ => (),
          looked location name ++ [.noted (.delete location name), .invoked request],
          (transport.invoke deadline request after).2)

theorem run_delete :
    (delete location name).run transport deadline state =
      removal transport deadline location name state := by
  unfold delete removal
  by_cases unnamed : name = ""
  · rw [if_pos unnamed, if_pos unnamed]
    rfl
  rw [if_neg unnamed, if_neg unnamed]
  show ((get location name).bind _).run _ _ _ = _
  rw [Dialogue.run_bind, run_get]
  by_cases unlocated : location = ""
  · rw [if_pos unlocated, if_pos unlocated]
  rw [if_neg unlocated, if_neg unlocated]
  rcases transport.invoke deadline (lookupRequest location name) state with ⟨error | response, after⟩
  · rfl
  · have records : response.records = response.addresses.map Message.toRecord := rfl
    simp only [Except.map, records]
    cases response.addresses with
    | nil => rfl
    | cons first rest =>
      -- A record read from a message has a name, so that its deletion is not refused.
      have sound : Ledger.defect? location first.toRecord = none :=
        (Ledger.defect?_eq_none_iff _ _).2 ⟨unlocated, first.name, rfl⟩
      simp only [List.map_cons]
      rw [Request.ofRecord_eq, sound, Message.message_toRecord]
      have sent := Dialogue.run_call transport deadline (.delete location name)
        ⟨.delete, [first.resent location]⟩ (fun _ => ()) after
      exact congrArg (fun ran => (ran.1, _ ++ ran.2.1, ran.2.2)) sent

/-- How often a line is noted. -/
def linesOf (line : String) (steps : List Step) : Nat :=
  steps.countP fun
    | .noted event => event.message = line
    | _ => false

/-- How often an envelope of an operation is sent. -/
def sentOf (operation : Operation) (steps : List Step) : Nat :=
  steps.countP fun
    | .invoked request => request.operation = operation
    | _ => false

theorem steps_removal :
    name = "" ∧ (removal transport deadline location name state).2.1 = [] ∨
      name ≠ "" ∧
        ((removal transport deadline location name state).2.1 = [.noted (.lookup location name)] ∨
          (removal transport deadline location name state).2.1 = looked location name ∨
          ∃ message, (removal transport deadline location name state).2.1 =
            looked location name ++
              [.noted (.delete location name), .invoked ⟨.delete, [message]⟩]) := by
  unfold removal
  split
  · next unnamed => exact .inl ⟨unnamed, rfl⟩
  refine .inr ⟨‹_›, ?_⟩
  split
  · exact .inl rfl
  right
  split
  · exact .inl rfl
  split
  · exact .inl rfl
  · exact .inr ⟨_, rfl⟩

/-- The line of a deletion is noted as often as one is sent. -/
theorem linesOf_removal :
    linesOf "delete public IP address" (removal transport deadline location name state).2.1 =
      sentOf .delete (removal transport deadline location name state).2.1 := by
  obtain ⟨-, steps⟩ | ⟨-, steps | steps | ⟨message, steps⟩⟩ :=
    steps_removal transport deadline location name state <;>
  · rw [steps]
    rfl

theorem linesOf_lookup_removal :
    linesOf "get public IP address" (removal transport deadline location name state).2.1 =
      if name = "" then 0 else 1 := by
  obtain ⟨unnamed, steps⟩ | ⟨named, steps⟩ := steps_removal transport deadline location name state
  · rw [steps, if_pos unnamed]
    rfl
  · rw [if_neg named]
    obtain steps | steps | ⟨message, steps⟩ := steps <;>
    · rw [steps]
      rfl

/-- What deleting over a transport comes to. -/
structure Deletes (ran : Except ApiError Unit × List Step × σ) : Prop where
  unnamed : name = "" → ran = (.error (.invalidInput "name not specified"), [], state)
  unlocated : name ≠ "" → location = "" →
    ran = (.error (.invalidInput "location not specified"), [.noted (.lookup location name)], state)
  lost : name ≠ "" → location ≠ "" → ∀ error after,
    transport.invoke deadline (lookupRequest location name) state = (.error error, after) →
      ran = (.error error, looked location name, after)
  missed : name ≠ "" → location ≠ "" → ∀ response after,
    transport.invoke deadline (lookupRequest location name) state = (.ok response, after) →
      response.addresses = [] →
        ran = (.error (.notFound ("public IP address [" ++ name ++ "] not found")),
          looked location name, after)
  /-- Whatever comes first in the reply is sent back as a deletion, and the result is what becomes of
  that. -/
  sent : name ≠ "" → location ≠ "" → ∀ response after,
    transport.invoke deadline (lookupRequest location name) state = (.ok response, after) →
      ∀ first rest, response.addresses = first :: rest →
        ∀ answer last,
          transport.invoke deadline ⟨.delete, [first.resent location]⟩ after = (answer, last) →
            ran = (answer.map fun _ => (),
              looked location name ++
                [.noted (.delete location name), .invoked ⟨.delete, [first.resent location]⟩],
              last)
  /-- The line of a deletion is noted as often as a deletion is sent. -/
  lines : linesOf "delete public IP address" ran.2.1 = sentOf .delete ran.2.1
  lookupLines : linesOf "get public IP address" ran.2.1 = if name = "" then 0 else 1

/-- Deleting fetches by name and location and sends back what comes first in the reply. Nothing that the
agent gives keeps the second envelope from being built. -/
theorem delete_stepwise :
    Deletes transport deadline location name state
      ((delete location name).run transport deadline state) := by
  rw [run_delete]
  constructor
  case unnamed => exact fun unnamed => if_pos unnamed
  case unlocated =>
    intro named unlocated
    rw [removal, if_neg named, if_pos unlocated]
  case lost =>
    intro named located error after fetched
    rw [removal, if_neg named, if_neg located, fetched]
  case missed =>
    intro named located response after fetched nothing
    rw [removal, if_neg named, if_neg located]
    simp only [fetched, nothing]
  case sent =>
    intro named located response after fetched first rest found answer last accepted
    rw [removal, if_neg named, if_neg located]
    simp only [fetched, found, accepted]
  case lines => exact linesOf_removal transport deadline location name state
  case lookupLines => exact linesOf_lookup_removal transport deadline location name state

/-- The first of two messages is sent back though it has another name, and the refusal of that is the
result. -/
theorem delete_stepwise_namesakes :
    let stray : Message :=
      { name := "web", location := "x", reverseFqdn := "c"
        status := some { health := some "OK" }, tags := some [⟨"b", "1"⟩, ⟨"a", "2"⟩, ⟨"b", "3"⟩] }
    let deletion : Request :=
      ⟨.delete, [{ name := "web", location := "loc1", reverseFqdn := "c"
                   tags := some [⟨"a", "2"⟩, ⟨"b", "3"⟩] }]⟩
    let transport : Transport Unit := {
      invoke := fun _ request state =>
        (if request.operation = .get then .ok { addresses := [stray, { name := "db" }] }
          else .error (.http 503 "busy"), state)
      precheck := fun _ _ state => (.ok {}, state) }
    (delete "loc1" "db").run transport .unlimited () =
      (.error (.http 503 "busy"),
        [.noted (.lookup "loc1" "db"), .invoked ⟨.get, [{ name := "db", location := "loc1" }]⟩,
          .noted (.delete "loc1" "db"), .invoked deletion], ()) := by
  intro stray deletion transport
  have tidy : stray.resent "loc1" = deletion.addresses.head (by decide) := by decide
  have deletes := delete_stepwise transport .unlimited "loc1" "db" ()
  have sent := deletes.sent (by decide) (by decide) _ () rfl stray _ rfl (.error (.http 503 "busy")) ()
    rfl
  rw [tidy] at sent
  exact sent

end Client

end PublicIp
