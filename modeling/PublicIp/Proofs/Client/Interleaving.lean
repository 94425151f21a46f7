import Mathlib.Logic.Function.Basic
import PublicIp.Proofs.Client.Outcome

/-!
# Clients side by side

Several clients run operations at one service. They take turns in any order: in a turn a client makes
one call, and goes on to where it would make the next one. An operation is done in the turn of its last
call, and an operation that makes no call takes a turn of its own. Only deleting takes two turns; all
other operations are `Single`.
-/

namespace PublicIp

namespace Dialogue

variable {α β σ : Type} (transport : Transport σ) (deadline : Deadline)

/-- What is left of a dialogue where it makes its next call, or ends. -/
def settled : Dialogue α → Dialogue α
  | .note _ next => next.settled
  | dialogue => dialogue

/-- Makes the next call of a dialogue, and goes on to the one after it. -/
def advance : Dialogue α → σ → Dialogue α × σ
  | .done result, state => (.done result, state)
  | .note _ next, state => next.advance state
  | .invoke request next, state =>
    match transport.invoke deadline request state with
    | (.error error, state) => (.done (.error error), state)
    | (.ok response, state) => ((next response).settled, state)
  | .precheck request next, state =>
    match transport.precheck deadline request state with
    | (.error error, state) => (.done (.error error), state)
    | (.ok response, state) => ((next response).settled, state)

/-- Whether a dialogue makes no call. -/
def Local : Dialogue α → Prop
  | .done _ => True
  | .note _ next => next.Local
  | _ => False

/-- Whether a dialogue makes at most one call. -/
def Single : Dialogue α → Prop
  | .done _ => True
  | .note _ next => next.Single
  | .invoke _ next => ∀ response, (next response).Local
  | .precheck _ next => ∀ response, (next response).Local

theorem Local.settled {dialogue : Dialogue α} (alone : dialogue.Local) (state : σ) :
    dialogue.settled = .done (dialogue.outcome transport deadline state).1 ∧
      (dialogue.outcome transport deadline state).2 = state := by
  induction dialogue with
  | done result => exact ⟨rfl, rfl⟩
  | note event next ih => exact ih alone
  | invoke request next => exact alone.elim
  | precheck request next => exact alone.elim

theorem Single.advance {dialogue : Dialogue α} (single : dialogue.Single) (state : σ) :
    dialogue.advance transport deadline state =
      (.done (dialogue.outcome transport deadline state).1,
        (dialogue.outcome transport deadline state).2) := by
  induction dialogue with
  | done result => rfl
  | note event next ih => exact ih single
  | invoke request next =>
    rw [outcome_invoke, Dialogue.advance]
    rcases transport.invoke deadline request state with ⟨error | response, after⟩
    · rfl
    · obtain ⟨ended, kept⟩ := (single response).settled transport deadline after
      simp only [ended, kept]
  | precheck request next =>
    rw [outcome_precheck, Dialogue.advance]
    rcases transport.precheck deadline request state with ⟨error | response, after⟩
    · rfl
    · obtain ⟨ended, kept⟩ := (single response).settled transport deadline after
      simp only [ended, kept]

theorem Local.bind {dialogue : Dialogue α} {next : α → Dialogue β} (alone : dialogue.Local)
    (others : ∀ value, (next value).Local) : (dialogue.bind next).Local := by
  induction dialogue with
  | done result =>
    cases result with
    | error error => trivial
    | ok value => exact others value
  | note event next ih => exact ih alone
  | invoke request next => exact alone.elim
  | precheck request next => exact alone.elim

theorem Local.single {dialogue : Dialogue α} (alone : dialogue.Local) : dialogue.Single := by
  induction dialogue with
  | done result => trivial
  | note event next ih => exact ih alone
  | invoke request next => exact alone.elim
  | precheck request next => exact alone.elim

theorem Single.bind {dialogue : Dialogue α} {next : α → Dialogue β} (single : dialogue.Single)
    (others : ∀ value, (next value).Local) : (dialogue.bind next).Single := by
  induction dialogue with
  | done result =>
    cases result with
    | error error => trivial
    | ok value => exact (others value).single
  | note event next ih => exact ih single
  | invoke request next => exact fun response => (single response).bind others
  | precheck request next => exact fun response => (single response).bind others

theorem bind_assoc {γ : Type} (dialogue : Dialogue α) (f : α → Dialogue β) (g : β → Dialogue γ) :
    (dialogue.bind f).bind g = dialogue.bind fun value => (f value).bind g := by
  induction dialogue with
  | done result => cases result <;> rfl
  | note event next ih => exact congrArg (Dialogue.note event) ih
  | invoke request next ih => exact congrArg (Dialogue.invoke request) (funext ih)
  | precheck request next ih => exact congrArg (Dialogue.precheck request) (funext ih)

end Dialogue

namespace Client

theorem single_get (location name : String) : (get location name).Single := by
  unfold get
  cases Request.byName .get location name with
  | error error => trivial
  | ok request => exact fun response => trivial

theorem local_settle (location name : String) (records : List Record) :
    (settle location name records).Local := by
  match records with
  | [] => trivial
  | [_] => trivial
  | _ :: _ :: rest =>
    unfold settle
    rw [if_pos (by simp)]
    trivial

theorem single_put (location name : String) (record : Option Record) :
    (put location name record).Single := by
  unfold put
  cases record.filter (·.properties.isSome) with
  | none => trivial
  | some record =>
    simp only
    cases Request.ofRecord .post location name (some record) with
    | error error => trivial
    | ok request => exact fun response => local_settle location name response.records

theorem single_skipped (skipped : List Nat) {α : Type} {next : Dialogue α} (single : next.Single) :
    ((skipped.forM fun index => Dialogue.noting (.skipped index)) >>= fun _ => next).Single := by
  induction skipped with
  | nil => exact single
  | cons index rest ih => exact ih

theorem single_precheck (location : String) (records : List (Option Record)) :
    (precheck location records).Single := by
  unfold precheck
  obtain ⟨skipped, request⟩ := PrecheckRequest.ofRecords location records
  refine single_skipped skipped ?_
  cases request with
  | error error => trivial
  | ok request => exact fun response => trivial

/-- What is left of the deletion of a record once it was found. -/
def removing (location : String) (record : Record) : Dialogue Reply :=
  .invoke ⟨.delete, [record.message location]⟩ fun _ => .done (.ok .deleted)

end Client

section Advance

variable {σ : Type} (transport : Transport σ) (deadline : Deadline)

/-- All operations but deleting are done in one turn. -/
theorem Verb.single (verb : Verb) (other : ∀ location name, verb ≠ .delete location name) :
    verb.dialogue.Single := by
  cases verb with
  | get location name => exact (Client.single_get location name).bind fun _ => trivial
  | put location name record => exact (Client.single_put location name record).bind fun _ => trivial
  | delete location name => exact absurd rfl (other location name)
  | precheck location records =>
    exact (Client.single_precheck location records).bind fun _ => trivial

theorem advance_get_bind {α : Type} (location name : String) (next : List Record → Dialogue α)
    (state : σ) :
    ((Client.get location name).bind next).advance transport deadline state =
      match (Client.get location name).outcome transport deadline state with
      | (.error error, state) => (.done (.error error), state)
      | (.ok found, state) => ((next found).settled, state) := by
  unfold Client.get
  cases Request.byName .get location name with
  | error error => rfl
  | ok request =>
    show (Dialogue.invoke request fun response => next response.records).advance transport deadline
        state =
      match (Dialogue.invoke request fun response => .done (.ok response.records)).outcome transport
        deadline state with
      | (.error error, state) => (.done (.error error), state)
      | (.ok found, state) => ((next found).settled, state)
    rw [Dialogue.outcome_invoke, Dialogue.advance]
    rcases transport.invoke deadline request state with ⟨error | response, after⟩ <;> rfl

/-- The first turn of a deletion is done at once unless a record is found. -/
theorem advance_delete (location name : String) (state : σ) :
    (Verb.delete location name).dialogue.advance transport deadline state =
      if name = "" then (.done (.error (.invalidInput "name not specified")), state)
      else
        match (Client.get location name).outcome transport deadline state with
        | (.error error, state) => (.done (.error error), state)
        | (.ok [], state) => (.done (.error (.notFound (Ledger.missing name))), state)
        | (.ok (current :: _), state) =>
          match Ledger.defect? location current with
          | some error => (.done (.error error), state)
          | none => (Client.removing location current, state) := by
  unfold Verb.dialogue
  show Dialogue.advance _ _ ((Client.delete location name).bind _) _ = _
  unfold Client.delete
  by_cases empty : name = ""
  · rw [if_pos empty, if_pos empty]
    rfl
  · rw [if_neg empty, if_neg empty]
    show Dialogue.advance _ _ (((Client.get location name).bind _).bind _) _ = _
    rw [Dialogue.bind_assoc, advance_get_bind]
    rcases (Client.get location name).outcome transport deadline state with ⟨error | found, after⟩
    · rfl
    · cases found with
      | nil => rfl
      | cons current rest =>
        simp only
        rw [Request.ofRecord_eq]
        cases Ledger.defect? location current <;> rfl

/-- A deletion is done in its first turn, or it found a record there. -/
theorem advance_delete_cases (location name : String) (state : σ) :
    let verb := Verb.delete location name
    verb.dialogue.advance transport deadline state =
        (.done (verb.dialogue.outcome transport deadline state).1,
          (verb.dialogue.outcome transport deadline state).2) ∨
      ∃ current others after, name ≠ "" ∧
        (Client.get location name).outcome transport deadline state =
          (.ok (current :: others), after) ∧
        verb.dialogue.advance transport deadline state = (Client.removing location current, after) := by
  intro verb
  have whole : verb.dialogue.outcome transport deadline state =
      (((Client.delete location name).outcome transport deadline state).1.map fun _ => .deleted,
        ((Client.delete location name).outcome transport deadline state).2) :=
    Dialogue.outcome_map transport deadline _ _ state
  rw [whole, Client.outcome_delete, advance_delete]
  by_cases empty : name = ""
  · rw [if_pos empty, if_pos empty]
    exact .inl rfl
  · rw [if_neg empty, if_neg empty]
    rcases (Client.get location name).outcome transport deadline state with ⟨error | found, after⟩
    · exact .inl rfl
    · cases found with
      | nil => exact .inl rfl
      | cons current others =>
        simp only
        cases Ledger.defect? location current with
        | some error => exact .inl rfl
        | none => exact .inr ⟨current, others, after, empty, rfl, rfl⟩

theorem advance_removing (location : String) (record : Record) (state : σ) :
    (Client.removing location record).advance transport deadline state =
      let ran := readOff (fun _ => .ok Reply.deleted)
        (transport.invoke deadline ⟨.delete, [record.message location]⟩ state)
      (.done ran.1, ran.2) := by
  rw [Client.removing, Dialogue.advance]
  rcases transport.invoke deadline _ state with ⟨error | response, after⟩ <;> rfl

end Advance

/-- A client at work: the operation that it is at, with what is left of it, and those to come. -/
structure Session where
  pending : Option (Verb × Dialogue Reply) := none
  todo : List Verb := []

namespace Session

/-- The operation that takes the next turn of a client, with what is left of it, and those to come after
it. -/
def next? (session : Session) : Option (Verb × Dialogue Reply × List Verb) :=
  match session.pending, session.todo with
  | some (verb, rest), todo => some (verb, rest, todo)
  | none, verb :: todo => some (verb, verb.dialogue, todo)
  | none, [] => none

/-- The operations that a client has not done yet. -/
def remaining (session : Session) : List Verb := (session.pending.map Prod.fst).toList ++ session.todo

theorem remaining_of_next {session : Session} {verb : Verb} {rest : Dialogue Reply}
    {todo : List Verb} (next : session.next? = some (verb, rest, todo)) :
    session.remaining = verb :: todo := by
  obtain ⟨pending, others⟩ := session
  cases pending with
  | some current =>
    obtain ⟨rfl, rfl, rfl⟩ : current.1 = verb ∧ current.2 = rest ∧ others = todo := by
      simpa [next?, Prod.ext_iff] using next
    rfl
  | none =>
    cases others with
    | nil => simp [next?] at next
    | cons first others =>
      obtain ⟨rfl, -, rfl⟩ : first = verb ∧ first.dialogue = rest ∧ others = todo := by
        simpa [next?] using next
      rfl

theorem next_cases {session : Session} {verb : Verb} {rest : Dialogue Reply} {todo : List Verb}
    (next : session.next? = some (verb, rest, todo)) :
    session.pending = some (verb, rest) ∨ (session.pending = none ∧ rest = verb.dialogue) := by
  obtain ⟨pending, others⟩ := session
  cases pending with
  | some current =>
    obtain ⟨rfl, rfl, rfl⟩ : current.1 = verb ∧ current.2 = rest ∧ others = todo := by
      simpa [next?, Prod.ext_iff] using next
    exact .inl rfl
  | none =>
    cases others with
    | nil => simp [next?] at next
    | cons first others =>
      obtain ⟨rfl, rfl, rfl⟩ : first = verb ∧ first.dialogue = rest ∧ others = todo := by
        simpa [next?] using next
      exact .inr ⟨rfl, rfl⟩

end Session

/-- An operation that a client has done. -/
structure Done (ι : Type) where
  client : ι
  verb : Verb
  /-- Whether it took more than one turn. -/
  resumed : Bool
  answer : Except ApiError Reply

/-- Clients at work side by side, with what they have done so far in order. -/
structure World (ι σ : Type) where
  sessions : ι → Session
  done : List (Done ι) := []
  state : σ

namespace World

variable {ι σ : Type}

/-- Clients that have operations to run. -/
def start (programs : ι → List Verb) (state : σ) : World ι σ where
  sessions client := { todo := programs client }
  state := state

variable [DecidableEq ι] (transports : ι → Transport σ)

def turn (world : World ι σ) (client : ι) : World ι σ :=
  match (world.sessions client).next? with
  | none => world
  | some (verb, rest, todo) =>
    match rest.advance (transports client) .unlimited world.state with
    | (.done answer, state) => {
        sessions := Function.update world.sessions client { todo }
        done := world.done ++
          [{ client, verb, resumed := (world.sessions client).pending.isSome, answer }]
        state }
    | (rest, state) => {
        sessions := Function.update world.sessions client { pending := some (verb, rest), todo }
        done := world.done
        state }

theorem turn_of_idle {world : World ι σ} {client : ι}
    (idle : (world.sessions client).next? = none) : world.turn transports client = world := by
  unfold turn
  rw [idle]

theorem turn_of_done {world : World ι σ} {client : ι} {verb : Verb} {rest : Dialogue Reply}
    {todo : List Verb} {answer : Except ApiError Reply} {state : σ}
    (next : (world.sessions client).next? = some (verb, rest, todo))
    (ended : rest.advance (transports client) .unlimited world.state = (.done answer, state)) :
    world.turn transports client = {
      sessions := Function.update world.sessions client { todo }
      done := world.done ++
        [{ client, verb, resumed := (world.sessions client).pending.isSome, answer }]
      state } := by
  unfold turn
  rw [next]
  simp only [ended]

theorem turn_of_removing {world : World ι σ} {client : ι} {verb : Verb} {rest : Dialogue Reply}
    {todo : List Verb} {location : String} {record : Record} {state : σ}
    (next : (world.sessions client).next? = some (verb, rest, todo))
    (found : rest.advance (transports client) .unlimited world.state =
      (Client.removing location record, state)) :
    world.turn transports client = {
      sessions := Function.update world.sessions client {
        pending := some (verb, Client.removing location record), todo }
      done := world.done
      state } := by
  unfold turn
  rw [next]
  simp only [found, Client.removing]

def run (world : World ι σ) (schedule : List ι) : World ι σ := schedule.foldl (turn transports) world

end World

end PublicIp
