import Mathlib.Data.List.Forall2
import PublicIp.Client.Verb
import PublicIp.Proofs.Agent.Represent

/-!
# Outcomes of dialogues

The outcome of a dialogue is its result and the state it leaves behind, without the steps in between.
The operations of the client are written out step by step here, as far as their outcome depends on
them: the checks before a call, the one envelope of each call, and what becomes of the reply.
-/

namespace PublicIp

namespace Dialogue

variable {α β σ : Type} (transport : Transport σ) (deadline : Deadline)

/-- The result of a dialogue and the state after it. -/
def outcome (dialogue : Dialogue α) (state : σ) : Except ApiError α × σ :=
  ((dialogue.run transport deadline state).1, (dialogue.run transport deadline state).2.2)

@[simp] theorem outcome_done (result : Except ApiError α) (state : σ) :
    (Dialogue.done result).outcome transport deadline state = (result, state) := rfl

@[simp] theorem outcome_note (event : ClientEvent) (next : Dialogue α) (state : σ) :
    (Dialogue.note event next).outcome transport deadline state =
      next.outcome transport deadline state := rfl

theorem outcome_invoke (request : Request) (next : Response → Dialogue α) (state : σ) :
    (Dialogue.invoke request next).outcome transport deadline state =
      match transport.invoke deadline request state with
      | (.error error, state) => (.error error, state)
      | (.ok response, state) => (next response).outcome transport deadline state := by
  unfold outcome
  rw [run]
  rcases transport.invoke deadline request state with ⟨_ | response, after⟩ <;> rfl

theorem outcome_precheck (request : PrecheckRequest) (next : PrecheckResponse → Dialogue α)
    (state : σ) :
    (Dialogue.precheck request next).outcome transport deadline state =
      match transport.precheck deadline request state with
      | (.error error, state) => (.error error, state)
      | (.ok response, state) => (next response).outcome transport deadline state := by
  unfold outcome
  rw [run]
  rcases transport.precheck deadline request state with ⟨_ | response, after⟩ <;> rfl

theorem outcome_bind (dialogue : Dialogue α) (next : α → Dialogue β) (state : σ) :
    (dialogue.bind next).outcome transport deadline state =
      match dialogue.outcome transport deadline state with
      | (.error error, state) => (.error error, state)
      | (.ok value, state) => (next value).outcome transport deadline state := by
  induction dialogue generalizing state with
  | done result => cases result <;> rfl
  | note event _ ih => exact ih state
  | invoke request _ ih =>
    rw [bind, outcome_invoke, outcome_invoke]
    rcases transport.invoke deadline request state with ⟨_ | response, after⟩
    · rfl
    · exact ih response after
  | precheck request _ ih =>
    rw [bind, outcome_precheck, outcome_precheck]
    rcases transport.precheck deadline request state with ⟨_ | response, after⟩
    · rfl
    · exact ih response after

theorem outcome_map (f : α → β) (dialogue : Dialogue α) (state : σ) :
    (f <$> dialogue).outcome transport deadline state =
      ((dialogue.outcome transport deadline state).1.map f,
        (dialogue.outcome transport deadline state).2) := by
  show (dialogue.bind fun value => .done (.ok (f value))).outcome transport deadline state = _
  rw [outcome_bind]
  rcases dialogue.outcome transport deadline state with ⟨_ | value, after⟩ <;> rfl

end Dialogue

theorem Request.ofRecord_eq (operation : Operation) (location name : String) (record : Record) :
    Request.ofRecord operation location name (some record) =
      match Ledger.defect? location record with
      | some error => .error error
      | none => .ok { operation, addresses := [record.message location] } := by
  simp only [Request.ofRecord, Record.toMessage_eq]
  cases Ledger.defect? location record <;> rfl

theorem Record.forall₂_toMessage {location : String} {records : List Record}
    (fit : ∀ record ∈ records, Ledger.defect? location record = none) :
    List.Forall₂ (fun record message => record.toMessage location = .ok message) records
      (records.map (·.message location)) := by
  rw [List.forall₂_map_right_iff, List.forall₂_same]
  exact fun record mem => toMessage_of_fit (fit record mem)

/-- The messages of a precheck are those of the records that are present, unless one of them has a
defect. -/
theorem PrecheckRequest.messages_eq (location : String) (index : Nat)
    (records : List (Option Record)) :
    (messages location index records).2 =
      match (records.filterMap id).findSome? (Ledger.defect? location) with
      | some error => .error (error.inContext context)
      | none => .ok ((records.filterMap id).map (·.message location)) := by
  induction records generalizing index with
  | nil => rfl
  | cons record rest ih =>
    cases record with
    | none => exact ih (index + 1)
    | some record =>
      have present : (some record :: rest).filterMap id = record :: rest.filterMap id := rfl
      rw [messages, Record.toMessage_eq, present, List.findSome?_cons]
      cases Ledger.defect? location record with
      | some error => rfl
      | none =>
        simp only [ih (index + 1)]
        cases (rest.filterMap id).findSome? (Ledger.defect? location) <;> rfl

/-- What a client makes of what came of a call. -/
def readOff {α β σ : Type} (read : β → Except ApiError α) (ran : Except ApiError β × σ) :
    Except ApiError α × σ :=
  (ran.1.bind read, ran.2)

namespace Client

variable {σ : Type} (transport : Transport σ) (deadline : Deadline)

theorem outcome_get (location name : String) (state : σ) :
    (get location name).outcome transport deadline state =
      match Ledger.defect? location (.named name) with
      | some error => (.error error, state)
      | none =>
        readOff (fun response => .ok response.records)
          (transport.invoke deadline ⟨.get, [(Record.named name).message location]⟩ state) := by
  unfold get Request.byName
  rw [Request.ofRecord_eq]
  cases Ledger.defect? location (.named name) with
  | some error => rfl
  | none =>
    show (Dialogue.invoke _ _).outcome _ _ _ = _
    rw [Dialogue.outcome_invoke]
    rcases transport.invoke deadline _ state with ⟨_ | response, after⟩ <;> rfl

/-- What becomes of the reply to a creation. -/
def settle (location name : String) (records : List Record) : Dialogue Record := do
  if 1 < records.length then .noting (.surplus location name records.length)
  match records with
  | [] => .fail (.remote ("agent returned no public IP address for [" ++ name ++ "]"))
  | record :: _ => return record

/-- The record that is taken from the reply to a creation. Only the first one counts. -/
def created (name : String) : List Record → Except ApiError Record
  | [] => .error (.remote ("agent returned no public IP address for [" ++ name ++ "]"))
  | record :: _ => .ok record

theorem outcome_settle (location name : String) (records : List Record) (state : σ) :
    (settle location name records).outcome transport deadline state =
      (created name records, state) := by
  match records with
  | [] => rfl
  | [_] => rfl
  | _ :: _ :: rest =>
    unfold settle
    rw [if_pos (by simp)]
    rfl

theorem outcome_put (location name : String) (record : Option Record) (state : σ) :
    (put location name record).outcome transport deadline state =
      match record.filter (·.properties.isSome) with
      | none => (.error (.invalidConfiguration "missing public IP address properties"), state)
      | some record =>
        match Ledger.defect? location record with
        | some error => (.error error, state)
        | none =>
          readOff (fun response => created name response.records)
            (transport.invoke deadline ⟨.post, [record.message location]⟩ state) := by
  unfold put
  cases record.filter (·.properties.isSome) with
  | none => rfl
  | some record =>
    simp only
    rw [Request.ofRecord_eq]
    cases Ledger.defect? location record with
    | some error => rfl
    | none =>
      show (Dialogue.invoke _ _).outcome _ _ _ = _
      rw [Dialogue.outcome_invoke]
      rcases transport.invoke deadline _ state with ⟨_ | response, after⟩
      · rfl
      · exact outcome_settle transport deadline location name response.records after

theorem outcome_delete (location name : String) (state : σ) :
    (delete location name).outcome transport deadline state =
      if name = "" then (.error (.invalidInput "name not specified"), state)
      else
        match (get location name).outcome transport deadline state with
        | (.error error, state) => (.error error, state)
        | (.ok [], state) => (.error (.notFound (Ledger.missing name)), state)
        | (.ok (current :: _), state) =>
          match Ledger.defect? location current with
          | some error => (.error error, state)
          | none =>
            readOff (fun _ => .ok ())
              (transport.invoke deadline ⟨.delete, [current.message location]⟩ state) := by
  unfold delete
  by_cases empty : name = ""
  · rw [if_pos empty, if_pos empty]
    rfl
  · rw [if_neg empty, if_neg empty]
    show ((get location name).bind _).outcome _ _ _ = _
    rw [Dialogue.outcome_bind]
    rcases (get location name).outcome transport deadline state with ⟨_ | found, after⟩
    · rfl
    · cases found with
      | nil => rfl
      | cons current rest =>
        simp only
        rw [Request.ofRecord_eq]
        cases Ledger.defect? location current with
        | some error => rfl
        | none =>
          show (Dialogue.invoke _ _).outcome _ _ _ = _
          rw [Dialogue.outcome_invoke]
          rcases transport.invoke deadline _ after with ⟨_ | response, last⟩ <;> rfl

theorem outcome_skipped (skipped : List Nat) {α : Type} (next : Dialogue α) (state : σ) :
    ((skipped.forM fun index => Dialogue.noting (.skipped index)) >>= fun _ => next).outcome
      transport deadline state = next.outcome transport deadline state := by
  induction skipped with
  | nil => rfl
  | cons index rest ih => exact ih

theorem outcome_precheck (location : String) (records : List (Option Record)) (state : σ) :
    (precheck location records).outcome transport deadline state =
      match (records.filterMap id).findSome? (Ledger.defect? location) with
      | some error => (.error (error.inContext PrecheckRequest.context), state)
      | none =>
        readOff PrecheckResponse.verdict (transport.precheck deadline
          ⟨(records.filterMap id).map (·.message location)⟩ state) := by
  have made := PrecheckRequest.messages_eq location 0 records
  unfold precheck PrecheckRequest.ofRecords
  generalize PrecheckRequest.messages location 0 records = read at made ⊢
  obtain ⟨skipped, result⟩ := read
  obtain rfl : result = _ := made
  show ((skipped.forM fun index => Dialogue.noting (.skipped index)) >>= fun _ => _).outcome _ _ _ = _
  rw [outcome_skipped]
  cases (records.filterMap id).findSome? (Ledger.defect? location) with
  | some error => rfl
  | none =>
    show (Dialogue.precheck _ _).outcome _ _ _ = _
    rw [Dialogue.outcome_precheck]
    rcases transport.precheck deadline _ state with ⟨_ | response, after⟩ <;> rfl

/-- The answers to operations that are run in turn, each over some transport, and the state after
them. -/
def runAll : List (Transport σ × Verb) → σ → List (Except ApiError Reply) × σ
  | [], state => ([], state)
  | (transport, verb) :: rest, state =>
    let (answer, state) := verb.dialogue.outcome transport .unlimited state
    let (answers, state) := runAll rest state
    (answer :: answers, state)

end Client

end PublicIp
