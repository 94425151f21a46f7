import Mathlib.Data.List.Forall2
import PublicIp.Proofs.Client.Outcome

/-!
# What the client sends

A recorded transport keeps its calls with what came of them, and does otherwise what it did
(`run_recorded`). The calls of an operation and its result take one of a few courses, whatever the
transport answers (`course_of_calls`), and on each of them the client keeps to its discipline
(`Course.disciplined`).
-/

namespace PublicIp

/-- A call of the transport, with what came of it. -/
inductive Exchange
  | invoked (request : Request) (answer : Except ApiError Response)
  | prechecked (request : PrecheckRequest) (answer : Except ApiError PrecheckResponse)

namespace Exchange

/-- The step of a dialogue that made a call. -/
def step : Exchange → Step
  | .invoked request _ => .invoked request
  | .prechecked request _ => .prechecked request

def messages : Exchange → List Message
  | .invoked request _ => request.addresses
  | .prechecked request _ => request.addresses

def failure? : Exchange → Option ApiError
  | .invoked _ (.error error) | .prechecked _ (.error error) => some error
  | _ => none

theorem answer_of_invoked {request : Request} {answer : Except ApiError Response} {error : ApiError}
    (failed : (invoked request answer).failure? = some error) : answer = .error error := by
  cases answer with
  | error => exact congrArg _ (Option.some.inj failed)
  | ok => cases failed

theorem answer_of_prechecked {request : PrecheckRequest}
    {answer : Except ApiError PrecheckResponse} {error : ApiError}
    (failed : (prechecked request answer).failure? = some error) : answer = .error error := by
  cases answer with
  | error => exact congrArg _ (Option.some.inj failed)
  | ok => cases failed

end Exchange

def Step.isCall : Step → Bool
  | .noted _ => false
  | .invoked _ | .prechecked _ => true

variable {α σ : Type} (transport : Transport σ) (deadline : Deadline)

/-- A transport that also keeps its calls. -/
def Transport.recorded : Transport (σ × List Exchange) where
  invoke deadline request state :=
    let (answer, next) := transport.invoke deadline request state.1
    (answer, next, state.2 ++ [.invoked request answer])
  precheck deadline request state :=
    let (answer, next) := transport.precheck deadline request state.1
    (answer, next, state.2 ++ [.prechecked request answer])

theorem Transport.invoke_recorded (request : Request) (state : σ) (past : List Exchange) :
    transport.recorded.invoke deadline request (state, past) =
      ((transport.invoke deadline request state).1, (transport.invoke deadline request state).2,
        past ++ [.invoked request (transport.invoke deadline request state).1]) := rfl

theorem Transport.precheck_recorded (request : PrecheckRequest) (state : σ) (past : List Exchange) :
    transport.recorded.precheck deadline request (state, past) =
      ((transport.precheck deadline request state).1, (transport.precheck deadline request state).2,
        past ++ [.prechecked request (transport.precheck deadline request state).1]) := rfl

/-- Recording calls changes nothing else, and the calls that are recorded are those of the steps. -/
theorem Dialogue.run_recorded (dialogue : Dialogue α) (state : σ) (past : List Exchange) :
    ∃ calls, dialogue.run transport.recorded deadline (state, past) =
        ((dialogue.run transport deadline state).1, (dialogue.run transport deadline state).2.1,
          (dialogue.run transport deadline state).2.2, past ++ calls) ∧
      calls.map Exchange.step = (dialogue.run transport deadline state).2.1.filter Step.isCall := by
  induction dialogue generalizing state past with
  | done result => exact ⟨[], by simp [run], rfl⟩
  | note event next ih =>
    obtain ⟨calls, ran, steps⟩ := ih state past
    refine ⟨calls, ?_, steps⟩
    rw [run, ran]
    rfl
  | invoke request next ih =>
    rw [run, run, Transport.invoke_recorded]
    rcases transport.invoke deadline request state with ⟨error | response, after⟩
    · exact ⟨[.invoked request (.error error)], rfl, rfl⟩
    · obtain ⟨calls, ran, steps⟩ := ih response after (past ++ [.invoked request (.ok response)])
      refine ⟨.invoked request (.ok response) :: calls, ?_, congrArg (_ :: ·) steps⟩
      rw [← List.append_cons] at ran
      simp only [ran]
  | precheck request next ih =>
    rw [run, run, Transport.precheck_recorded]
    rcases transport.precheck deadline request state with ⟨error | response, after⟩
    · exact ⟨[.prechecked request (.error error)], rfl, rfl⟩
    · obtain ⟨calls, ran, steps⟩ := ih response after (past ++ [.prechecked request (.ok response)])
      refine ⟨.prechecked request (.ok response) :: calls, ?_, congrArg (_ :: ·) steps⟩
      rw [← List.append_cons] at ran
      simp only [ran]

def Verb.location : Verb → String
  | .get location _ | .put location _ _ | .delete location _ | .precheck location _ => location

def Verb.mostCalls : Verb → Nat
  | .delete _ _ => 2
  | _ => 1

def Verb.calls (verb : Verb) (state : σ) : List Exchange :=
  (verb.dialogue.run transport.recorded deadline (state, [])).2.2.2

theorem Verb.outcome_recorded (verb : Verb) (state : σ) :
    verb.dialogue.outcome transport.recorded deadline (state, []) =
      ((verb.dialogue.run transport deadline state).1,
        (verb.dialogue.run transport deadline state).2.2, verb.calls transport deadline state) := by
  obtain ⟨calls, ran, -⟩ := verb.dialogue.run_recorded transport deadline state []
  unfold Dialogue.outcome Verb.calls
  rw [ran]

/-- Failures that are raised by a check of the arguments. -/
inductive ApiError.OfCheck : ApiError → Prop
  | input (detail : String) : OfCheck (.invalidInput detail)
  | configuration (detail : String) : OfCheck (.invalidConfiguration detail)

theorem ApiError.OfCheck.inContext {error : ApiError} (check : error.OfCheck) (context : String) :
    (error.inContext context).OfCheck := by
  cases check with
  | input => exact .input _
  | configuration => exact .configuration _

theorem Ledger.ofCheck_defect? {location : String} {record : Record} {error : ApiError}
    (defect : defect? location record = some error) : error.OfCheck := by
  unfold defect? at defect
  split at defect
  · exact Option.some.inj defect ▸ .input _
  split at defect
  · exact Option.some.inj defect ▸ .configuration _
  · cases defect

namespace Client

def lookup (location name : String) (answer : Except ApiError Response) : Exchange :=
  .invoked ⟨.get, [{ name, location }]⟩ answer

/-- The calls that an operation may make, with what may come of them, and its result. -/
inductive Course : Verb → List Exchange → Except ApiError Reply → Prop
  | refused (verb : Verb) {error : ApiError} (check : error.OfCheck) : Course verb [] (.error error)
  | got {location : String} (given : location ≠ "") (name : String)
      (answer : Except ApiError Response) :
      Course (.get location name) [lookup location name answer]
        (answer.map fun response => .records response.records)
  | saved {location name : String} (given : location ≠ "") (argument : String) {record : Record}
      (described : record.properties ≠ none) (named : record.name = some name)
      (answer : Except ApiError Response) :
      Course (.put location argument (some record))
        [.invoked ⟨.post, [record.message location]⟩ answer]
        ((answer.bind fun response => created argument response.records).map .record)
  | lost {location name : String} (given : location ≠ "") (named : name ≠ "") (error : ApiError) :
      Course (.delete location name) [lookup location name (.error error)] (.error error)
  | missed {location name : String} (given : location ≠ "") (named : name ≠ "")
      {response : Response} (nothing : response.addresses = []) :
      Course (.delete location name) [lookup location name (.ok response)]
        (.error (.notFound (Ledger.missing name)))
  | removed {location name : String} (given : location ≠ "") (named : name ≠ "")
      {response : Response} {first : Message} {rest : List Message}
      (found : response.addresses = first :: rest) (answer : Except ApiError Response) :
      Course (.delete location name)
        [lookup location name (.ok response),
          .invoked ⟨.delete, [first.toRecord.message location]⟩ answer]
        (answer.map fun _ => .deleted)
  | asked {location : String} {records : List (Option Record)}
      (sound : ∀ record ∈ records.filterMap id, Ledger.defect? location record = none)
      (answer : Except ApiError PrecheckResponse) :
      Course (.precheck location records)
        [.prechecked ⟨(records.filterMap id).map (·.message location)⟩ answer]
        ((answer.bind PrecheckResponse.verdict).map .passed)

/-- Whether what came of an operation over a recorded transport is one of its courses. -/
def Takes {σ : Type} (verb : Verb) (came : Except ApiError Reply × σ × List Exchange) : Prop :=
  Course verb came.2.2 came.1

section Calls

variable (location name : String) (state : σ)

theorem takes_get :
    Takes (.get location name)
      ((Verb.get location name).dialogue.outcome transport.recorded deadline (state, [])) := by
  rw [Verb.dialogue, Dialogue.outcome_map, outcome_get]
  cases defect : Ledger.defect? location (.named name) with
  | some error => exact Course.refused _ (Ledger.ofCheck_defect? defect)
  | none =>
    have given := ((Ledger.defect?_eq_none_iff _ _).1 defect).1
    simp only [readOff, Transport.invoke_recorded]
    cases (transport.invoke deadline _ state).1 with
    | error error => exact Course.got given name (.error error)
    | ok response => exact Course.got given name (.ok response)

theorem takes_put (record : Option Record) :
    Takes (.put location name record)
      ((Verb.put location name record).dialogue.outcome transport.recorded deadline
        (state, [])) := by
  rw [Verb.dialogue, Dialogue.outcome_map, outcome_put]
  cases chosen : record.filter (·.properties.isSome) with
  | none => exact Course.refused _ (.configuration _)
  | some record =>
    obtain ⟨rfl, described⟩ := Option.filter_eq_some_iff.1 chosen
    simp only
    cases defect : Ledger.defect? location record with
    | some error => exact Course.refused _ (Ledger.ofCheck_defect? defect)
    | none =>
      obtain ⟨given, own, named⟩ := (Ledger.defect?_eq_none_iff _ _).1 defect
      exact Course.saved given name (Option.isSome_iff_ne_none.1 described) named _

theorem takes_delete :
    Takes (.delete location name)
      ((Verb.delete location name).dialogue.outcome transport.recorded deadline (state, [])) := by
  rw [Verb.dialogue, Dialogue.outcome_map, outcome_delete]
  by_cases named : name = ""
  · rw [if_pos named]
    exact Course.refused _ (.input _)
  rw [if_neg named, outcome_get]
  cases defect : Ledger.defect? location (.named name) with
  | some error => exact Course.refused _ (Ledger.ofCheck_defect? defect)
  | none =>
    have given := ((Ledger.defect?_eq_none_iff _ _).1 defect).1
    simp only [readOff, Transport.invoke_recorded]
    rcases transport.invoke deadline _ state with ⟨error | response, after⟩
    · exact Course.lost given named error
    · have records : response.records = response.addresses.map Message.toRecord := rfl
      simp only [Except.bind, records]
      cases found : response.addresses with
      | nil => exact Course.missed given named found
      | cons first rest =>
        -- A record read from a message has a name, so its deletion is not refused.
        have sound : Ledger.defect? location first.toRecord = none :=
          (Ledger.defect?_eq_none_iff _ _).2 ⟨given, first.name, rfl⟩
        simp only [List.map_cons, sound, Transport.invoke_recorded]
        cases (transport.invoke deadline _ after).1 with
        | error error => exact Course.removed given named found (.error error)
        | ok last => exact Course.removed given named found (.ok last)

theorem takes_precheck (records : List (Option Record)) :
    Takes (.precheck location records)
      ((Verb.precheck location records).dialogue.outcome transport.recorded deadline
        (state, [])) := by
  rw [Verb.dialogue, Dialogue.outcome_map, outcome_precheck]
  cases defect : (records.filterMap id).findSome? (Ledger.defect? location) with
  | some error =>
    obtain ⟨record, -, defect⟩ := List.exists_of_findSome?_eq_some defect
    exact Course.refused _ ((Ledger.ofCheck_defect? defect).inContext _)
  | none => exact Course.asked (List.findSome?_eq_none_iff.1 defect) _

/-- Every operation takes one of the courses, whatever the transport answers. -/
theorem course_of_calls (verb : Verb) :
    Course verb (verb.calls transport deadline state)
      (verb.dialogue.run transport deadline state).1 := by
  have takes : Takes verb (verb.dialogue.outcome transport.recorded deadline (state, [])) := by
    cases verb with
    | get location name => exact takes_get transport deadline location name state
    | put location name record => exact takes_put transport deadline location name state record
    | delete location name => exact takes_delete transport deadline location name state
    | precheck location records =>
      exact takes_precheck transport deadline location state records
  rw [verb.outcome_recorded] at takes
  exact takes

end Calls

/-- What holds of every message that is sent to a location. -/
structure IsFor (location : String) (message : Message) : Prop where
  given : location ≠ ""
  located : message.location = location
  unmarked : message.status = none
  ordered : ∀ tags ∈ message.tags, Ascending (tags.map fun tag => (tag.key, tag.value))

theorem isFor_message {location : String} (given : location ≠ "") (record : Record) :
    IsFor location (record.message location) where
  given := given
  located := rfl
  unmarked := rfl
  ordered := by
    intro tags mem
    obtain ⟨map, -, rfl⟩ := Option.map_eq_some_iff.1 mem
    have entries : (Tag.ofMap map).map (fun tag => (tag.key, tag.value)) = map.entries := by
      rw [Tag.ofMap, List.map_map]
      exact List.map_id _
    exact entries ▸ map.ascending

/-- The discipline that the client keeps to. -/
structure Disciplined (verb : Verb) (calls : List Exchange) (result : Except ApiError Reply) :
    Prop where
  /-- The envelope of an operation has one message. -/
  single : ∀ request answer, .invoked request answer ∈ calls →
    ∃ message, request.addresses = [message]
  addressed : ∀ call ∈ calls, ∀ message ∈ call.messages, IsFor verb.location message
  /-- A lookup carries a name and a location only. -/
  looks : ∀ request answer, .invoked request answer ∈ calls → request.operation = .get →
    ∃ name, (verb = .get verb.location name ∨ verb = .delete verb.location name) ∧
      request.addresses = [{ name, location := verb.location }]
  /-- A creation carries the record that it was asked for. -/
  creates : ∀ request answer, .invoked request answer ∈ calls → request.operation = .post →
    ∃ argument record message, verb = .put verb.location argument (some record) ∧
      record.properties ≠ none ∧ record.name = some message.name ∧
      record.toMessage verb.location = .ok message ∧ request.addresses = [message]
  /-- A deletion follows a lookup that found something. -/
  deletes : ∀ earlier request answer later,
    calls = earlier ++ .invoked request answer :: later → request.operation = .delete →
      ∃ name response, verb = .delete verb.location name ∧ name ≠ "" ∧
        earlier = [lookup verb.location name (.ok response)] ∧ response.addresses ≠ []
  /-- Only a precheck asks for one. -/
  asks : ∀ request answer, .prechecked request answer ∈ calls →
    ∃ records, verb = .precheck verb.location records ∧
      List.Forall₂ (fun record message => record.toMessage verb.location = .ok message)
        (records.filterMap id) request.addresses
  few : calls.length ≤ verb.mostCalls
  /-- The first failure of the transport is the last call, and the result. -/
  stops : ∀ earlier call later error, calls = earlier ++ call :: later →
    call.failure? = some error → later = [] ∧ result = .error error
  /-- Without a call there is a failure, which a check of the arguments raised. -/
  checks : calls = [] → ∃ error, result = .error error ∧ error.OfCheck
  passes : ∀ verdict, result = .ok (.passed verdict) → verdict = true

/-- The calls that an operation may make. -/
inductive Sends : Verb → Exchange → Prop
  | look {location : String} (given : location ≠ "") (name : String)
      (answer : Except ApiError Response) :
      Sends (.get location name) (lookup location name answer)
  | fetch {location : String} (given : location ≠ "") (name : String)
      (answer : Except ApiError Response) :
      Sends (.delete location name) (lookup location name answer)
  | create {location name : String} (given : location ≠ "") (argument : String) {record : Record}
      (described : record.properties ≠ none) (named : record.name = some name)
      (answer : Except ApiError Response) :
      Sends (.put location argument (some record))
        (.invoked ⟨.post, [record.message location]⟩ answer)
  | delete {location : String} (given : location ≠ "") (name : String) (first : Message)
      (answer : Except ApiError Response) :
      Sends (.delete location name)
        (.invoked ⟨.delete, [first.toRecord.message location]⟩ answer)
  | ask {location : String} {records : List (Option Record)}
      (sound : ∀ record ∈ records.filterMap id, Ledger.defect? location record = none)
      (answer : Except ApiError PrecheckResponse) :
      Sends (.precheck location records)
        (.prechecked ⟨(records.filterMap id).map (·.message location)⟩ answer)

namespace Sends

variable {verb : Verb}

theorem single {request : Request} {answer : Except ApiError Response}
    (sends : Sends verb (.invoked request answer)) : ∃ message, request.addresses = [message] := by
  cases sends <;> exact ⟨_, rfl⟩

theorem addressed {call : Exchange} (sends : Sends verb call) (message : Message)
    (sent : message ∈ call.messages) : IsFor verb.location message := by
  cases sends with
  | look given name =>
    obtain rfl := List.mem_singleton.1 sent
    exact isFor_message given (.named name)
  | fetch given name =>
    obtain rfl := List.mem_singleton.1 sent
    exact isFor_message given (.named name)
  | create given =>
    obtain rfl := List.mem_singleton.1 sent
    exact isFor_message given _
  | delete given =>
    obtain rfl := List.mem_singleton.1 sent
    exact isFor_message given _
  | ask sound =>
    obtain ⟨record, mem, rfl⟩ := List.mem_map.1 sent
    exact isFor_message ((Ledger.defect?_eq_none_iff _ _).1 (sound record mem)).1 record

theorem looks {request : Request} {answer : Except ApiError Response}
    (sends : Sends verb (.invoked request answer)) (get : request.operation = .get) :
    ∃ name, (verb = .get verb.location name ∨ verb = .delete verb.location name) ∧
      request.addresses = [{ name, location := verb.location }] := by
  cases sends with
  | look _ name => exact ⟨name, .inl rfl, rfl⟩
  | fetch _ name => exact ⟨name, .inr rfl, rfl⟩
  | create => cases get
  | delete => cases get

theorem creates {request : Request} {answer : Except ApiError Response}
    (sends : Sends verb (.invoked request answer)) (post : request.operation = .post) :
    ∃ argument record message, verb = .put verb.location argument (some record) ∧
      record.properties ≠ none ∧ record.name = some message.name ∧
      record.toMessage verb.location = .ok message ∧ request.addresses = [message] := by
  cases sends with
  | look => cases post
  | fetch => cases post
  | @create location name given argument record described named =>
    have sound := (Ledger.defect?_eq_none_iff location record).2 ⟨given, name, named⟩
    have made := Record.toMessage_of_fit sound
    have own : (record.message location).name = name := by simp [Record.message, named]
    exact ⟨argument, record, _, rfl, described, own ▸ named, made, rfl⟩
  | delete => cases post

theorem asks {request : PrecheckRequest} {answer : Except ApiError PrecheckResponse}
    (sends : Sends verb (.prechecked request answer)) :
    ∃ records, verb = .precheck verb.location records ∧
      List.Forall₂ (fun record message => record.toMessage verb.location = .ok message)
        (records.filterMap id) request.addresses := by
  cases sends with
  | @ask location records sound => exact ⟨records, rfl, Record.forall₂_toMessage sound⟩

end Sends

theorem split_one {only call : Exchange} {earlier later : List Exchange}
    (split : [only] = earlier ++ call :: later) : earlier = [] ∧ call = only ∧ later = [] := by
  cases earlier with
  | nil => simpa [eq_comm] using split
  | cons => simp at split

theorem split_two {first second call : Exchange} {earlier later : List Exchange}
    (split : [first, second] = earlier ++ call :: later) :
    earlier = [] ∧ call = first ∧ later = [second] ∨
      earlier = [first] ∧ call = second ∧ later = [] := by
  cases earlier with
  | nil => exact .inl (by simpa [eq_comm] using split)
  | cons head rest =>
    rw [List.cons_append, List.cons.injEq] at split
    obtain ⟨rfl, ended⟩ := split
    obtain ⟨rfl, same, last⟩ := split_one ended
    exact .inr ⟨rfl, same, last⟩

namespace Course

variable {verb : Verb} {calls : List Exchange} {result : Except ApiError Reply}
  (course : Course verb calls result)

include course

theorem sends {call : Exchange} (mem : call ∈ calls) : Sends verb call := by
  cases course with
  | refused => cases mem
  | got given name answer =>
    obtain rfl := List.mem_singleton.1 mem
    exact .look given name answer
  | saved given argument described named answer =>
    obtain rfl := List.mem_singleton.1 mem
    exact .create given argument described named answer
  | lost given =>
    obtain rfl := List.mem_singleton.1 mem
    exact .fetch given _ _
  | missed given =>
    obtain rfl := List.mem_singleton.1 mem
    exact .fetch given _ _
  | removed given =>
    rcases List.mem_cons.1 mem with rfl | mem
    · exact .fetch given _ _
    · obtain rfl := List.mem_singleton.1 mem
      exact .delete given _ _ _
  | asked sound answer =>
    obtain rfl := List.mem_singleton.1 mem
    exact .ask sound answer

theorem deletes {earlier later : List Exchange} {request : Request}
    {answer : Except ApiError Response}
    (split : calls = earlier ++ .invoked request answer :: later)
    (delete : request.operation = .delete) :
    ∃ name response, verb = .delete verb.location name ∧ name ≠ "" ∧
      earlier = [lookup verb.location name (.ok response)] ∧ response.addresses ≠ [] := by
  cases course with
  | @removed location name given named response first rest found =>
    rcases split_two split with ⟨-, same, -⟩ | ⟨rfl, -, -⟩
    · cases same
      cases delete
    · exact ⟨name, response, rfl, named, rfl, by simp [found]⟩
  | refused => simp at split
  | asked => cases (split_one split).2.1
  | _ =>
    cases (split_one split).2.1
    cases delete

theorem stops {earlier later : List Exchange} {call : Exchange} {error : ApiError}
    (split : calls = earlier ++ call :: later) (failed : call.failure? = some error) :
    later = [] ∧ result = .error error := by
  cases course with
  | refused => simp at split
  | got given name answer =>
    obtain ⟨-, rfl, rfl⟩ := split_one split
    obtain rfl := Exchange.answer_of_invoked failed
    exact ⟨rfl, rfl⟩
  | saved given argument described named answer =>
    obtain ⟨-, rfl, rfl⟩ := split_one split
    obtain rfl := Exchange.answer_of_invoked failed
    exact ⟨rfl, rfl⟩
  | lost given named error =>
    obtain ⟨-, rfl, rfl⟩ := split_one split
    exact ⟨rfl, congrArg _ (Option.some.inj failed)⟩
  | missed =>
    obtain ⟨-, rfl, rfl⟩ := split_one split
    cases failed
  | removed given named found answer =>
    rcases split_two split with ⟨-, rfl, -⟩ | ⟨-, rfl, rfl⟩
    · cases failed
    · obtain rfl := Exchange.answer_of_invoked failed
      exact ⟨rfl, rfl⟩
  | asked sound answer =>
    obtain ⟨-, rfl, rfl⟩ := split_one split
    obtain rfl := Exchange.answer_of_prechecked failed
    exact ⟨rfl, rfl⟩

theorem passes {verdict : Bool} (passed : result = .ok (.passed verdict)) : verdict = true := by
  cases course with
  | asked sound answer =>
    cases answer with
    | error => cases passed
    | ok response =>
      simp only [Except.bind, PrecheckResponse.verdict] at passed
      split at passed
      · cases passed
        rfl
      · cases passed
  | got given name answer => cases answer <;> cases passed
  | saved given argument described named answer =>
    cases answer with
    | error => cases passed
    | ok response =>
      simp only [Except.bind] at passed
      generalize created argument response.records = came at passed
      cases came <;> cases passed
  | removed given named found answer => cases answer <;> cases passed
  | _ => cases passed

theorem disciplined : Disciplined verb calls result where
  single _ _ mem := (course.sends mem).single
  addressed _ mem := (course.sends mem).addressed
  looks _ _ mem := (course.sends mem).looks
  creates _ _ mem := (course.sends mem).creates
  deletes _ _ _ _ split := course.deletes split
  asks _ _ mem := (course.sends mem).asks
  few := by cases course <;> simp [Verb.mostCalls]
  stops _ _ _ _ split := course.stops split
  checks none := by
    cases course with
    | refused _ check => exact ⟨_, rfl, check⟩
    | _ => cases none
  passes _ := course.passes

end Course

/-- A transport that always answers the same. -/
def answering (response : Response) : Transport Unit where
  invoke _ _ state := (.ok response, state)
  precheck _ _ state := (.ok {}, state)

/-- Whatever a transport answers, the client keeps to its discipline, and the calls that the
transport gets are those among the steps of the client. -/
theorem calls_disciplined (verb : Verb) (state : σ) :
    Disciplined verb (verb.calls transport deadline state)
        (verb.dialogue.run transport deadline state).1 ∧
      (verb.calls transport deadline state).map Exchange.step =
        (verb.dialogue.run transport deadline state).2.1.filter Step.isCall := by
  obtain ⟨calls, ran, steps⟩ := verb.dialogue.run_recorded transport deadline state []
  refine ⟨(course_of_calls transport deadline state verb).disciplined, ?_⟩
  unfold Verb.calls
  rw [ran]
  exact steps

/-- What is deleted was found with another location, a status and tags in disorder. -/
theorem calls_disciplined_stray :
    let stray : Message := {
      name := "web"
      location := "elsewhere"
      status := some {}
      tags := some [⟨"b", "1"⟩, ⟨"a", "2"⟩, ⟨"b", "3"⟩] }
    let calls := (Verb.delete "loc1" "web").calls (answering { addresses := [stray] }) .unlimited ()
    calls.map Exchange.messages = [
        [{ name := "web", location := "loc1" }],
        [{ name := "web", location := "loc1", tags := some [⟨"a", "2"⟩, ⟨"b", "3"⟩] }]] ∧
      Disciplined (.delete "loc1" "web") calls (.ok .deleted) := by
  intro stray calls
  have disciplined := calls_disciplined (answering { addresses := [stray] }) .unlimited
    (.delete "loc1" "web") ()
  exact ⟨by decide, disciplined.1⟩

end Client

end PublicIp
