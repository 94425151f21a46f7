import PublicIp.Agent.Uuid
import PublicIp.Proofs.Client.Call
import PublicIp.Proofs.Client.Outcome
import PublicIp.Proofs.Holders

/-!
# The client and the agent keep the ledger

A client that works on an agent through its transport gets the answers that the ledger gives. The
simulation says which states of a service represent a ledger (`Represents`); each call preserves that,
so each operation does (`matches_verb`), and so a whole run does (`tells_run`). The agent may meet its
entries in any order, which is one of the records of the ledger (`Represents.exists_order`).
-/

namespace PublicIp

open Agent (Key Service)

/-- Whether the state of a service represents a ledger. -/
structure Represents (state : Service.State) (ledger : Ledger) : Prop where
  registry : state.registry = ledger.registry
  drawn : state.drawn = ledger.drawn
  sound : ledger.Sound

theorem represents_empty : Represents {} {} := ⟨rfl, rfl, Ledger.sound_empty⟩

theorem Represents.exists_order {state : Service.State} {ledger : Ledger}
    (here : Represents state ledger) (scan : Service.Scan) :
    ∃ order : List Record, order.Perm ledger.records.values ∧
      order.map Record.entry = scan.order state := by
  have met := scan.perm state
  rw [here.registry] at met
  exact Ledger.exists_order met

/-- Whether a client and a service came to what the ledger says. -/
structure Matches {α : Type} (ran : α × Service.State) (told : α × Ledger) : Prop where
  answer : ran.1 = told.1
  represents : Represents ran.2 told.2

theorem matches_call {α β : Type} (read : β → Except ApiError α) (link : Link)
    (envelope reply : String) (answer : Except ApiError β) {before after : Service.State}
    {ledger next : Ledger} (here : Represents before ledger) (there : Represents after next) :
    Matches (readOff read (link.call envelope reply answer after before))
      (link.call envelope reply (answer.bind read) next ledger) := by
  unfold Link.call
  split
  · refine ⟨?_, there⟩
    simp only [readOff]
    split <;> rfl
  · exact ⟨rfl, here⟩

section Calls

variable {transport : HttpTransport} {service : Service} (authorised : transport.Authorised service)
  (supply : Nat → String) (now : Nat) {state : Service.State} {ledger : Ledger}
  (here : Represents state ledger)

include authorised here

/-- A call to the agent, where the agent goes on as the ledger does. -/
theorem matches_invoke {α : Type} (read : Response → Except ApiError α) (envelope : Request)
    {told : Except Agent.Refusal Agent.Answer} {text : String} {result : Except ApiError Response}
    {next : Ledger} (answer : (state.invoke supply (.ofRequest envelope)).answer = told)
    (registry : (state.invoke supply (.ofRequest envelope)).registry = next.registry)
    (drawn : state.drawn + (state.invoke supply (.ofRequest envelope)).drawn = next.drawn)
    (sound : next.Sound) (relayed : Relayed told text result) :
    Matches
      (readOff read
        ((transport.toTransport (service.channel supply now)).invoke .unlimited envelope state))
      (Link.http.call (Request.codec.encode envelope) text (result.bind read) next ledger) := by
  subst answer
  rw [HttpTransport.invoke_of_authorised authorised supply now state relayed]
  exact matches_call read Link.http _ _ result here ⟨registry, drawn, sound⟩

theorem matches_look (location name : String) :
    Matches
      (readOff (fun response => .ok response.records)
        ((transport.toTransport (service.channel supply now)).invoke .unlimited
          ⟨.get, [(Record.named name).message location]⟩ state))
      (ledger.look .http location name) := by
  have wanted := Ledger.wantedBy_registry here.sound (.ofMessage ((Record.named name).message location))
  have answer : (state.invoke supply
      (.ofRequest ⟨.get, [(Record.named name).message location]⟩)).answer =
      .ok { entries := ((ledger.found location name).map Record.reported).map .ofMessage } := by
    rw [← here.registry] at wanted
    show Except.ok (Agent.Answer.mk ([_].flatMap state.registry.wantedBy) "") = _
    rw [List.flatMap_singleton, wanted, List.map_map]
    rfl
  have records : Response.records
      { addresses := (ledger.found location name).map Record.reported } =
      ledger.found location name := Ledger.toRecord_found here.sound location name
  have call := matches_invoke authorised supply now here (fun response => .ok response.records) _
    answer here.registry here.drawn here.sound (.carriedOut _)
  simp only [Except.bind, records] at call
  exact call

theorem matches_save (key : Key) (located : key.location ≠ "") {record : Record}
    (named : record.name = some key.name) (argument : String) :
    Matches
      (readOff (fun response => Client.created argument response.records)
        ((transport.toTransport (service.channel supply now)).invoke .unlimited
          ⟨.post, [record.message key.location]⟩ state))
      (ledger.save .http supply key.location key.name record) := by
  unfold Ledger.save
  by_cases empty : key.name = ""
  · rw [if_pos empty]
    have own : (Agent.Entry.ofMessage (record.message key.location)).name = "" := by
      simp [Agent.Entry.ofMessage, Record.message, named, empty]
    have invoked : state.invoke supply (.ofRequest ⟨.post, [record.message key.location]⟩) =
        { answer := .error (.incomplete ""), registry := state.registry } := by
      rw [← own]
      exact Agent.Registry.post_incomplete _ _ (by simp [Agent.Registry.isComplete, own])
    have text : (Agent.Refusal.incomplete "").text =
        "public IP address [] needs a name and a location" := by decide
    have call := matches_invoke authorised supply now here
      (fun response => Client.created argument response.records)
      ⟨.post, [record.message key.location]⟩ (by rw [invoked])
      (by rw [invoked]; exact here.registry) (by rw [invoked]; exact here.drawn) here.sound
      (.incomplete "")
    rw [text] at call
    exact call
  · rw [if_neg empty]
    have fresh : state.ids supply 0 = supply ledger.drawn := by rw [← here.drawn]; rfl
    obtain ⟨answer, registry, drawn⟩ := Ledger.post_registry ledger (state.ids supply) located empty
      named
    rw [fresh] at answer registry drawn
    rw [← here.registry] at answer registry drawn
    rw [← here.drawn] at drawn
    have stands := Ledger.stands_stored here.sound (supply ledger.drawn) located empty named
    have sound := Ledger.sound_store here.sound (supply ledger.drawn) located empty named
    have call := matches_invoke authorised supply now here
      (fun response => Client.created argument response.records)
      ⟨.post, [record.message key.location]⟩ answer registry drawn sound
      (.carriedOut [(ledger.stored (supply ledger.drawn) key record).reported])
    have records : Response.records
        { addresses := [(ledger.stored (supply ledger.drawn) key record).reported] } =
        [ledger.stored (supply ledger.drawn) key record] := congrArg (· :: []) stands.returns
    simp only [Except.bind, records] at call
    exact call

theorem matches_remove {key : Key} {shown : Record} (named : shown.name = some key.name) :
    Matches
      (readOff (fun _ => .ok ())
        ((transport.toTransport (service.channel supply now)).invoke .unlimited
          ⟨.delete, [shown.message key.location]⟩ state))
      (ledger.remove .http key shown) := by
  obtain ⟨none, effect⟩ := Ledger.delete_registry ledger named
  rw [← here.registry] at none effect
  have drawn : state.drawn +
      (state.registry.delete [.ofMessage (shown.message key.location)]).drawn = ledger.drawn := by
    rw [none]
    exact here.drawn
  unfold Ledger.remove
  cases held : ledger.records.find? key with
  | none =>
    obtain ⟨answer, registry⟩ := held ▸ effect
    have text : (Agent.Refusal.missing key.name).text = Ledger.missing key.name := rfl
    have call := matches_invoke authorised supply now here (fun _ => .ok ())
      ⟨.delete, [shown.message key.location]⟩ answer (registry.trans here.registry) drawn here.sound
      (.missing key.name)
    rw [text] at call
    exact call
  | some old =>
    obtain ⟨answer, registry⟩ := held ▸ effect
    have sound := Ledger.sound_erase here.sound key
    have text : Agent.Answer.codec.encode { entries := ([] : List Message).map .ofMessage } =
        Ledger.recordsText [] := rfl
    have call := matches_invoke authorised supply now here (fun _ => .ok ())
      ⟨.delete, [shown.message key.location]⟩ answer registry drawn sound
      (.carriedOut [])
    rw [text] at call
    exact call

theorem matches_ask {order : List Record} (met : order.Perm ledger.records.values)
    (scanned : order.map Record.entry = service.scan.order state) {location : String}
    {records : List Record} (fit : ∀ record ∈ records, Ledger.defect? location record = none) :
    Matches
      (readOff PrecheckResponse.verdict
        ((transport.toTransport (service.channel supply now)).precheck .unlimited
          ⟨records.map (·.message location)⟩ state))
      (ledger.ask .http order location records) := by
  have verdict := Ledger.precheck_registry here.sound met fit
  rw [← here.registry, scanned] at verdict
  rw [HttpTransport.precheck_of_authorised authorised supply now state]
  simp only [verdict]
  have after : Represents (state.apply (state.registry.precheck (service.scan.order state)
      ((records.map (·.message location)).map .ofMessage))) ledger :=
    ⟨here.registry, here.drawn, here.sound⟩
  have call := matches_call PrecheckResponse.verdict Link.http
    (PrecheckRequest.codec.encode ⟨records.map (·.message location)⟩)
    (Agent.Verdict.codec.encode (Ledger.verdict order location records))
    (.ok { result := some (Ledger.verdict order location records).accepted
           error := (Ledger.verdict order location records).error }) here after
  exact call

theorem matches_get (location name : String) :
    Matches
      ((Client.get location name).outcome
        (transport.toTransport (service.channel supply now)) .unlimited state)
      (ledger.get .http location name) := by
  rw [Client.outcome_get]
  unfold Ledger.get
  cases Ledger.defect? location (.named name) with
  | some error => exact ⟨rfl, here⟩
  | none => exact matches_look authorised supply now here location name

theorem matches_put (location name : String) (record : Option Record) :
    Matches
      ((Client.put location name record).outcome
        (transport.toTransport (service.channel supply now)) .unlimited state)
      (ledger.put .http supply location record) := by
  rw [Client.outcome_put]
  cases record with
  | none => exact ⟨rfl, here⟩
  | some record =>
    unfold Ledger.put
    cases given : record.properties with
    | none =>
      rw [Option.filter_some_neg (by simp [given])]
      simp only [given, if_true]
      exact ⟨rfl, here⟩
    | some properties =>
      rw [Option.filter_some_pos (by rw [given]; rfl)]
      simp only [given, reduceCtorEq, if_false]
      cases fit : Ledger.defect? location record with
      | some error => exact ⟨rfl, here⟩
      | none =>
        obtain ⟨located, own, named⟩ := (Ledger.defect?_eq_none_iff location record).1 fit
        have saved := matches_save authorised supply now here ⟨location, own⟩ located named name
        rw [named]
        exact saved

theorem matches_delete (location name : String) :
    Matches
      ((Client.delete location name).outcome
        (transport.toTransport (service.channel supply now)) .unlimited state)
      (ledger.delete .http location name) := by
  rw [Client.outcome_delete]
  unfold Ledger.delete
  by_cases empty : name = ""
  · rw [if_pos empty, if_pos empty]
    exact ⟨rfl, here⟩
  · rw [if_neg empty, if_neg empty]
    have looked := matches_get authorised supply now here location name
    generalize (Client.get location name).outcome _ _ _ = ran at looked ⊢
    cases got : ledger.get .http location name with
    | mk told next =>
      rw [got] at looked
      obtain ⟨answer, after⟩ := ran
      obtain ⟨rfl, there⟩ : answer = told ∧ Represents after next := ⟨looked.1, looked.2⟩
      match answer with
      | .error error => exact ⟨rfl, there⟩
      | .ok [] => exact ⟨rfl, there⟩
      | .ok (current :: rest) =>
        obtain ⟨located, -, rfl, -⟩ := Ledger.get_eq_ok got
        have held := Ledger.find?_of_got empty got List.mem_cons_self
        have stands := here.sound _ current held
        have fit := (Ledger.defect?_eq_none_iff location current).2 ⟨located, name, stands.name⟩
        have named : current.name = some (Key.mk location name).name := stands.name
        have removed := matches_remove authorised supply now there named
        simp only [fit]
        exact removed

theorem matches_precheck {order : List Record} (met : order.Perm ledger.records.values)
    (scanned : order.map Record.entry = service.scan.order state) (location : String)
    (records : List (Option Record)) :
    Matches
      ((Client.precheck location records).outcome
        (transport.toTransport (service.channel supply now)) .unlimited state)
      (ledger.precheck .http order location records) := by
  rw [Client.outcome_precheck]
  unfold Ledger.precheck
  cases fit : (records.filterMap id).findSome? (Ledger.defect? location) with
  | some error =>
    simp only [fit]
    exact ⟨rfl, here⟩
  | none =>
    simp only [fit]
    exact matches_ask authorised supply now here met scanned (List.findSome?_eq_none_iff.1 fit)

/-- One operation keeps to the ledger, where the records are met as the agent meets its entries. -/
theorem matches_verb {order : List Record} (met : order.Perm ledger.records.values)
    (scanned : order.map Record.entry = service.scan.order state) (verb : Verb) :
    Matches
      (verb.dialogue.outcome (transport.toTransport (service.channel supply now)) .unlimited state)
      (ledger.perform .http supply order verb) := by
  have reply {α : Type} {ran : Except ApiError α × Service.State} {told : Except ApiError α × Ledger}
      (f : α → Reply) (kept : Matches ran told) :
      Matches (ran.1.map f, ran.2) (told.1.map f, told.2) :=
    ⟨congrArg (Except.map f) kept.answer, kept.represents⟩
  cases verb with
  | get location name =>
    unfold Verb.dialogue
    rw [Dialogue.outcome_map]
    exact reply _ (matches_get authorised supply now here location name)
  | put location name record =>
    unfold Verb.dialogue
    rw [Dialogue.outcome_map]
    exact reply _ (matches_put authorised supply now here location name record)
  | delete location name =>
    unfold Verb.dialogue
    rw [Dialogue.outcome_map]
    exact reply _ (matches_delete authorised supply now here location name)
  | precheck location records =>
    unfold Verb.dialogue
    rw [Dialogue.outcome_map]
    exact reply _ (matches_precheck authorised supply now here met scanned location records)

end Calls

/-- The operations that clients run in turn at a service. -/
def Agent.Service.runs (service : Service) (supply : Nat → String) (now : Nat)
    (turns : List (HttpTransport × Verb)) : List (Transport Service.State × Verb) :=
  turns.map fun turn => (turn.1.toTransport (service.channel supply now), turn.2)

/-- What clients get in turn is what the ledger may tell. -/
theorem tells_run {service : Service} (supply : Nat → String) (now : Nat)
    {turns : List (HttpTransport × Verb)}
    (authorised : ∀ turn ∈ turns, turn.1.Authorised service) {state : Service.State}
    {ledger : Ledger} (here : Represents state ledger) :
    let ran := Client.runAll (service.runs supply now turns) state
    ∃ last, Ledger.Tells .http supply (turns.map Prod.snd) ledger ran.1 last ∧
      Represents ran.2 last := by
  induction turns generalizing state ledger with
  | nil => exact ⟨ledger, .nil ledger, here⟩
  | cons turn rest ih =>
    obtain ⟨transport, verb⟩ := turn
    obtain ⟨order, met, scanned⟩ := here.exists_order service.scan
    have first := matches_verb (authorised _ List.mem_cons_self) supply now here met scanned verb
    obtain ⟨last, told, there⟩ :=
      ih (fun turn mem => authorised turn (List.mem_cons_of_mem _ mem)) first.represents
    refine ⟨last, ?_, there⟩
    have all := Ledger.Tells.cons met told
    rw [← first.answer] at all
    exact all

/-- Whatever operations an authorised client runs at a fresh agent, it gets answers that the ledger may
give, and the agent is left with the registry of that ledger. What else the ledger may tell is the same
up to the holders of addresses that are named. -/
theorem Client.run_keeps_ledger {transport : HttpTransport} {service : Service}
    (authorised : transport.Authorised service) (supply : Nat → String) (now : Nat)
    (verbs : List Verb) :
    let ran := Client.runAll (service.runs supply now (verbs.map (transport, ·))) {}
    ∃ ledger, Ledger.Tells .http supply verbs {} ran.1 ledger ∧
      ran.2.registry = ledger.registry ∧
      ∀ answers last, Ledger.Tells .http supply verbs {} answers last →
        List.Forall₂ SameButHolder ran.1 answers ∧ last = ledger := by
  intro ran
  have all : ∀ turn ∈ verbs.map (transport, ·), turn.1.Authorised service := by
    intro turn mem
    obtain ⟨verb, -, rfl⟩ := List.mem_map.1 mem
    exact authorised
  obtain ⟨ledger, told, left⟩ := tells_run supply now all represents_empty
  have same : (verbs.map (transport, ·)).map Prod.snd = verbs := by
    rw [List.map_map]
    exact List.map_id verbs
  rw [same] at told
  exact ⟨ledger, told, left.registry, fun answers last also =>
    told.alike also Ledger.sound_empty Ledger.terse_empty⟩

/-- An address is created and deleted, and then it is not there. -/
theorem Client.run_keeps_ledger_lifecycle :
    HttpTransport.loopback.Authorised .guarded ∧
      (Client.runAll (Service.runs .guarded Agent.Uuid.text 0 ([
        .put "westus" "ip1" (some { name := some "ip1", id := some "mine", properties := some {} }),
        .delete "westus" "ip1",
        .delete "westus" "ip1"].map (HttpTransport.loopback, ·))) {}).1 =
      [.ok (.record {
        name := some "ip1", id := some (Agent.Uuid.text 0), location := some "westus"
        properties := some {
          allocation := some .dynamic, ipVersion := some .v4
          statuses := .ofList [("HealthState", "OK"), ("ProvisionState", "CREATED")] } }),
        .ok .deleted, .error (.notFound "public IP address [ip1] not found")] := by
  refine ⟨HttpTransport.authorised_loopback, ?_⟩
  obtain ⟨ledger, -, -, alike⟩ := Client.run_keeps_ledger HttpTransport.authorised_loopback
    Agent.Uuid.text 0 [
      .put "westus" "ip1" (some { name := some "ip1", id := some "mine", properties := some {} }),
      .delete "westus" "ip1", .delete "westus" "ip1"]
  obtain ⟨same, -⟩ := alike _ _ (Ledger.tells_performAll .http Agent.Uuid.text _ {})
  generalize (Client.runAll _ _).1 = answers at same ⊢
  have told : (Ledger.performAll .http Agent.Uuid.text [
      .put "westus" "ip1" (some { name := some "ip1", id := some "mine", properties := some {} }),
      .delete "westus" "ip1", .delete "westus" "ip1"] {}).1 =
        [.ok (.record {
          name := some "ip1", id := some (Agent.Uuid.text 0), location := some "westus"
          properties := some {
            allocation := some .dynamic, ipVersion := some .v4
            statuses := .ofList [("HealthState", "OK"), ("ProvisionState", "CREATED")] } }),
        .ok .deleted, .error (.notFound "public IP address [ip1] not found")] := by
    decide +kernel
  rw [told] at same
  obtain _ | ⟨created, _ | ⟨deleted, _ | ⟨missing, _ | _⟩⟩⟩ := same
  rw [created.eq_of_unnamed nofun, deleted.eq_of_unnamed nofun, missing.eq_of_unnamed nofun]

theorem Ledger.put_of_large_name {name : String} (large : Service.maxBodySize < name.utf8ByteSize)
    (ledger : Ledger) (supply : Nat → String) {location : String} (located : location ≠ "") :
    let record : Record := { name := some name, properties := some {} }
    ledger.put .http supply location (some record) = (.error Link.refused, ledger) ∧
      ∃ stored next, ledger.put .unlimited supply location (some record) = (.ok stored, next) := by
  intro record
  have given : name ≠ "" := by
    intro empty
    rw [empty] at large
    exact absurd large (by decide)
  have larger := Nat.lt_trans large (name_lt_size_request .post (record.message location))
  have fit := (Ledger.defect?_eq_none_iff location record).2 ⟨located, name, rfl⟩
  have put (link : Link) := (Ledger.put_of_fit (Option.some_ne_none _) fit ledger link supply).trans
    (Ledger.save_of_named given ledger link supply location record)
  have refused := Link.not_carries_http (Nat.not_le.2 larger)
  exact ⟨(put .http).trans (Link.call_of_large _ _ _ refused), _, _,
    (put .unlimited).trans (Link.call_of_carried (.ok _) _ _ rfl rfl)⟩

theorem Client.run_of_large_name {name : String} (large : Service.maxBodySize < name.utf8ByteSize) :
    let verbs := [Verb.put "westus" "ip1" (some { name := some name, properties := some {} })]
    let ran := Client.runAll
      (Service.runs .guarded Agent.Uuid.text 0 (verbs.map (HttpTransport.loopback, ·))) {}
    ran.1 = [.error (.http 413 "Failed to buffer the request body: length limit exceeded")] ∧
      ∀ answers last, Ledger.Tells .unlimited Agent.Uuid.text verbs {} answers last →
        ¬ List.Forall₂ SameButHolder ran.1 answers := by
  intro verbs ran
  have authorised : ∀ turn ∈ verbs.map (HttpTransport.loopback, ·),
      turn.1.Authorised .guarded := by
    simpa [verbs] using HttpTransport.authorised_loopback
  obtain ⟨refused, stored, next, accepted⟩ :=
    Ledger.put_of_large_name large {} Agent.Uuid.text (by decide : "westus" ≠ "")
  obtain ⟨ledger, kept, -⟩ := tells_run Agent.Uuid.text 0 authorised represents_empty
  have answers : ran.1 = [.error Link.refused] := by
    show (Client.runAll _ _).1 = _
    generalize (Client.runAll _ _).1 = answers at kept
    obtain ⟨_, -, _, rfl, ended⟩ := kept.cons_cases
    cases ended
    rw [Ledger.perform_put, refused]
    rfl
  refine ⟨answers, fun others last told alike => ?_⟩
  rw [answers] at alike
  obtain ⟨_, -, _, rfl, -⟩ := told.cons_cases
  rw [Ledger.perform_put, accepted] at alike
  obtain _ | ⟨first, -⟩ := alike
  cases first

/-- An envelope that is too large is refused, although nothing else is wrong with it. -/
theorem Client.run_of_large_envelope :
    let long := String.ofList (List.replicate 2097153 'a')
    let verbs := [Verb.put "westus" "ip1" (some { name := some long, properties := some {} })]
    let ran := Client.runAll
      (Service.runs .guarded Agent.Uuid.text 0 (verbs.map (HttpTransport.loopback, ·))) {}
    ran.1 = [.error (.http 413 "Failed to buffer the request body: length limit exceeded")] ∧
      ∀ answers last, Ledger.Tells .unlimited Agent.Uuid.text verbs {} answers last →
        ¬ List.Forall₂ SameButHolder ran.1 answers :=
  Client.run_of_large_name (Nat.lt_of_lt_of_eq (by decide) (Json.utf8ByteSize_replicate 2097153).symm)

end PublicIp
