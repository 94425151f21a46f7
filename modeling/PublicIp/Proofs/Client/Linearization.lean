import PublicIp.Proofs.Client.Interleaving
import PublicIp.Proofs.Client.Refinement
import PublicIp.Proofs.Limits

/-!
# Side by side as one by one

Clients that take turns at an agent get the answers that they would get if each operation were run as a
whole in the turn in which it is done, and leave the same registry: `World.run_linearized`. Only a
deletion takes more than one turn. By the last one others may have stored the record again or deleted
it, and then the deletion still does what it would do from the start, unless the limit on the size of
an envelope makes a difference (`World.Spared`).
-/

namespace PublicIp

open Agent (Key Service)

/-- The connections of clients to a service. -/
def Agent.Service.links {ι : Type} (service : Service) (supply : Nat → String) (now : Nat)
    (transports : ι → HttpTransport) (client : ι) : Transport Service.State :=
  (transports client).toTransport (service.channel supply now)

namespace World

/-- Whether the limit of the agent makes no difference to a deletion that a client goes on with: the
envelope that it sends next is too large exactly if it would send one by now that is too large. -/
def Spared {ι σ : Type} (transports : ι → Transport σ) (world : World ι σ) (client : ι) : Prop :=
  ∀ location name request next,
    (world.sessions client).pending = some (.delete location name, .invoke request next) →
      (∀ after, (Client.get location name).outcome (transports client) .unlimited world.state =
        (.ok [], after) → request.Fits) ∧
      ∀ found others after,
        (Client.get location name).outcome (transports client) .unlimited world.state =
            (.ok (found :: others), after) →
          (request.Fits ↔ (Request.mk .delete [found.message location]).Fits)

/-- Whether an operation is a deletion with an answer that it may get once it has found a record: it
succeeds, or it has lost a race, or it could not be sent. -/
def Raced (verb : Verb) (answer : Except ApiError Reply) : Prop :=
  ∃ location name, verb = .delete location name ∧ (answer = .ok .deleted ∨
    answer = .error (.notFound ("public IP address [" ++ name ++ "] not found")) ∨
    answer = .error Link.refused)

/-- What clients have done side by side is what they would have done one by one, in the order of their
last calls, up to which of several holders of an address a rejection names. -/
structure Linearized {ι : Type} [DecidableEq ι] (service : Service) (supply : Nat → String)
    (now : Nat) (transports : ι → HttpTransport) (programs : ι → List Verb)
    (world : World ι Service.State) : Prop where
  /-- Every client has done what it was given, up to what remains. -/
  program : ∀ client, programs client =
    (world.done.filter (·.client = client)).map Done.verb ++ (world.sessions client).remaining
  /-- One by one they get the same answers, in whatever order the agent meets its entries then. -/
  answers : ∀ scan, List.Forall₂ SameButHolder (world.done.map Done.answer)
    (Client.runAll ((service.scanning scan).runs supply now
      (world.done.map fun done => (transports done.client, done.verb))) {}).1
  registry : ∀ scan, world.state.registry =
    (Client.runAll ((service.scanning scan).runs supply now
      (world.done.map fun done => (transports done.client, done.verb))) {}).2.registry
  /-- A rejection names a holder that there is where it stands in that order. -/
  named : ∃ ledger, Ledger.Tells .http supply (world.done.map Done.verb) {}
    (world.done.map Done.answer) ledger
  raced : ∀ done ∈ world.done, done.resumed = true → Raced done.verb done.answer
  /-- There is one text for a deletion that finds nothing, first or last. -/
  notFound : ∀ done ∈ world.done, ∀ location name text, done.verb = .delete location name →
    done.answer = .error (.notFound text) →
      text = "public IP address [" ++ name ++ "] not found"
  /-- One deletion succeeds for each creation of a record, if it is gone. -/
  balance : ∀ key, world.done.countP (fun done => Ledger.creates key done.answer) =
    world.done.countP (fun done => Ledger.deletes key done.verb done.answer) +
      (world.state.registry.find? key).isSome.toNat

/-- What a client has found that goes on with a deletion: a record that stood there after some of the
operations that were done. -/
structure Looked (supply : Nat → String) (done : List Verb) (key : Key) (shown : Record) : Prop where
  located : key.location ≠ ""
  named : key.name ≠ ""
  name : shown.name = some key.name
  fits : (Request.mk .get [(Record.named key.name).message key.location]).Fits
  seen : ∃ early answers ledger, early <+: done ∧
    Ledger.Tells .http supply early {} answers ledger ∧ ledger.records.find? key = some shown

theorem Looked.later {supply : Nat → String} {done : List Verb} {key : Key} {shown : Record}
    (looked : Looked supply done key shown) (more : List Verb) :
    Looked supply (done ++ more) key shown := by
  obtain ⟨early, answers, ledger, before, held⟩ := looked.seen
  exact { looked with
    seen := ⟨early, answers, ledger, before.trans (List.prefix_append done more), held⟩ }

/-- How clients stand that are linearized so far, with the ledger of what they have done. -/
structure Linear {ι : Type} [DecidableEq ι] (supply : Nat → String) (programs : ι → List Verb)
    (world : World ι Service.State) (ledger : Ledger) : Prop where
  program : ∀ client, programs client =
    (world.done.filter (·.client = client)).map Done.verb ++ (world.sessions client).remaining
  told : Ledger.Tells .http supply (world.done.map Done.verb) {} (world.done.map Done.answer) ledger
  represents : Represents world.state ledger
  modest : ledger.Modest
  pending : ∀ client verb rest, (world.sessions client).pending = some (verb, rest) →
    ∃ key shown, Looked supply (world.done.map Done.verb) key shown ∧
      verb = .delete key.location key.name ∧ rest = Client.removing key.location shown
  raced : ∀ done ∈ world.done, done.resumed = true → Raced done.verb done.answer
  performed : ∀ done ∈ world.done, ∃ (before : Ledger) (order : List Record),
    done.answer = (before.perform .http supply order done.verb).1

section Turn

variable {ι : Type} [DecidableEq ι] {service : Service} {supply : Nat → String} {now : Nat}
  {transports : ι → HttpTransport} {programs : ι → List Verb} {world : World ι Service.State}
  {ledger : Ledger}

theorem linear_start (programs : ι → List Verb) : Linear supply programs (start programs {}) {} where
  program client := by simp [start, Session.remaining]
  told := .nil {}
  represents := represents_empty
  modest := Ledger.modest_empty
  pending client verb rest held := by simp [start] at held
  raced done mem := absurd mem (by simp [start])
  performed done mem := absurd mem (by simp [start])

theorem program_of_done {client : ι} {verb : Verb} {rest : Dialogue Reply} {todo : List Verb}
    {session : Session} (next : session.next? = some (verb, rest, todo))
    (program : programs client =
      (world.done.filter (·.client = client)).map Done.verb ++ session.remaining)
    (resumed : Bool) (answer : Except ApiError Reply) :
    programs client =
      ((world.done ++ [Done.mk client verb resumed answer]).filter (·.client = client)).map
        Done.verb ++ Session.remaining { todo } := by
  rw [program, Session.remaining_of_next next]
  simp [Session.remaining]

theorem Linear.finish (linear : Linear supply programs world ledger)
    (short : ∀ n, (supply n).utf8ByteSize ≤ Ledger.idSize)
    (transports : ι → Transport Service.State) {client : ι} {verb : Verb} {rest : Dialogue Reply}
    {todo : List Verb} {answer : Except ApiError Reply} {state : Service.State}
    (next : (world.sessions client).next? = some (verb, rest, todo))
    (ended : rest.advance (transports client) .unlimited world.state = (.done answer, state))
    {order : List Record} (met : order.Perm ledger.records.values)
    (matched : Matches (answer, state) (ledger.perform .http supply order verb))
    (raced : (world.sessions client).pending.isSome = true → Raced verb answer) :
    Linear supply programs (world.turn transports client)
      (ledger.perform .http supply order verb).2 := by
  rw [turn_of_done transports next ended]
  constructor
  case program =>
    intro other
    by_cases same : other = client
    · subst same
      simp only [Function.update_self]
      exact program_of_done next (linear.program other) _ _
    · simp only [Function.update_of_ne same, List.filter_append, List.map_append]
      rw [linear.program other]
      simp [Ne.symm same]
  case told =>
    have told := linear.told.concat met verb
    rw [← matched.answer] at told
    simpa using told
  case represents => exact matched.represents
  case modest => exact Ledger.modest_perform order linear.modest short verb
  case pending =>
    intro other verb' rest' held
    by_cases same : other = client
    · subst same
      simp at held
    · simp only [Function.update_of_ne same] at held
      obtain ⟨key, shown, looked, at_key, left⟩ := linear.pending other verb' rest' held
      rw [List.map_append]
      exact ⟨key, shown, looked.later _, at_key, left⟩
  case raced =>
    intro done mem resumed
    rcases List.mem_append.1 mem with mem | mem
    · exact linear.raced done mem resumed
    · obtain rfl := List.mem_singleton.1 mem
      exact raced resumed
  case performed =>
    intro done mem
    rcases List.mem_append.1 mem with mem | mem
    · exact linear.performed done mem
    · obtain rfl := List.mem_singleton.1 mem
      exact ⟨ledger, order, matched.answer⟩

theorem Linear.found (linear : Linear supply programs world ledger)
    (transports : ι → Transport Service.State) {client : ι} {verb : Verb} {rest : Dialogue Reply}
    {todo : List Verb} {key : Key} {shown : Record} {state : Service.State}
    (next : (world.sessions client).next? = some (verb, rest, todo))
    (found : rest.advance (transports client) .unlimited world.state =
      (Client.removing key.location shown, state))
    (represents : Represents state ledger)
    (looked : Looked supply (world.done.map Done.verb) key shown)
    (delete : verb = .delete key.location key.name) :
    Linear supply programs (world.turn transports client) ledger := by
  rw [turn_of_removing transports next found]
  constructor
  case program =>
    intro other
    by_cases same : other = client
    · subst same
      simp only [Function.update_self]
      rw [linear.program other, Session.remaining_of_next next]
      rfl
    · simp only [Function.update_of_ne same]
      exact linear.program other
  case told => exact linear.told
  case represents => exact represents
  case modest => exact linear.modest
  case pending =>
    intro other verb' rest' held
    by_cases same : other = client
    · subst same
      simp only [Function.update_self, Option.some.injEq, Prod.mk.injEq] at held
      exact ⟨key, shown, looked, held.1 ▸ delete, held.2.symm⟩
    · simp only [Function.update_of_ne same] at held
      exact linear.pending other verb' rest' held
  case raced => exact linear.raced
  case performed => exact linear.performed

theorem matches_removing {transport : HttpTransport} (authorised : transport.Authorised service)
    (supply : Nat → String) (now : Nat) {state : Service.State} (here : Represents state ledger)
    {key : Key} {shown : Record} (named : shown.name = some key.name) :
    Matches
      (readOff (fun _ => .ok Reply.deleted)
        ((transport.toTransport (service.channel supply now)).invoke .unlimited
          ⟨.delete, [shown.message key.location]⟩ state))
      ((ledger.remove .http key shown).1.map fun _ => .deleted, (ledger.remove .http key shown).2) := by
  have removed := matches_remove authorised supply now here named
  refine ⟨?_, removed.represents⟩
  rw [← removed.answer]
  unfold readOff
  simp only
  cases ((transport.toTransport (service.channel supply now)).invoke .unlimited
    ⟨.delete, [shown.message key.location]⟩ state).1 <;> rfl

section Kinds

variable (linear : Linear supply programs world ledger)
  (short : ∀ n, (supply n).utf8ByteSize ≤ Ledger.idSize) {client : ι}
  (authorised : (transports client).Authorised service)

include linear short authorised

/-- The last turn of a deletion does what the whole of it would do by now. -/
theorem Linear.turn_of_pending (spared : Spared (service.links supply now transports) world client)
    {verb : Verb} {rest : Dialogue Reply} {todo : List Verb}
    (next : (world.sessions client).next? = some (verb, rest, todo))
    (held : (world.sessions client).pending = some (verb, rest)) :
    ∃ after, Linear supply programs (world.turn (service.links supply now transports) client)
      after := by
  obtain ⟨key, shown, looked, rfl, rfl⟩ := linear.pending client verb rest held
  obtain ⟨gone, stood⟩ := spared key.location key.name _ _ held
  have got := matches_get authorised supply now linear.represents key.location key.name
  have fits : ledger.records.find? key = none →
      (Request.mk .delete [shown.message key.location]).Fits := by
    intro absent
    rw [Ledger.get_of_absent looked.located looked.named looked.fits absent] at got
    exact gone _ (Prod.ext got.answer rfl)
  have alike : ∀ record, ledger.records.find? key = some record →
      ((Request.mk .delete [shown.message key.location]).Fits ↔
        (Request.mk .delete [record.message key.location]).Fits) := by
    intro record present
    rw [Ledger.get_of_present linear.modest looked.located looked.named looked.fits present] at got
    exact stood record [] _ (Prod.ext got.answer rfl)
  have same := Ledger.remove_eq_delete linear.modest looked.located looked.named looked.fits fits
    alike
  have ended := advance_removing (service.links supply now transports client) .unlimited key.location
    shown world.state
  have matched : Matches (readOff (fun _ => .ok Reply.deleted)
      ((service.links supply now transports client).invoke .unlimited
        ⟨.delete, [shown.message key.location]⟩ world.state)) _ :=
    matches_removing authorised supply now linear.represents looked.name
  generalize readOff _ _ = ran at ended matched
  have raced : Raced (.delete key.location key.name) ran.1 := by
    refine ⟨key.location, key.name, rfl, ?_⟩
    rw [matched.answer]
    cases present : ledger.records.find? key with
    | none =>
      rw [Ledger.remove_of_absent present looked.fits (fits present)]
      exact .inr (.inl rfl)
    | some record =>
      by_cases small : (Request.mk .delete [shown.message key.location]).Fits
      · rw [Ledger.remove_of_present present small]
        exact .inl rfl
      · rw [Ledger.remove_of_large present small]
        exact .inr (.inr rfl)
  rw [same] at matched
  exact ⟨_, linear.finish short _ next ended (.refl ledger.records.values) matched fun _ => raced⟩

/-- The first turn of an operation is the whole of it, or a deletion has found a record in it. -/
theorem Linear.turn_of_fresh {verb : Verb} {todo : List Verb}
    (next : (world.sessions client).next? = some (verb, verb.dialogue, todo))
    (fresh : (world.sessions client).pending = none) :
    ∃ after, Linear supply programs (world.turn (service.links supply now transports) client)
      after := by
  obtain ⟨order, met, scanned⟩ := linear.represents.exists_order service.scan
  have whole := matches_verb authorised supply now linear.represents met scanned verb
  have unraced (answer : Except ApiError Reply) :
      (world.sessions client).pending.isSome = true → Raced verb answer := by
    rw [fresh]
    exact nofun
  by_cases other : ∀ location name, verb ≠ .delete location name
  · exact ⟨_, linear.finish short _ next ((Verb.single _ other).advance _ _ _) met whole (unraced _)⟩
  · obtain ⟨location, name, rfl⟩ : ∃ location name, verb = .delete location name := by
      simpa using other
    rcases advance_delete_cases (service.links supply now transports client) .unlimited location name
      world.state with ended | ⟨current, others, state, given, found, ended⟩
    · exact ⟨_, linear.finish short _ next ended met whole (unraced _)⟩
    · have got : Matches ((Client.get location name).outcome
          (service.links supply now transports client) .unlimited world.state) _ :=
        matches_get authorised supply now linear.represents location name
      rw [found] at got
      obtain ⟨answer, represents⟩ := got
      cases told : ledger.get .http location name with
      | mk result after =>
        rw [told] at answer represents
        obtain rfl : .ok (current :: others) = result := answer
        obtain ⟨located, -, rfl, carried⟩ := Ledger.get_eq_ok told
        have held := Ledger.find?_of_got given told List.mem_cons_self
        have stands := linear.represents.sound _ current held
        have looked : Looked supply (world.done.map Done.verb) ⟨location, name⟩ current :=
          ⟨located, given, stands.name, (Link.carries_http _).1 carried, _, _, _, List.prefix_rfl,
            linear.told, held⟩
        exact ⟨_, linear.found _ next ended represents looked rfl⟩

end Kinds

/-- Any turn keeps clients linearized. -/
theorem Linear.turn (linear : Linear supply programs world ledger)
    (short : ∀ n, (supply n).utf8ByteSize ≤ Ledger.idSize) {client : ι}
    (authorised : (transports client).Authorised service)
    (spared : Spared (service.links supply now transports) world client) :
    ∃ after, Linear supply programs (world.turn (service.links supply now transports) client)
      after := by
  cases next : (world.sessions client).next? with
  | none =>
    rw [turn_of_idle _ next]
    exact ⟨ledger, linear⟩
  | some taken =>
    obtain ⟨verb, rest, todo⟩ := taken
    rcases Session.next_cases next with held | ⟨fresh, rfl⟩
    · exact linear.turn_of_pending short authorised spared next held
    · exact linear.turn_of_fresh short authorised next fresh

theorem Linear.run (linear : Linear supply programs world ledger)
    (short : ∀ n, (supply n).utf8ByteSize ≤ Ledger.idSize)
    (authorised : ∀ client, (transports client).Authorised service) (schedule : List ι)
    (spared : ∀ early client late, schedule = early ++ client :: late → ∀ reached,
      Linear supply programs (world.run (service.links supply now transports) early) reached →
        Spared (service.links supply now transports)
          (world.run (service.links supply now transports) early) client) :
    ∃ after, Linear supply programs (world.run (service.links supply now transports) schedule)
      after := by
  induction schedule generalizing world ledger with
  | nil => exact ⟨ledger, linear⟩
  | cons client rest ih =>
    obtain ⟨after, turned⟩ :=
      linear.turn short (authorised client) (spared [] client rest rfl ledger linear)
    exact ih turned fun early other late split =>
      spared (client :: early) other late (congrArg (client :: ·) split)

/-- What the invariant says about the answers and the registry. -/
theorem Linear.linearized (linear : Linear supply programs world ledger)
    (short : ∀ n, (supply n).utf8ByteSize ≤ Ledger.idSize)
    (authorised : ∀ client, (transports client).Authorised service) (now : Nat) :
    Linearized service supply now transports programs world := by
  have all : ∀ turn ∈ world.done.map fun done => (transports done.client, done.verb),
      turn.1.Authorised service := by
    intro turn mem
    obtain ⟨done, -, rfl⟩ := List.mem_map.1 mem
    exact authorised done.client
  have verbs : (world.done.map fun done => (transports done.client, done.verb)).map Prod.snd =
      world.done.map Done.verb := by
    rw [List.map_map]
    rfl
  have alone (scan : Service.Scan) :
      let ran := Client.runAll ((service.scanning scan).runs supply now
        (world.done.map fun done => (transports done.client, done.verb))) {}
      List.Forall₂ SameButHolder (world.done.map Done.answer) ran.1 ∧
        world.state.registry = ran.2.registry := by
    obtain ⟨last, told, left⟩ :=
      tells_run supply now (fun turn mem => (all turn mem).scanning scan) represents_empty
    rw [verbs] at told
    obtain ⟨alike, rfl⟩ := linear.told.alike told Ledger.sound_empty Ledger.terse_empty
    exact ⟨alike, linear.represents.registry.trans left.registry.symm⟩
  have balance (key : Key) := linear.told.balance short Ledger.modest_empty key
  simp only [List.zip_map', List.countP_map] at balance
  constructor
  case program => exact linear.program
  case answers => exact fun scan => (alone scan).1
  case registry => exact fun scan => (alone scan).2
  case named => exact ⟨ledger, linear.told⟩
  case raced => exact linear.raced
  case notFound =>
    intro done mem location name text delete answer
    obtain ⟨before, order, performed⟩ := linear.performed done mem
    rw [answer, delete] at performed
    have told : ((before.delete .http location name).1.map fun _ => Reply.deleted) =
        .error (.notFound text) := performed.symm
    cases deleted : (before.delete .http location name).1 with
    | error error =>
      rw [deleted] at told
      have same : error = .notFound text := Except.error.inj told
      exact Ledger.notFound_delete (same ▸ deleted)
    | ok value =>
      rw [deleted] at told
      cases told
  case balance =>
    intro key
    rw [linear.represents.registry, Ledger.find?_registry, Option.isSome_map]
    exact balance key

theorem Linear.small (linear : Linear supply programs world ledger)
    (small : ∀ client, ∀ verb ∈ programs client, Ledger.Small verb) :
    ∀ verb ∈ world.done.map Done.verb, Ledger.Small verb := by
  intro verb mem
  obtain ⟨done, among, rfl⟩ := List.mem_map.1 mem
  have own : done ∈ world.done.filter (·.client = done.client) := by simp [among]
  apply small done.client
  rw [linear.program done.client]
  exact List.mem_append_left _ (List.mem_map_of_mem own)

/-- The limit does not come in the way of deleting small records. -/
theorem Linear.spared (linear : Linear supply programs world ledger)
    (short : ∀ n, (supply n).utf8ByteSize ≤ Ledger.idSize) {client : ι}
    (authorised : (transports client).Authorised service)
    (small : ∀ client, ∀ verb ∈ programs client, Ledger.Small verb) :
    Spared (service.links supply now transports) world client := by
  intro location name request next held
  obtain ⟨key, shown, looked, delete, sent⟩ := linear.pending client _ _ held
  obtain ⟨rfl, rfl⟩ := Verb.delete.inj delete
  obtain ⟨rfl, -⟩ := Dialogue.invoke.inj sent
  have all := linear.small small
  have fits : (Request.mk .delete [shown.message key.location]).Fits := by
    obtain ⟨early, answers, middle, before, told, stood⟩ := looked.seen
    have roomy := told.roomy short (fun verb mem => all verb (before.subset mem))
      Ledger.modest_empty Ledger.roomy_empty
    exact roomy key shown stood
  constructor
  · intro after got
    exact fits
  · intro found others after got
    have roomy := linear.told.roomy short all Ledger.modest_empty Ledger.roomy_empty
    have matched : Matches ((Client.get key.location key.name).outcome
        (service.links supply now transports client) .unlimited world.state) _ :=
      matches_get authorised supply now linear.represents key.location key.name
    rw [got] at matched
    have told : ledger.get .http key.location key.name =
        (.ok (found :: others), (ledger.get .http key.location key.name).2) :=
      Prod.ext matched.answer.symm rfl
    have held := Ledger.find?_of_got looked.named told List.mem_cons_self
    exact iff_of_true fits (roomy key found held)

end Turn

/-- Clients that put nothing but small records are spared the limit, in whatever order they take
turns. -/
theorem spared_of_small {ι : Type} [DecidableEq ι] {service : Service} {supply : Nat → String}
    {transports : ι → HttpTransport} (authorised : ∀ client, (transports client).Authorised service)
    (short : ∀ n, (supply n).utf8ByteSize ≤ Ledger.idSize) (now : Nat) {programs : ι → List Verb}
    (small : ∀ client, ∀ verb ∈ programs client, Ledger.Small verb) (schedule : List ι) (client : ι) :
    Spared (service.links supply now transports)
      ((start programs {}).run (service.links supply now transports) schedule) client := by
  obtain ⟨after, linear⟩ := (linear_start programs).run short authorised schedule
    fun _ client _ _ _ linear => linear.spared short (authorised client) small
  exact linear.spared short (authorised client) small

/-- However clients take turns at a fresh agent, they are linearized. -/
theorem run_linearized {ι : Type} [DecidableEq ι] {service : Service} {supply : Nat → String}
    {transports : ι → HttpTransport} (authorised : ∀ client, (transports client).Authorised service)
    (short : ∀ n, (supply n).utf8ByteSize ≤ Ledger.idSize) (now : Nat) (programs : ι → List Verb)
    (schedule : List ι)
    (spared : ∀ early client late, schedule = early ++ client :: late →
      Spared (service.links supply now transports)
        ((start programs {}).run (service.links supply now transports) early) client) :
    Linearized service supply now transports programs
      ((start programs {}).run (service.links supply now transports) schedule) := by
  obtain ⟨after, linear⟩ := (linear_start programs).run short authorised schedule
    fun early client late split _ _ => spared early client late split
  exact linear.linearized short authorised now

/-- One client creates an address and deletes it, and another one deletes it too. -/
def race : Bool → List Verb
  | false => [
    .put "westus" "ip1" (some { name := some "ip1", properties := some {} }),
    .delete "westus" "ip1"]
  | true => [.delete "westus" "ip1"]

/-- Both clients find the address before either of them deletes it. -/
theorem run_linearized_race :
    (Bool → HttpTransport.loopback.Authorised .guarded) ∧
      (∀ n, (Agent.Uuid.text n).utf8ByteSize ≤ Ledger.idSize) ∧
      Linearized .guarded Agent.Uuid.text 0 (fun _ => HttpTransport.loopback) race
        ((start race {}).run
          (Service.links .guarded Agent.Uuid.text 0 fun _ => HttpTransport.loopback)
          [false, true, false, false, true]) := by
  have authorised (_ : Bool) := HttpTransport.authorised_loopback
  have short (n : Nat) : (Agent.Uuid.text n).utf8ByteSize ≤ Ledger.idSize :=
    Nat.le_of_eq (Agent.Uuid.utf8ByteSize_text n)
  have small : ∀ client, ∀ verb ∈ race client, Ledger.Small verb := by
    have put : Ledger.Small (.put "westus" "ip1"
        (some { name := some "ip1", properties := some {} })) := by
      unfold Ledger.Small
      decide +kernel
    intro client verb mem
    cases client with
    | false =>
      rcases List.mem_pair.1 mem with rfl | rfl
      · exact put
      · trivial
    | true =>
      obtain rfl := List.mem_singleton.1 mem
      trivial
  exact ⟨authorised, short, run_linearized authorised short 0 race _ fun early client _ _ =>
    spared_of_small authorised short 0 small early client⟩

/-- One client deletes an address, and another one stores it twice. -/
def overtaking (first second : Record) : Bool → List Verb
  | false => [.delete "westus" "ip1"]
  | true => [.put "westus" "ip1" (some first), .put "westus" "ip1" (some second)]

section Overtaking

variable {service : Service} {supply : Nat → String} {now : Nat} {transport : HttpTransport}
  {first second found stored : Record} {middle last after : Ledger}

theorem advance_put (authorised : transport.Authorised service) (supply : Nat → String) (now : Nat)
    {state : Service.State} {ledger : Ledger} (here : Represents state ledger)
    (location name : String) (record : Option Record) :
    let told := ledger.put .http supply location record
    ∃ after, (Verb.put location name record).dialogue.advance
      (transport.toTransport (service.channel supply now)) .unlimited state =
        (.done (told.1.map .record), after) ∧ Represents after told.2 := by
  intro told
  obtain ⟨order, met, scanned⟩ := here.exists_order service.scan
  have whole := matches_verb authorised supply now here met scanned (.put location name record)
  rw [Ledger.perform_put] at whole
  have single := (Verb.single (.put location name record) fun _ _ => nofun).advance
    (transport.toTransport (service.channel supply now)) .unlimited state
  rw [whole.answer] at single
  exact ⟨_, single, whole.represents⟩

/-- What the clients do side by side, if the deletion is refused at last. -/
theorem done_overtaking (authorised : transport.Authorised service)
    (creates : Ledger.put {} .http supply "westus" (some first) = (.ok found, middle))
    (looks : middle.get .http "westus" "ip1" = (.ok [found], middle))
    (name : found.name = some "ip1")
    (updates : middle.put .http supply "westus" (some second) = (.ok stored, last))
    (refused : last.remove .http ⟨"westus", "ip1"⟩ found = (.error Link.refused, last)) :
    ((start (overtaking first second) {}).run (service.links supply now fun _ => transport)
      [true, false, true, false]).done = [
        ⟨true, .put "westus" "ip1" (some first), false, .ok (.record found)⟩,
        ⟨true, .put "westus" "ip1" (some second), false, .ok (.record stored)⟩,
        ⟨false, .delete "westus" "ip1", true, .error Link.refused⟩] := by
  let links := service.links supply now fun _ : Bool => transport
  let sessions := (start (overtaking first second) ({} : Service.State)).sessions
  -- The first record is created.
  obtain ⟨one, created, here⟩ := advance_put authorised supply now
    represents_empty "westus" "ip1" (some first)
  rw [creates] at created here
  let create : Done Bool :=
    ⟨true, .put "westus" "ip1" (some first), false, .ok (.record found)⟩
  let todo : List Verb := [.put "westus" "ip1" (some second)]
  let worldOne : World Bool Service.State := ⟨Function.update sessions true { todo }, [create], one⟩
  have turnOne : (start (overtaking first second) {}).turn links true = worldOne :=
    turn_of_done links rfl created
  -- The other client finds it.
  have looked := matches_get authorised supply now here "westus" "ip1"
  rw [looks] at looked
  have fit := (Ledger.defect?_eq_none_iff "westus" found).2 ⟨by decide, "ip1", name⟩
  have seen := advance_delete (transport.toTransport (service.channel supply now)) .unlimited
    "westus" "ip1" one
  rw [if_neg (by decide)] at seen
  generalize (Client.get "westus" "ip1").outcome _ _ _ = ran at looked seen
  obtain ⟨answer, two⟩ := ran
  obtain rfl : answer = .ok [found] := looked.answer
  simp only [fit] at seen
  let removing : Session := { pending := some (.delete "westus" "ip1", Client.removing "westus" found) }
  let worldTwo : World Bool Service.State :=
    ⟨Function.update worldOne.sessions false removing, [create], two⟩
  have nextTwo : (worldOne.sessions false).next? = some (.delete "westus" "ip1", _, []) := rfl
  have turnTwo : worldOne.turn links false = worldTwo := turn_of_removing links nextTwo seen
  -- The second record takes its place.
  obtain ⟨three, updated, there⟩ := advance_put authorised supply now
    looked.represents "westus" "ip1" (some second)
  rw [updates] at updated there
  let update : Done Bool := ⟨true, .put "westus" "ip1" (some second), false, .ok (.record stored)⟩
  let worldThree : World Bool Service.State :=
    ⟨Function.update worldTwo.sessions true {}, [create, update], three⟩
  have turnThree : worldTwo.turn links true = worldThree := turn_of_done links rfl updated
  -- The deletion goes on with the first one.
  have shown : found.name = some (Key.mk "westus" "ip1").name := name
  have removed := matches_removing authorised supply now there shown
  rw [refused] at removed
  have ended := advance_removing (transport.toTransport (service.channel supply now)) .unlimited
    "westus" found three
  have nextFour : (worldThree.sessions false).next? =
    some (.delete "westus" "ip1", Client.removing "westus" found, []) := rfl
  have turnFour := turn_of_done links nextFour ended
  have run : (start (overtaking first second) {}).run links [true, false, true, false] =
      worldThree.turn links false := by
    rw [← turnThree, ← turnTwo, ← turnOne]
    rfl
  rw [run, turnFour]
  show [create, update, ⟨false, .delete "westus" "ip1", true, (readOff _ _).1⟩] = _
  rw [removed.answer]
  rfl

theorem answers_ne_overtaking (authorised : transport.Authorised service)
    (creates : Ledger.put {} .http supply "westus" (some first) = (.ok found, middle))
    (looks : middle.get .http "westus" "ip1" = (.ok [found], middle))
    (name : found.name = some "ip1")
    (updates : middle.put .http supply "westus" (some second) = (.ok stored, last))
    (refused : last.remove .http ⟨"westus", "ip1"⟩ found = (.error Link.refused, last))
    (deletes : last.delete .http "westus" "ip1" = (.ok (), after)) :
    let world := (start (overtaking first second) {}).run
      (service.links supply now fun _ => transport) [true, false, true, false]
    ¬ List.Forall₂ SameButHolder (world.done.map Done.answer) (Client.runAll
      (service.runs supply now (world.done.map fun done => (transport, done.verb))) {}).1 := by
  intro world alike
  have done : world.done = _ := done_overtaking authorised creates looks name updates refused
  have all : ∀ turn ∈ world.done.map fun done => (transport, done.verb), turn.1.Authorised service := by
    intro turn mem
    obtain ⟨done, -, rfl⟩ := List.mem_map.1 mem
    exact authorised
  obtain ⟨final, told, -⟩ := tells_run supply now all represents_empty
  generalize (Client.runAll _ _).1 = answers at alike told
  rw [done] at alike told
  obtain ⟨_, -, _, rfl, created⟩ := told.cons_cases
  rw [Ledger.perform_put, creates] at created
  obtain ⟨_, -, _, rfl, updated⟩ := created.cons_cases
  rw [Ledger.perform_put, updates] at updated
  obtain ⟨_, -, _, rfl, -⟩ := updated.cons_cases
  rw [Ledger.perform_delete, deletes] at alike
  obtain _ | ⟨-, _ | ⟨-, _ | ⟨same, -⟩⟩⟩ := alike
  cases same

end Overtaking

/-- A record whose only property is an address. -/
def addressed (address : String) : Record :=
  { name := some "ip1", properties := some { ipAddress := some address } }

theorem size_addressed {address : String} (plain : ∀ c ∈ address.toList, Json.escaped c = [c]) :
    ((addressed address).message "westus").size = address.utf8ByteSize + 141 := by
  have size := size_of_ipAddress ((addressed "").message "westus") address
  have literal := Json.Tree.size_ofString_of_plain plain
  have none : (Json.Tree.ofString ((addressed "").message "westus").ipAddress).size = 2 := by
    decide +kernel
  have rest : ((addressed "").message "westus").size = 141 := by decide +kernel
  have same : (addressed address).message "westus" =
    ((addressed "").message "westus").addressed address := rfl
  rw [same]
  omega

/-- A record that can just be created, and not deleted. -/
theorem run_overtaking {address : String} (plain : ∀ c ∈ address.toList, Json.escaped c = [c])
    (size : address.utf8ByteSize = 2096950) :
    let world := (start (overtaking (addressed address) (addressed "")) {}).run
      (Service.links .guarded Agent.Uuid.text 0 fun _ => HttpTransport.loopback)
      [true, false, true, false]
    ¬ List.Forall₂ SameButHolder (world.done.map Done.answer)
      (Client.runAll (Service.runs .guarded Agent.Uuid.text 0
        (world.done.map fun done => (HttpTransport.loopback, done.verb))) {}).1 := by
  let key : Key := ⟨"westus", "ip1"⟩
  have located : key.location ≠ "" := by decide
  have named : key.name ≠ "" := by decide
  have looked : (Request.mk .get [(Record.named key.name).message key.location]).Fits := by
    decide +kernel
  have short (n : Nat) : (Agent.Uuid.text n).utf8ByteSize ≤ Ledger.idSize :=
    Nat.le_of_eq (Agent.Uuid.utf8ByteSize_text n)
  have post : (Json.Tree.ofString Operation.post.word).size = 6 := by decide +kernel
  have delete : (Json.Tree.ofString Operation.delete.word).size = 8 := by decide +kernel
  have large := size_addressed plain
  have fits : (Request.mk .post [(addressed address).message key.location]).Fits := by
    unfold Request.Fits Service.maxBodySize
    rw [size_request, post]
    show 6 + ((addressed address).message "westus").size + 41 ≤ _
    omega
  have small : Ledger.Small (.put key.location "ip1" (some (addressed ""))) := by
    unfold Ledger.Small
    decide +kernel
  have smallFits : (Request.mk .post [(addressed "").message key.location]).Fits :=
    Nat.le_of_add_right_le small
  -- The first record fits into the envelope of its creation, but not into that of its deletion.
  have creates := Ledger.put_of_fits Ledger.modest_empty short located named
    (Option.some_ne_none _) rfl fits
  have modest := Ledger.modest_store Ledger.modest_empty (short 0) fits
  have unfit : ¬ (Request.mk .delete [(Ledger.stored {} (Agent.Uuid.text 0) key
      (addressed address)).message key.location]).Fits := by
    have id : (Ledger.stored {} (Agent.Uuid.text 0) key (addressed address)).id =
      nonEmpty (Agent.Uuid.text 0) := rfl
    have own := size_of_id ((addressed address).message key.location) (Agent.Uuid.text 0)
    have none : (Json.Tree.ofString ((addressed address).message key.location).id).size = 2 := by
      show (Json.Tree.ofString "").size = 2
      decide +kernel
    have literal := Json.Tree.le_size_ofString (Agent.Uuid.text 0)
    have text := Agent.Uuid.utf8ByteSize_text 0
    unfold Request.Fits Service.maxBodySize
    rw [Ledger.message_stored, id, getD_nonEmpty, size_request, delete]
    have place : ((addressed address).message key.location).size =
      ((addressed address).message "westus").size := rfl
    omega
  have held := Ledger.find?_store {} (Agent.Uuid.text 0) key (addressed address)
  have name : (Ledger.stored {} (Agent.Uuid.text 0) key (addressed address)).name = some "ip1" := rfl
  have looks := Ledger.get_of_present modest located named looked held
  -- The second one takes its place, and could be deleted.
  let middle := Ledger.store {} (Agent.Uuid.text 0) key (addressed address)
  have updates := Ledger.put_of_fits modest short located named (Option.some_ne_none _) rfl smallFits
  have nextModest := Ledger.modest_store modest (short middle.drawn) smallFits
  have nextFits := Nat.le_trans
    (Ledger.size_delete_stored modest (short middle.drawn) key (addressed "")) small
  have nextHeld := middle.find?_store (Agent.Uuid.text middle.drawn) key (addressed "")
  have refused := Ledger.remove_of_large nextHeld unfit
  have deletes := Ledger.delete_of_present nextModest located named looked nextHeld nextFits
  exact answers_ne_overtaking HttpTransport.authorised_loopback creates looks name updates refused
    deletes

/-- A deletion that is overtaken is not linearized where the record that it found is too large. -/
theorem run_overtaking_of_large :
    let large := addressed (String.ofList (List.replicate 2096950 'a'))
    let world := (start (overtaking large (addressed "")) {}).run
      (Service.links .guarded Agent.Uuid.text 0 fun _ => HttpTransport.loopback)
      [true, false, true, false]
    ¬ List.Forall₂ SameButHolder (world.done.map Done.answer)
      (Client.runAll (Service.runs .guarded Agent.Uuid.text 0
        (world.done.map fun done => (HttpTransport.loopback, done.verb))) {}).1 :=
  run_overtaking (Json.plain_replicate 2096950) (Json.utf8ByteSize_replicate 2096950)

end World

end PublicIp
