import PublicIp.Client.Script
import PublicIp.Proofs.Client.Outcome
import PublicIp.Proofs.Client.Preflight

/-!
# HTTP as a script

A client over HTTP that meets known replies gets what it gets over a script with what these replies
say, up to the texts of two kinds of failures. `Http.Outcome.told` is what a reply says, and
`Http.Outcome.settled` the reply in which an exchange ends. The simulation says which scripts follow
from which outcomes (`HttpTransport.Follows`); a call keeps that, so a dialogue does, and a run.
-/

namespace PublicIp

open Json (Codec Tree)

/-- A failure without the text of a library. -/
def ApiError.coarse : ApiError → ApiError
  | .transport _ => .transport ""
  | .deserialization _ => .deserialization ""
  | error => error

/-- Whether two results are the same up to the texts of libraries. -/
inductive Alike {α : Type} : Except ApiError α → Except ApiError α → Prop
  | ok (value : α) : Alike (.ok value) (.ok value)
  | error {first second : ApiError} (same : first.coarse = second.coarse) :
      Alike (.error first) (.error second)

namespace Alike

@[refl] theorem refl {α : Type} (result : Except ApiError α) : Alike result result := by
  cases result with
  | ok value => exact .ok value
  | error _ => exact .error rfl

end Alike

namespace Json

/-- The tree of a text. It is broken if something follows in the text. -/
def Tree.ofText (text : String) : Tree :=
  match Tree.read (Json.tokens (Text.symbolsOfString text)) with
  | (tree, []) => tree
  | _ => .broken

theorem Tree.ofText_text {tree : Tree} (written : tree.Written) : Tree.ofText tree.text = tree := by
  unfold ofText
  rw [read_text tree written.whole written.legible]

theorem Codec.ofTree_broken {α : Type} {codec : Codec α} {fields : List Field}
    (message : codec.schema = .record fields) (value : α) : codec.ofTree .broken ≠ .ok value := by
  have refused : codec.schema.read depthLimit .broken = .error .malformed := by
    rw [message]
    rfl
  intro taken
  rw [ofTree, refused] at taken
  cases taken

/-- A text is decoded as its tree is, by a codec that takes no broken tree. -/
theorem Codec.alike_decodeString {α : Type} {codec : Codec α}
    (strict : ∀ value, codec.ofTree .broken ≠ .ok value) (text detail : String) :
    Alike ((codec.decodeString text).mapError fun _ => .deserialization detail)
      ((codec.ofTree (.ofText text)).mapError fun _ => .deserialization detail) := by
  unfold decodeString decode Tree.ofText
  rcases Tree.read (tokens (Text.symbolsOfString text)) with ⟨tree, _ | ⟨token, rest⟩⟩
  · cases found : codec.ofTree tree <;> simp [found, bind, Except.bind, pure, Except.pure] <;> rfl
  · -- What follows the tree is a fault, and so is the broken tree.
    cases broken : codec.ofTree .broken with
    | ok value => exact absurd broken (strict value)
    | error fault =>
      cases found : codec.ofTree tree <;>
        simp only [found, bind, Except.bind] <;> exact .error rfl

end Json

theorem Script.next_cons {α : Type} (reply : Codec α) (entry : Except ApiError Tree)
    (rest : Script) :
    next reply (entry :: rest) =
      (entry.bind fun tree =>
        (reply.ofTree tree).mapError fun _ => .deserialization "not the expected reply", rest) := by
  cases entry <;> rfl

namespace Http

/-- What a client is told by a complete reply: JSON to be read as the reply to its call, or a
failure. -/
def Response.told (response : Response) : Except ApiError Tree :=
  match String.fromUTF8? response.body with
  | none => .error (.transport "reply is not text")
  | some text =>
    let body := if response.status = 204 ∨ response.status = 304 then "" else text
    if isRedirect response.status then .error (.transport "redirected nowhere")
    else if 200 ≤ response.status ∧ response.status < 300 then .ok (.ofText body)
    else if response.status = 404 then .error (.notFound body)
    else .error (.http response.status body)

/-- What a client is told by what becomes of its call. -/
def Outcome.told : Outcome → Except ApiError Tree
  | .dropped | .cutShort _ => .error (.transport "no complete reply")
  | .silent => .error .deadlineExceeded
  | .reply response => response.told

/-- What a complete reply comes to in the end. One that only announces another reply comes to what
follows its head, and after the status 100 nothing can follow. Some replies have no body of their own,
and others are too large. -/
def Response.settled (response : Response) : Outcome :=
  if isInterim response.status then
    if response.status = 100 then .dropped
    else (Response.read? response.body.toList).elim .dropped .reply
  else if !isStatus response.status then .dropped
  else if isBodiless response.status then .reply { response with body := ByteArray.empty }
  else if response.body.size < replyLimit then .reply response
  else .dropped

/-- What becomes of a request in the end. A reply that has no body of its own is never cut short. -/
def Outcome.settled : Outcome → Outcome
  | .reply response => response.settled
  | .cutShort response => if isBodiless response.status then response.settled else .dropped
  | .dropped => .dropped
  | .silent => .silent

theorem Response.settled_eq (response : Response) :
    response.settled = response.final?.elim .dropped .reply := by
  unfold settled final?
  split
  · split <;> rfl
  · split
    · rfl
    · split
      · rfl
      · by_cases small : response.body.size < replyLimit
        · rw [if_pos small, if_neg (Nat.not_le.2 small)]
          rfl
        · rw [if_neg small, if_pos (Nat.le_of_not_lt small)]
          rfl

theorem Response.told_ofText (status : Nat) (text : String) :
    (Response.ofText status text).told =
      let body := if status = 204 ∨ status = 304 then "" else text
      if isRedirect status then .error (.transport "redirected nowhere")
      else if 200 ≤ status ∧ status < 300 then .ok (.ofText body)
      else if status = 404 then .error (.notFound body)
      else .error (.http status body) := by
  unfold told ofText
  rw [fromUTF8?_toUTF8]

theorem Response.Head.body?_of_bodiless {head : Head} {rest : List UInt8} {body : ByteArray}
    (bodiless : isBodiless head.status = true) (read : head.body? rest = some body) :
    body = ByteArray.empty := by
  have empty : ∀ content, head.unpacked? [] = some content → content = [] := by
    intro content unpacked
    unfold unpacked? at unpacked
    split at unpacked
    · cases unpacked
    · exact (Option.some.inj unpacked).symm
  simp only [body?, bodiless, if_true, Option.bind_eq_bind, Option.bind_eq_some_iff,
    Option.pure_def, Option.some.injEq] at read
  obtain ⟨framing, -, packed, rfl, read⟩ := read
  rw [if_neg (by decide), Option.bind_eq_some_iff] at read
  obtain ⟨content, unpacked, made⟩ := read
  obtain rfl := empty content unpacked
  split at made
  · exact (Option.some.inj made).symm
  · exact (Option.some.inj made).symm

theorem Response.read?_of_bodiless {bytes : List UInt8} {response : Response}
    (read : Response.read? bytes = some response) (bodiless : isBodiless response.status = true) :
    response.body = ByteArray.empty := by
  fun_induction Response.read? bytes with
  | case1 => cases read
  | case2 _ _ _ _ _ ih => exact ih read
  | case3 => cases read
  | case4 _ head rest _ _ _ =>
    obtain ⟨body, found, rfl⟩ := Option.map_eq_some_iff.1 read
    exact Response.Head.body?_of_bodiless bodiless found

theorem Response.final?_of_bodiless {first response : Response}
    (ended : first.final? = some response) (bodiless : isBodiless response.status = true) :
    response.body = ByteArray.empty := by
  unfold Response.final? at ended
  split at ended
  · split at ended
    · cases ended
    · exact Response.read?_of_bodiless ended bodiless
  · split at ended
    · cases ended
    · split at ended
      · cases ended
        rfl
      · next full =>
        split at ended
        · cases ended
        · cases ended
          exact absurd bodiless full

theorem Outcome.final?_of_bodiless {outcome : Outcome} {response : Response}
    (ended : outcome.final? = some response) (bodiless : isBodiless response.status = true) :
    response.body = ByteArray.empty := by
  cases outcome with
  | reply first => exact Response.final?_of_bodiless ended bodiless
  | dropped => cases ended
  | cutShort first =>
    exact Response.final?_of_bodiless (Option.ite_none_right_eq_some.1 ended).2 bodiless
  | silent => cases ended

/-- What the client makes of a complete reply is what it is told. -/
theorem Response.alike_content {response : Response}
    (empty : isBodiless response.status = true → response.body = ByteArray.empty) :
    Alike (response.content.map Tree.ofText) response.told := by
  unfold content told
  cases read : String.fromUTF8? response.body with
  | none =>
    cases isRedirect response.status with
    | true => exact .error rfl
    | false => exact .error rfl
  | some text =>
    have kept : (if response.status = 204 ∨ response.status = 304 then "" else text) = text := by
      split
      · next without =>
        have bare : response.body = "".toUTF8 := empty (by
          rcases without with same | same <;> rw [same] <;> decide)
        rw [bare, fromUTF8?_toUTF8] at read
        exact Option.some.inj read
      · rfl
    simp only [kept]
    cases isRedirect response.status with
    | true => exact .error rfl
    | false =>
      simp only [Bool.false_eq_true, if_false]
      split
      · exact .ok _
      · split
        · exact .error rfl
        · exact .error rfl

theorem Outcome.settled_eq {outcome : Outcome} (heard : outcome ≠ .silent) :
    outcome.settled = outcome.final?.elim .dropped .reply := by
  cases outcome with
  | reply first => exact first.settled_eq
  | dropped => rfl
  | cutShort first =>
    rw [settled, final?]
    split
    · exact first.settled_eq
    · rfl
  | silent => exact absurd rfl heard

theorem Outcome.content_eq {outcome : Outcome} (heard : outcome ≠ .silent) :
    outcome.content = outcome.final?.elim
      (.error (.transport "connection closed before a complete reply")) Response.content := by
  unfold content
  split
  · exact absurd rfl heard
  · next ended =>
    rw [ended]
    rfl
  · next ended =>
    rw [ended]
    rfl

theorem Outcome.alike_content (outcome : Outcome) :
    Alike (outcome.content.map Tree.ofText) outcome.settled.told := by
  by_cases heard : outcome = .silent
  · subst heard
    exact .error rfl
  · rw [content_eq heard, settled_eq heard]
    cases ended : outcome.final? with
    | none => exact .error rfl
    | some response => exact Response.alike_content (Outcome.final?_of_bodiless ended)

/-- Whether what becomes of a request says the same in the end. It does not if it only announces another
reply, if a body is too large, or if there is no text where there should be no body. -/
def Outcome.isPlain : Outcome → Bool
  | .dropped | .silent => true
  | .cutShort response => !isBodiless response.status
  | .reply response =>
    200 ≤ response.status && isStatus response.status && response.body.size < replyLimit
      && (!isBodiless response.status || (String.fromUTF8? response.body).isSome)

theorem Outcome.told_settled {outcome : Outcome} (plain : outcome.isPlain = true) :
    outcome.settled.told = outcome.told := by
  cases outcome with
  | dropped | silent => rfl
  | cutShort response =>
    have full : isBodiless response.status = false := by simpa [isPlain] using plain
    rw [settled, full]
    rfl
  | reply response =>
    simp only [isPlain, Bool.and_eq_true, decide_eq_true_eq] at plain
    obtain ⟨⟨⟨later, known⟩, small⟩, text⟩ := plain
    have interim : isInterim response.status = false := by
      simp only [isInterim, decide_eq_false_iff_not]
      omega
    simp only [settled, Response.settled, interim, known, small, Bool.not_true, Bool.false_eq_true,
      if_false, if_true]
    split
    · next bodiless =>
      have bare : response.status = 204 ∨ response.status = 304 := by
        simp only [isBodiless, decide_eq_true_eq] at bodiless
        omega
      obtain ⟨body, read⟩ : ∃ body, String.fromUTF8? response.body = some body := by
        rw [bodiless] at text
        exact Option.isSome_iff_exists.1 text
      have empty : String.fromUTF8? ByteArray.empty = some "" := fromUTF8?_toUTF8 ""
      simp only [told, Response.told, read, empty, bare, if_true]
    · rfl

end Http

/-- A call gets from a script what it gets from the reply. -/
theorem Script.alike_next {α : Type} {codec : Codec α}
    (strict : ∀ value, codec.ofTree .broken ≠ .ok value) (outcome : Http.Outcome) (rest : Script) :
    Alike
      (outcome.content.bind fun text =>
        (codec.decodeString text).mapError fun _ => .deserialization "not the expected reply")
      (next codec (outcome.settled.told :: rest)).1 := by
  have told := outcome.alike_content
  rw [next_cons]
  generalize outcome.settled.told = entry at told ⊢
  cases content : outcome.content with
  | error _ =>
    rw [content] at told
    obtain _ | same := told
    exact .error same
  | ok text =>
    rw [content] at told
    obtain _ | _ := told
    exact Codec.alike_decodeString strict text _

/-- A channel with given outcomes, as `Http.Channel.canned`, and a clock that goes on with the requests
that were sent. -/
def Http.Channel.paced (clock : Nat → Nat) :
    Http.Channel (List Http.Outcome × List Http.Request) where
  now state := clock state.2.length
  exchange := (canned 0).exchange

theorem Http.Channel.paced_const (now : Nat) : paced (fun _ => now) = canned now := rfl

namespace HttpTransport

/-- A call that a script answers if it is let through. Such calls are kept, the last one first. -/
def rehearse {α : Type} (transport : HttpTransport) (clock : Nat → Nat) (deadline : Deadline)
    (call : Call) (answer : Script → Except ApiError α × Script) (state : Script × List Call) :
    Except ApiError α × Script × List Call :=
  match transport.preflight deadline (clock state.2.length) call with
  | .error error => (.error error, state)
  | .ok () => ((answer state.1).1, (answer state.1).2, call :: state.2)

/-- The transport with a script, where each call is checked first. -/
def rehearsal (transport : HttpTransport) (clock : Nat → Nat) : Transport (Script × List Call) where
  invoke deadline request :=
    transport.rehearse clock deadline (.invoke request) (Script.transport.invoke deadline request)
  precheck deadline request :=
    transport.rehearse clock deadline (.precheck request)
      (Script.transport.precheck deadline request)

/-- Whether a script says what the outcomes that are left say, and the requests that were sent carry
the calls that were let through. -/
structure Follows (transport : HttpTransport) (base : String)
    (played : List Http.Outcome × List Http.Request) (told : Script × List Call) : Prop where
  script : told.1 = played.1.map (·.settled.told)
  sent : List.Forall₂ (fun request call => request.Carries transport base call) played.2 told.2

end HttpTransport

/-- Whether a call or an operation came to the same over two transports. -/
structure Simulated {α σ τ : Type} (related : σ → τ → Prop) (ran : Except ApiError α × σ)
    (told : Except ApiError α × τ) : Prop where
  result : Alike ran.1 told.1
  state : related ran.2 told.2

/-- Whether the calls of one transport come to the same as those of another one. -/
structure Transport.Simulates {σ τ : Type} (left : Transport σ) (right : Transport τ)
    (related : σ → τ → Prop) (deadline : Deadline) : Prop where
  invoke : ∀ request s t, related s t →
    Simulated related (left.invoke deadline request s) (right.invoke deadline request t)
  precheck : ∀ request s t, related s t →
    Simulated related (left.precheck deadline request s) (right.precheck deadline request t)

theorem Simulated.result_cases {α σ τ : Type} {related : σ → τ → Prop} {ran : Except ApiError α × σ}
    {told : Except ApiError α × τ} (simulated : Simulated related ran told) :
    (∃ first second s t, ran = (.error first, s) ∧ told = (.error second, t) ∧
      first.coarse = second.coarse ∧ related s t) ∨
    ∃ value s t, ran = (.ok value, s) ∧ told = (.ok value, t) ∧ related s t := by
  obtain ⟨result, s⟩ := ran
  obtain ⟨result', t⟩ := told
  obtain ⟨alike, there⟩ := simulated
  cases alike with
  | ok value => exact .inr ⟨value, s, t, rfl, rfl, there⟩
  | error same => exact .inl ⟨_, _, s, t, rfl, rfl, same, there⟩

theorem Transport.Simulates.outcome {α σ τ : Type} {left : Transport σ} {right : Transport τ}
    {related : σ → τ → Prop} {deadline : Deadline}
    (simulates : left.Simulates right related deadline) (dialogue : Dialogue α) {s : σ} {t : τ}
    (here : related s t) :
    Simulated related (dialogue.outcome left deadline s) (dialogue.outcome right deadline t) := by
  -- What a call leaves behind is related again, so the rest of the dialogue starts as the whole did.
  induction dialogue generalizing s t with
  | done result => exact ⟨.refl result, here⟩
  | note event _ ih => exact ih here
  | invoke request next ih =>
    rw [Dialogue.outcome_invoke, Dialogue.outcome_invoke]
    rcases (simulates.invoke request s t here).result_cases with
      ⟨first, second, s, t, ran, told, same, there⟩ | ⟨response, s, t, ran, told, there⟩
    · rw [ran, told]
      exact ⟨.error same, there⟩
    · rw [ran, told]
      exact ih response there
  | precheck request next ih =>
    rw [Dialogue.outcome_precheck, Dialogue.outcome_precheck]
    rcases (simulates.precheck request s t here).result_cases with
      ⟨first, second, s, t, ran, told, same, there⟩ | ⟨response, s, t, ran, told, there⟩
    · rw [ran, told]
      exact ⟨.error same, there⟩
    · rw [ran, told]
      exact ih response there

namespace HttpTransport

variable {transport : HttpTransport} {base : String}

theorem simulated_call {α : Type} (below : transport.Below base) {codec : Codec α}
    (strict : ∀ value, codec.ofTree .broken ≠ .ok value) (clock : Nat → Nat) (deadline : Deadline)
    (call : Call) {played : List Http.Outcome × List Http.Request} {told : Script × List Call}
    (follows : transport.Follows base played told) :
    Simulated (transport.Follows base)
      (transport.call (.paced clock) codec deadline call.path call.text played)
      (transport.rehearse clock deadline call (Script.next codec) told) := by
  obtain ⟨outcomes, kept⟩ := played
  obtain ⟨script, calls⟩ := told
  obtain ⟨rfl, sent⟩ := follows
  have instant : (Http.Channel.paced clock).now (outcomes, kept) = clock calls.length :=
    congrArg clock sent.length_eq
  unfold HttpTransport.call rehearse
  rw [instant]
  cases checked : transport.preflight deadline (clock calls.length) call with
  | error error =>
    rw [prepare_of_refused checked]
    exact ⟨.refl _, rfl, sent⟩
  | ok =>
    obtain ⟨request, made, carries⟩ := prepare_of_passed below checked
    rw [made]
    cases outcomes with
    | nil => exact ⟨.error rfl, rfl, .cons carries sent⟩
    | cons outcome rest =>
      have answered := Script.alike_next strict outcome (rest.map (·.settled.told))
      have left : (Script.next codec ((outcome :: rest).map (·.settled.told))).2 =
          rest.map (·.settled.told) := by
        rw [List.map_cons, Script.next_cons]
      exact ⟨answered, left, .cons carries sent⟩

/-- The calls over HTTP come to the same as those of a script that says what the replies say. -/
theorem simulates_rehearsal (below : transport.Below base) (clock : Nat → Nat)
    (deadline : Deadline) :
    (transport.toTransport (.paced clock)).Simulates (transport.rehearsal clock)
      (transport.Follows base) deadline where
  invoke request _ _ follows :=
    simulated_call below (Codec.ofTree_broken rfl) clock deadline (.invoke request) follows
  precheck request _ _ follows :=
    simulated_call below (Codec.ofTree_broken rfl) clock deadline (.precheck request) follows

end HttpTransport

/-- An operation with its deadline. The clock tells the instant from how many requests were sent. -/
structure Turn where
  verb : Verb
  deadline : Deadline := .unlimited
  clock : Nat → Nat := fun _ => 0

/-- The answers to operations that are carried out in turn, each over the transport for its clock, and
the state after them. -/
def Turn.playAll {σ : Type} (transport : (Nat → Nat) → Transport σ) :
    List Turn → σ → List (Except ApiError Reply) × σ
  | [], state => ([], state)
  | turn :: rest, state =>
    let (answer, state) := turn.verb.dialogue.outcome (transport turn.clock) turn.deadline state
    let (answers, state) := playAll transport rest state
    (answer :: answers, state)

namespace HttpTransport

variable {transport : HttpTransport} {base : String}

theorem playAll_follows (below : transport.Below base) (turns : List Turn)
    {played : List Http.Outcome × List Http.Request} {told : Script × List Call}
    (follows : transport.Follows base played told) :
    List.Forall₂ Alike
        (Turn.playAll (fun clock => transport.toTransport (.paced clock)) turns played).1
        (Turn.playAll transport.rehearsal turns told).1 ∧
      transport.Follows base
        (Turn.playAll (fun clock => transport.toTransport (.paced clock)) turns played).2
        (Turn.playAll transport.rehearsal turns told).2 := by
  induction turns generalizing played told with
  | nil => exact ⟨.nil, follows⟩
  | cons turn rest ih =>
    have first := (simulates_rehearsal below turn.clock turn.deadline).outcome turn.verb.dialogue
      follows
    have later := ih first.state
    exact ⟨.cons first.result later.1, later.2⟩

def oneFound : Tree :=
  .ofMembers [("publicIPAddresses", .array [.ofMembers [("name", .ofString "ip1")]])]

/-- Operations over HTTP that meet known replies are answered as over a script which answers each call
that passes the check with what the next reply says in the end; that is what the reply says itself if
it is plain (`Http.Outcome.told_settled`). Each such call is one POST to the base path with the path of
the call after it, whose body is read as the envelope. A known reply has no header fields of its own
(`Http.Response`): where it redirects it does not say where to, and its body is plain UTF-8 if it is a
text. -/
theorem plays_script (below : transport.Below base) (turns : List Turn)
    (outcomes : List Http.Outcome) :
    let played := Turn.playAll (fun clock => transport.toTransport (.paced clock)) turns (outcomes, [])
    let told := Turn.playAll transport.rehearsal turns (outcomes.map (·.settled.told), [])
    List.Forall₂ Alike played.1 told.1 ∧
      List.Forall₂ (fun request call => request.Carries transport base call) played.2.2 told.2.2 ∧
      told.2.1 = played.2.1.map (·.settled.told) := by
  intro played told
  obtain ⟨answers, script, sent⟩ := playAll_follows below turns
    (⟨rfl, .nil⟩ : transport.Follows base (outcomes, []) (outcomes.map (·.settled.told), []))
  exact ⟨answers, sent, script⟩

/-- The deadline of the first operation comes between its two calls, so it leaves a reply to the
second one. -/
theorem plays_script_overdue :
    let turns : List Turn :=
      [{ verb := .delete "westus" "ip1", deadline := ⟨some 10⟩, clock := (10 * ·) },
        { verb := .get "westus" "ip1" }]
    let outcomes := [Http.Outcome.reply (.ofText 200 oneFound.text), .reply (.ofText 404 "gone")]
    let played := Turn.playAll (fun clock => nested.toTransport (.paced clock)) turns (outcomes, [])
    nested.Below "/api" ∧
      List.Forall₂ Alike played.1 [.error .deadlineExceeded, .error (.notFound "gone")] ∧
      played.2.2.length = 2 := by
  intro turns outcomes played
  obtain ⟨answers, sent, -⟩ := plays_script below_nested turns outcomes
  have script : outcomes.map (·.settled.told) = [.ok oneFound, .error (.notFound "gone")] := by
    have record : (Tree.ofMembers [("name", .ofString "ip1")]).Written :=
      Tree.written_ofMembers (by simpa using Tree.written_ofString "ip1")
    have written : oneFound.Written :=
      Tree.written_ofMembers (by simpa using Tree.written_array (by simpa using record))
    have found : (Http.Outcome.reply (.ofText 200 oneFound.text)).settled.told = .ok oneFound := by
      rw [Http.Outcome.told_settled (by decide +kernel)]
      show (Http.Response.ofText 200 oneFound.text).told = _
      rw [Http.Response.told_ofText]
      exact congrArg Except.ok (Tree.ofText_text written)
    have gone : (Http.Outcome.reply (.ofText 404 "gone")).settled.told =
        .error (.notFound "gone") := by
      rw [Http.Outcome.told_settled (by decide +kernel)]
      show (Http.Response.ofText 404 "gone").told = _
      rw [Http.Response.told_ofText]
      rfl
    rw [List.map_cons, List.map_singleton, found, gone]
  rw [script] at answers sent
  exact ⟨below_nested, answers, sent.length_eq⟩

/-- A reply that only announces another one is not what a client is told. -/
theorem plays_of_announcement :
    let turns : List Turn := [{ verb := .get "loc1" "pip1" }]
    let announced : Http.Outcome := .reply (.ofText 102 "\x7b\x7d")
    loopback.Below "" ∧
      (Turn.playAll loopback.rehearsal turns ([announced.told], [])).1 =
        [.error (.http 102 "\x7b\x7d")] ∧
      ¬List.Forall₂ Alike
        (Turn.playAll (fun clock => loopback.toTransport (.paced clock)) turns ([announced], [])).1
        (Turn.playAll loopback.rehearsal turns ([announced.told], [])).1 := by
  intro turns announced
  have claimed : (Turn.playAll loopback.rehearsal turns ([announced.told], [])).1 =
      [.error (.http 102 "\x7b\x7d")] := by
    have told : announced.told = .error (.http 102 "\x7b\x7d") := by
      show (Http.Response.ofText 102 "\x7b\x7d").told = _
      rw [Http.Response.told_ofText]
      rfl
    rw [told]
    rfl
  have ended : announced.settled.told = .error (.transport "no complete reply") := by
    have alone : Http.Response.read? "\x7b\x7d".toUTF8.toList = none := by
      have headless : Http.Response.Head.read? "\x7b\x7d".toUTF8.toList = none := by decide +kernel
      rw [Http.Response.read?]
      split
      · rfl
      · next found =>
        rw [headless] at found
        cases found
    show ((Http.Response.read? "\x7b\x7d".toUTF8.toList).elim Http.Outcome.dropped
      Http.Outcome.reply).told = _
    rw [alone]
    rfl
  obtain ⟨same, -⟩ := playAll_follows below_loopback turns
    (⟨rfl, .nil⟩ : loopback.Follows "" ([announced], []) ([announced].map (·.settled.told), []))
  rw [List.map_singleton, ended] at same
  have failed : (Turn.playAll loopback.rehearsal turns
      ([.error (.transport "no complete reply")], [])).1 =
        [.error (.transport "no complete reply")] := rfl
  rw [failed] at same
  refine ⟨below_loopback, claimed, fun each => ?_⟩
  rw [claimed] at each
  generalize (Turn.playAll _ turns ([announced], [])).1 = answers at same each
  obtain _ | ⟨first, -⟩ := same
  obtain _ | ⟨other, -⟩ := each
  obtain _ | texts := first
  obtain _ | others := other
  exact absurd (texts.symm.trans others) (by decide)

theorem playAll_canned {now : Nat} {turns : List Turn}
    (still : ∀ turn ∈ turns, turn.clock = fun _ => now)
    (state : List Http.Outcome × List Http.Request) :
    Turn.playAll (fun _ => transport.toTransport (.canned now)) turns state =
      Turn.playAll (fun clock => transport.toTransport (.paced clock)) turns state := by
  induction turns generalizing state with
  | nil => rfl
  | cons turn rest ih =>
    unfold Turn.playAll
    rw [still turn List.mem_cons_self, Http.Channel.paced_const]
    simp only [ih fun turn mem => still turn (List.mem_cons_of_mem _ mem)]

/-- The same of a client that has connected to an agent below a path, while the clock stands still. -/
theorem plays_of_connect {config : AgentConfig} {subscription : String} {credential : Credential}
    {scheme authority path : String} (known : scheme ∈ schemes) (host : authority ≠ "")
    (inside : authority.toList.all (!Http.endsAuthority ·) = true)
    (rooted : path = "" ∨ path.toList.head? = some '/') (plain : '#' ∉ path.toList)
    (endpoint : config.endpoint = scheme ++ authority ++ path)
    (connected : connect config subscription credential = .ok transport) {now : Nat}
    {turns : List Turn} (still : ∀ turn ∈ turns, turn.clock = fun _ => now)
    (outcomes : List Http.Outcome) :
    let played := Turn.playAll (fun _ => transport.toTransport (.canned now)) turns (outcomes, [])
    let told := Turn.playAll transport.rehearsal turns (outcomes.map (·.settled.told), [])
    List.Forall₂ Alike played.1 told.1 ∧
      List.Forall₂ (fun request call => request.Carries transport (trimSlashes path) call)
        played.2.2 told.2.2 := by
  intro played told
  have below : transport.Below (trimSlashes path) :=
    below_of_connect known host inside rooted plain endpoint connected
  obtain ⟨answers, -, sent⟩ := playAll_follows below turns
    (⟨rfl, .nil⟩ : transport.Follows (trimSlashes path) (outcomes, [])
      (outcomes.map (·.settled.told), []))
  rw [← playAll_canned still] at answers sent
  exact ⟨answers, sent⟩

end HttpTransport

end PublicIp
