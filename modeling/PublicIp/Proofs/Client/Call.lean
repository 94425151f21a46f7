import Mathlib.Data.List.Basic
import PublicIp.Client.HttpTransport
import PublicIp.Proofs.Agent.Run
import PublicIp.Proofs.Ledger

/-!
# Calls to a service that runs

What a call over HTTP comes to where an authorised client talks to the agent: the agent carries out
the operation of the envelope, unless the envelope is too large, and the client gets the answer, unless
the reply is too large.
-/

namespace PublicIp

open Json (Codec)
open Agent (Service)

/-- Whether the client that uses a transport is authorised at a service: its calls come to the paths of
the service, and show the token if there is one. -/
structure HttpTransport.Authorised (transport : HttpTransport) (service : Service) : Prop where
  reaches : ∀ path ∈ [Http.invokePath, Http.precheckPath], ∃ url,
    Http.Url.ofString? (transport.endpoint ++ path) = some url ∧ Http.path url.target = path
  subscription : Http.isFieldValue transport.subscription = true
  legal : ∃ shown, transport.credential.authorization = .ok shown ∧ shown.all Http.isVisible = true
  admitted : ∀ token, service.token = some token →
    transport.credential = .bearer token ∧ Http.received (Http.bearer token) = Http.bearer token

/-- A client that shows a token to an agent on its own host. -/
def HttpTransport.loopback : HttpTransport where
  endpoint := "http://127.0.0.1:55000"
  subscription := "sub1"
  credential := .bearer "s3cret"

/-- An agent that wants this token. -/
def Agent.Service.guarded : Service := { token := some "s3cret" }

theorem HttpTransport.authorised_loopback : loopback.Authorised .guarded where
  reaches path known := by
    refine ⟨⟨"127.0.0.1:55000", path⟩, ?_⟩
    rcases List.mem_pair.1 known with rfl | rfl
    · exact ⟨by decide +kernel, by decide +kernel⟩
    · exact ⟨by decide +kernel, by decide +kernel⟩
  subscription := by decide
  legal := ⟨some "Bearer s3cret", rfl, by decide⟩
  admitted token expected := by
    obtain rfl : "s3cret" = token := Option.some.inj expected
    exact ⟨rfl, by decide⟩

/-- A service that meets its entries in orders of its own. -/
def Agent.Service.scanning (service : Service) (scan : Service.Scan) : Service :=
  { service with scan }

theorem HttpTransport.Authorised.scanning {transport : HttpTransport} {service : Service}
    (authorised : transport.Authorised service) (scan : Service.Scan) :
    transport.Authorised (service.scanning scan) where
  reaches := authorised.reaches
  subscription := authorised.subscription
  legal := authorised.legal
  admitted := authorised.admitted

/-- What an authorised request is like when it is received. -/
structure Http.Request.Proper (request : Http.Request) (service : Service) (path body : String) :
    Prop where
  method : request.method = "POST"
  path : Http.path request.target = path
  body : request.body = body.toUTF8
  json : (request.header? Http.contentTypeField).any Http.isJson = true
  admitted : service.admits request = true

theorem fromUTF8?_toUTF8 (s : String) : String.fromUTF8? s.toUTF8 = some s := by
  have valid : s.toUTF8.IsValidUTF8 := s.isValidUTF8
  rw [String.fromUTF8?, dif_pos (by simpa using valid)]
  rfl

namespace HttpTransport

def headers (transport : HttpTransport) (shown : Option String) (body : String) :
    List Http.HeaderField :=
  [(Http.contentTypeField, "application/json"), (Http.subscriptionField, transport.subscription)]
    ++ (shown.map fun value => (Http.authorizationField, value)).toList
    ++ [("content-length", toString body.utf8ByteSize)]

theorem header?_contentType (transport : HttpTransport) (shown : Option String)
    (method target body : String) :
    (Http.Request.mk method target (transport.headers shown body) body.toUTF8).received.header?
      Http.contentTypeField = some "application/json" := by
  have own : Http.lowerCase Http.contentTypeField = Http.contentTypeField := by decide
  have plain : Http.received "application/json" = "application/json" := by decide
  simp [Http.Request.received, Http.Request.header?, Http.valueOf?, headers, own, plain]

theorem header?_subscription (transport : HttpTransport) (shown : Option String)
    (method target body : String) :
    (Http.Request.mk method target (transport.headers shown body) body.toUTF8).received.header?
      Http.subscriptionField = some (Http.received transport.subscription) := by
  have type : Http.lowerCase Http.contentTypeField ≠ Http.subscriptionField := by decide
  have own : Http.lowerCase Http.subscriptionField = Http.subscriptionField := by decide
  simp [Http.Request.received, Http.Request.header?, Http.valueOf?, headers, type, own]

theorem json_headers (transport : HttpTransport) (shown : Option String) (method target : String)
    (body : String) :
    ((Http.Request.mk method target (transport.headers shown body) body.toUTF8).received.header?
      Http.contentTypeField).any Http.isJson = true := by
  rw [header?_contentType]
  decide

/-- The token that is shown is received as it is. -/
theorem header?_authorization (transport : HttpTransport) (value method target body : String) :
    (Http.Request.mk method target (transport.headers (some value) body) body.toUTF8).received.header?
      Http.authorizationField = some (Http.received value) := by
  have type : Http.lowerCase Http.contentTypeField ≠ Http.authorizationField := by decide
  have subscription : Http.lowerCase Http.subscriptionField ≠ Http.authorizationField := by decide
  have own : Http.lowerCase Http.authorizationField = Http.authorizationField := by decide
  simp [Http.Request.received, Http.Request.header?, Http.valueOf?, headers, type, subscription, own]

/-- A request that shows the token of a service as it is received is admitted. -/
theorem admits_headers (transport : HttpTransport) {service : Service} {token : String}
    (expected : service.token = some token) (visible : Http.isVisible (Http.bearer token) = true)
    (plain : Http.received (Http.bearer token) = Http.bearer token) (method target body : String) :
    service.admits (Http.Request.mk method target (transport.headers (some (Http.bearer token)) body)
      body.toUTF8).received = true := by
  unfold Service.admits Service.shows
  rw [expected, Option.all_some, header?_authorization, plain, Option.any_some, visible,
    beq_self_eq_true]
  rfl

/-- Nothing that is checked before a request is sent stops an authorised client. -/
theorem Authorised.prepares {transport : HttpTransport} {service : Service}
    (authorised : transport.Authorised service) (now : Nat) {path : String}
    (known : path ∈ [Http.invokePath, Http.precheckPath]) (body : String) :
    ∃ request, transport.prepare .unlimited now path body = .ok request ∧
      request.received.Proper service path body := by
  obtain ⟨url, parsed, target⟩ := authorised.reaches path known
  obtain ⟨shown, authorization, visible⟩ := authorised.legal
  have legal : (Http.isFieldValue transport.subscription && shown.all Http.isVisible) = true := by
    rw [authorised.subscription, visible]
    rfl
  have made : transport.prepare .unlimited now path body = .ok ⟨"POST", url.target,
      transport.headers (shown.orElse fun _ => url.user?.map Http.basic) body, body.toUTF8⟩ := by
    simp only [prepare, Deadline.unlimited, Deadline.remaining, authorization, parsed, legal, bind,
      Except.bind, pure, Except.pure]
    rfl
  refine ⟨_, made, rfl, target, rfl, json_headers .., ?_⟩
  cases expected : service.token with
  | none =>
    unfold Service.admits
    rw [expected]
    rfl
  | some token =>
    obtain ⟨credential, plain⟩ := authorised.admitted token expected
    have given : shown = some (Http.bearer token) := by
      rw [credential, Credential.authorization] at authorization
      split at authorization
      · cases authorization
      · exact (Except.ok.inj authorization).symm
    rw [given] at visible ⊢
    exact admits_headers transport expected visible plain ..

end HttpTransport

theorem content_ofText {status : Nat} (text : String) (isStatus : Http.isStatus status = true)
    (final : 200 ≤ status) (direct : Http.isRedirect status = false)
    (full : Http.isBodiless status = false) :
    (Http.Outcome.reply (.ofText status text)).content =
      if text.utf8ByteSize < Http.replyLimit then
        if status < 300 then .ok text
        else if status = 404 then .error (.notFound text)
        else .error (.http status text)
      else .error Link.cutOff := by
  have interim : Http.isInterim status = false := by
    simp only [Http.isInterim, decide_eq_false_iff_not]
    omega
  have outcome : (Http.Outcome.reply (.ofText status text)).final? =
      if Http.replyLimit ≤ text.utf8ByteSize then none else some (.ofText status text) := by
    simp only [Http.Outcome.final?, Http.Response.final?, Http.Response.ofText, interim, isStatus,
      full, Bool.not_true, Bool.false_eq_true, if_false]
    rfl
  unfold Http.Outcome.content
  rw [outcome]
  by_cases fits : text.utf8ByteSize < Http.replyLimit
  · simp only [fits, if_true, Nat.not_le.2 fits, if_false, Http.Response.content,
      Http.Response.ofText, direct, Bool.false_eq_true, fromUTF8?_toUTF8, final, true_and]
  · simp only [fits, if_false, Nat.le_of_not_lt fits, if_true]
    rfl

namespace Agent.Service

variable {service : Service} {request : Http.Request}

theorem readBody_of_proper {α : Type} {codec : Codec α} {path body : String}
    (proper : request.Proper service path body) {value : α}
    (meaning : codec.decodeBytes body.toUTF8 = .ok value) :
    readBody codec request =
      if body.utf8ByteSize ≤ maxBodySize then .ok value
      else .error (.ofText 413 Link.refusal) := by
  have size : request.body.size = body.utf8ByteSize := by rw [proper.body]; rfl
  unfold readBody
  rw [proper.json, size, proper.body, meaning]
  by_cases fits : body.utf8ByteSize ≤ maxBodySize
  · simp [fits, Nat.not_lt.2 fits]
  · simp [fits, Nat.lt_of_not_le fits, Link.refusal]

theorem apply_refuse (state : State) (response : Http.Response) :
    state.apply (refuse state.registry response) = state := by
  simp [State.apply, refuse]

theorem serve_of_route {path body : String} (proper : request.Proper service path body)
    {supply : Nat → String} {state : State} {effect : Effect Http.Response}
    (routed : route (fun n => supply (state.drawn + n)) (service.scan.order state) request
      state.registry = effect) :
    service.serve supply request state = (effect.answer, state.apply effect) := by
  unfold serve handle
  rw [proper.admitted, if_pos rfl, routed]
  rfl

theorem serve_invoke {envelope : Request}
    (proper : request.Proper service Http.invokePath (Request.codec.encode envelope))
    (supply : Nat → String) (state : State) :
    service.serve supply request state =
      if (Request.codec.encode envelope).utf8ByteSize ≤ maxBodySize then
        (replyTo (state.invoke supply (.ofRequest envelope)).answer,
          state.apply (state.invoke supply (.ofRequest envelope)))
      else (.ofText 413 Link.refusal, state) := by
  have body := readBody_of_proper proper
    ((Invocation.takes_request envelope).decodeBytes (by decide))
  by_cases fits : (Request.codec.encode envelope).utf8ByteSize ≤ maxBodySize
  · rw [if_pos fits] at body ⊢
    exact serve_of_route proper (route_of_invocation _ proper.path proper.method body)
  · rw [if_neg fits] at body ⊢
    have routed : route (fun n => supply (state.drawn + n)) (service.scan.order state) request
        state.registry = refuse state.registry (.ofText 413 Link.refusal) := by
      unfold route
      simp [proper.path, proper.method, body]
    rw [serve_of_route proper routed, apply_refuse]
    rfl

theorem serve_precheck {envelope : PrecheckRequest}
    (proper : request.Proper service Http.precheckPath (PrecheckRequest.codec.encode envelope))
    (supply : Nat → String) (state : State) :
    service.serve supply request state =
      let effect :=
        state.registry.precheck (service.scan.order state) (envelope.addresses.map .ofMessage)
      if (PrecheckRequest.codec.encode envelope).utf8ByteSize ≤ maxBodySize then
        (.ofText 200 (Verdict.codec.encode effect.answer), state.apply effect)
      else (.ofText 413 Link.refusal, state) := by
  have body := readBody_of_proper proper ((takes_precheck envelope).decodeBytes (by decide))
  have other : Http.precheckPath ≠ Http.invokePath := by decide
  by_cases fits : (PrecheckRequest.codec.encode envelope).utf8ByteSize ≤ maxBodySize
  · rw [if_pos fits] at body
    have routed : route (fun n => supply (state.drawn + n)) (service.scan.order state) request
        state.registry =
        let effect :=
          state.registry.precheck (service.scan.order state) (envelope.addresses.map .ofMessage)
        { effect with answer := .ofText 200 (Verdict.codec.encode effect.answer) } := by
      unfold route
      simp [proper.path, other, proper.method, body]
    rw [serve_of_route proper routed]
    simp only [fits, if_true]
    rfl
  · rw [if_neg fits] at body
    have routed : route (fun n => supply (state.drawn + n)) (service.scan.order state) request
        state.registry = refuse state.registry (.ofText 413 Link.refusal) := by
      unfold route
      simp [proper.path, other, proper.method, body]
    rw [serve_of_route proper routed, apply_refuse]
    simp only [fits, if_false]
    rfl

end Agent.Service

/-- What a client gets to know from the answer to an operation, in which text. -/
inductive Relayed : Except Agent.Refusal Agent.Answer → String → Except ApiError Response → Prop
  | carriedOut (messages : List Message) :
      Relayed (.ok { entries := messages.map .ofMessage })
        (Agent.Answer.codec.encode { entries := messages.map .ofMessage })
        (.ok { addresses := messages })
  | incomplete (name : String) :
      Relayed (.error (.incomplete name)) (Agent.Refusal.incomplete name).text
        (.error (.http 400 (Agent.Refusal.incomplete name).text))
  | missing (name : String) :
      Relayed (.error (.missing name)) (Agent.Refusal.missing name).text
        (.error (.notFound (Agent.Refusal.missing name).text))

namespace HttpTransport

theorem content_replyTo {answer : Except Agent.Refusal Agent.Answer} {text : String}
    {result : Except ApiError Response} (relayed : Relayed answer text result) :
    ((Http.Outcome.reply (Service.replyTo answer)).content.bind fun text =>
        (Response.codec.decodeString text).mapError fun _ =>
          .deserialization "not the expected reply") =
      if text.utf8ByteSize < Http.replyLimit then result else .error Link.cutOff := by
  cases relayed with
  | carriedOut messages =>
    have decoded : Response.codec.decodeString
        (Agent.Answer.codec.encode { entries := messages.map .ofMessage }) =
        .ok { addresses := messages } :=
      (Agent.takes_answer messages "").decodeString (by decide)
    unfold Service.replyTo
    rw [content_ofText _ (by decide) (by decide) (by decide) (by decide)]
    split
    · simp only [show (200 : Nat) < 300 by decide, if_true, Except.bind, decoded, Except.mapError]
    · rfl
  | incomplete name =>
    unfold Service.replyTo
    rw [content_ofText _ (by decide) (by decide) (by decide) (by decide)]
    split <;> rfl
  | missing name =>
    unfold Service.replyTo
    rw [content_ofText _ (by decide) (by decide) (by decide) (by decide)]
    split <;> rfl

/-- A call for which a service finds a reply. -/
theorem call_of_served {α : Type} {transport : HttpTransport} {service : Service}
    {supply : Nat → String} {now : Nat} {state after : Service.State} {path body : String}
    {request : Http.Request} {response : Http.Response} (codec : Codec α)
    (prepared : transport.prepare .unlimited now path body = .ok request)
    (served : service.serve supply request.received state = (response, after)) :
    transport.call (service.channel supply now) codec .unlimited path body state =
      ((Http.Outcome.reply response).content.bind fun text =>
        (codec.decodeString text).mapError fun _ => .deserialization "not the expected reply",
        after) := by
  unfold call
  have now_eq : (service.channel supply now).now state = now := rfl
  rw [now_eq, prepared]
  simp only [Service.channel, served]

theorem content_refusal :
    (Http.Outcome.reply (.ofText 413 Link.refusal)).content = .error Link.refused := by
  rw [content_ofText _ (by decide) (by decide) (by decide) (by decide)]
  rfl

/-- A call of an authorised client comes to what the agent makes of the envelope. -/
theorem invoke_of_authorised {transport : HttpTransport} {service : Service}
    (authorised : transport.Authorised service) (supply : Nat → String) (now : Nat)
    (state : Service.State) {envelope : Request} {text : String}
    {result : Except ApiError Response}
    (relayed : Relayed (state.invoke supply (.ofRequest envelope)).answer text result) :
    (transport.toTransport (service.channel supply now)).invoke .unlimited envelope state =
      Link.http.call (Request.codec.encode envelope) text result
        (state.apply (state.invoke supply (.ofRequest envelope))) state := by
  obtain ⟨request, prepared, proper⟩ := authorised.prepares now (List.mem_pair.2 (.inl rfl))
    (Request.codec.encode envelope)
  have served := Service.serve_invoke proper supply state
  show transport.call _ _ _ _ _ _ = _
  unfold Link.call
  by_cases fits : (Request.codec.encode envelope).utf8ByteSize ≤ Service.maxBodySize
  · rw [if_pos fits] at served
    rw [call_of_served Response.codec prepared served, content_replyTo relayed]
    simp only [Link.http, fits, decide_true, if_true, decide_eq_true_eq]
  · rw [if_neg fits] at served
    rw [call_of_served Response.codec prepared served, content_refusal]
    simp only [Link.http, fits, decide_false, Bool.false_eq_true, if_false]
    rfl

theorem precheck_of_authorised {transport : HttpTransport} {service : Service}
    (authorised : transport.Authorised service) (supply : Nat → String) (now : Nat)
    (state : Service.State) (envelope : PrecheckRequest) :
    let effect :=
      state.registry.precheck (service.scan.order state) (envelope.addresses.map .ofMessage)
    (transport.toTransport (service.channel supply now)).precheck .unlimited envelope state =
      Link.http.call (PrecheckRequest.codec.encode envelope)
        (Agent.Verdict.codec.encode effect.answer)
        (.ok { result := some effect.answer.accepted, error := effect.answer.error })
        (state.apply effect) state := by
  intro effect
  obtain ⟨request, prepared, proper⟩ := authorised.prepares now (List.mem_pair.2 (.inr rfl))
    (PrecheckRequest.codec.encode envelope)
  have served := Service.serve_precheck proper supply state
  have decoded : PrecheckResponse.codec.decodeString (Agent.Verdict.codec.encode effect.answer) =
      .ok { result := some effect.answer.accepted, error := effect.answer.error } :=
    (Agent.takes_verdict effect.answer).decodeString (by decide)
  show transport.call _ _ _ _ _ _ = _
  unfold Link.call
  by_cases fits : (PrecheckRequest.codec.encode envelope).utf8ByteSize ≤ Service.maxBodySize
  · simp only [fits, if_true] at served
    rw [call_of_served PrecheckResponse.codec prepared served,
      content_ofText _ (by decide) (by decide) (by decide) (by decide)]
    simp only [Link.http, fits, decide_true, if_true, decide_eq_true_eq]
    split
    · simp only [show (200 : Nat) < 300 by decide, if_true, Except.bind]
      rw [decoded]
      rfl
    · rfl
  · simp only [fits, if_false] at served
    rw [call_of_served PrecheckResponse.codec prepared served, content_refusal]
    simp only [Link.http, fits, decide_false, Bool.false_eq_true, if_false]
    rfl

end HttpTransport

end PublicIp
