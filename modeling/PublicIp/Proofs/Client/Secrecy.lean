import PublicIp.Proofs.Client.Scripted

/-!
# Tokens stay in their header field

Clients that differ in the token only make the same requests but for the authorization, if both tokens
are visible (`prepare_showing`). A map of the states that calls respect is respected by dialogues and
runs (`Transport.Maps`), so what a client does with one token is what it does with another one, with its
requests signed anew (`View.ofToken_signed`). With a token that is not visible it sends nothing
(`View.requests_of_hidden`).
-/

namespace PublicIp

namespace Http

def isAuthorization (field : HeaderField) : Bool := lowerCase field.1 = authorizationField

theorem isAuthorization_bearer (token : String) :
    isAuthorization (authorizationField, bearer token) = true := by
  show decide (lowerCase authorizationField = authorizationField) = true
  decide

namespace Request

/-- A request without its authorization. -/
def unsigned (request : Request) : Request :=
  { request with headers := request.headers.filter (!isAuthorization ·) }

def signatures (request : Request) : List HeaderField := request.headers.filter isAuthorization

/-- A request with a token for its only authorization. It stands where the client shows it. -/
def signed (token : String) (request : Request) : Request :=
  { request with
    headers := request.unsigned.headers.take 2 ++
      (authorizationField, bearer token) :: request.unsigned.headers.drop 2 }

theorem isAuthorization_unsigned {request : Request} {field : HeaderField}
    (mem : field ∈ request.unsigned.headers) : isAuthorization field = false := by
  simpa using (List.mem_filter.1 mem).2

theorem unsigned_signed (token : String) (request : Request) :
    (request.signed token).unsigned = request.unsigned := by
  have kept {fields : List HeaderField} (sub : fields ⊆ request.unsigned.headers) :
      fields.filter (!isAuthorization ·) = fields :=
    List.filter_eq_self.2 fun field mem => by simp [isAuthorization_unsigned (sub mem)]
  have headers : (request.signed token).headers.filter (!isAuthorization ·) =
      request.unsigned.headers := by
    unfold signed
    rw [List.filter_append, List.filter_cons_of_neg (by simp [isAuthorization_bearer]),
      kept (List.take_subset _ _), kept (List.drop_subset _ _), List.take_append_drop]
  unfold unsigned at headers ⊢
  rw [headers]
  rfl

theorem signatures_signed (token : String) (request : Request) :
    (request.signed token).signatures = [(authorizationField, bearer token)] := by
  have none {fields : List HeaderField} (sub : fields ⊆ request.unsigned.headers) :
      fields.filter isAuthorization = [] :=
    List.filter_eq_nil_iff.2 fun field mem => by simp [isAuthorization_unsigned (sub mem)]
  unfold signatures signed
  rw [List.filter_append, List.filter_cons_of_pos (isAuthorization_bearer token),
    none (List.take_subset _ _), none (List.drop_subset _ _), List.nil_append]

end Request

namespace Channel

/-- A channel with given outcomes, as `paced`, that keeps the requests as they were sent. -/
def posted (clock : Nat → Nat) : Channel (List Outcome × List Request) where
  now state := clock state.2.length
  exchange request
    | ([], kept) => (.dropped, [], request :: kept)
    | (outcome :: rest, kept) => (outcome, rest, request :: kept)

end Channel

end Http

variable {α σ τ : Type} {f : σ → τ} {left : Transport σ} {right : Transport τ}

/-- Whether a transport does on the images of states what another one does on the states. -/
structure Transport.Maps (f : σ → τ) (left : Transport σ) (right : Transport τ) : Prop where
  invoke : ∀ deadline request state,
    right.invoke deadline request (f state) = Prod.map id f (left.invoke deadline request state)
  precheck : ∀ deadline request state,
    right.precheck deadline request (f state) = Prod.map id f (left.precheck deadline request state)

theorem Transport.Maps.outcome (maps : left.Maps f right) (deadline : Deadline)
    (dialogue : Dialogue α) (state : σ) :
    dialogue.outcome right deadline (f state) =
      Prod.map id f (dialogue.outcome left deadline state) := by
  induction dialogue generalizing state with
  | done result => rfl
  | note event _ ih => exact ih state
  | invoke request _ ih =>
    rw [Dialogue.outcome_invoke, Dialogue.outcome_invoke, maps.invoke]
    rcases left.invoke deadline request state with ⟨error | response, after⟩
    · rfl
    · exact ih response after
  | precheck request _ ih =>
    rw [Dialogue.outcome_precheck, Dialogue.outcome_precheck, maps.precheck]
    rcases left.precheck deadline request state with ⟨error | response, after⟩
    · rfl
    · exact ih response after

theorem Turn.playAll_maps {left : (Nat → Nat) → Transport σ}
    {right : (Nat → Nat) → Transport τ} (maps : ∀ clock, (left clock).Maps f (right clock))
    (turns : List Turn) (state : σ) :
    playAll right turns (f state) = Prod.map id f (playAll left turns state) := by
  induction turns generalizing state with
  | nil => rfl
  | cons turn rest ih =>
    have first := (maps turn.clock).outcome turn.deadline turn.verb.dialogue state
    unfold playAll
    rw [first]
    simp only [Prod.map, ih]
    rfl

namespace HttpTransport

theorem maps_toTransport {first second : HttpTransport} {left : Http.Channel σ}
    {right : Http.Channel τ} {g : Http.Request → Http.Request}
    (prepared : ∀ deadline now path body, second.prepare deadline now path body =
      (first.prepare deadline now path body).map g)
    (instant : ∀ state, right.now (f state) = left.now state)
    (exchanged : ∀ request state,
      right.exchange (g request) (f state) = Prod.map id f (left.exchange request state)) :
    (first.toTransport left).Maps f (second.toTransport right) := by
  have each {α : Type} (codec : Json.Codec α) (deadline : Deadline) (path body : String)
      (state : σ) : second.call right codec deadline path body (f state) =
        Prod.map id f (first.call left codec deadline path body state) := by
    unfold call
    rw [instant, prepared]
    cases first.prepare deadline (left.now state) path body with
    | error error => rfl
    | ok request =>
      simp only [Except.map, exchanged]
      rfl
  exact {
    invoke := fun deadline _ state => each _ deadline _ _ state
    precheck := fun deadline _ state => each _ deadline _ _ state }

def showing (transport : HttpTransport) (token : String) : HttpTransport :=
  { transport with credential := .bearer token }

theorem connect_bearer {config : AgentConfig} {subscription : String} (token : String) :
    connect config subscription (.bearer token) =
      (connect config subscription .anonymous).map (·.showing token) := by
  unfold connect
  split
  · rfl
  · split <;> rfl

variable (transport : HttpTransport)

theorem signed_headers (token other method target text : String) (body : ByteArray) :
    Http.Request.signed other
        ⟨method, target, transport.headers (some (Http.bearer token)) text, body⟩ =
      ⟨method, target, transport.headers (some (Http.bearer other)) text, body⟩ := by
  have named (field : Http.HeaderField) : Http.isAuthorization field =
      decide (Http.lowerCase field.1 = Http.authorizationField) := rfl
  have type : Http.lowerCase Http.contentTypeField ≠ Http.authorizationField := by decide
  have user : Http.lowerCase Http.subscriptionField ≠ Http.authorizationField := by decide
  have size : Http.lowerCase "content-length" ≠ Http.authorizationField := by decide
  have own : Http.lowerCase Http.authorizationField = Http.authorizationField := by decide
  simp [Http.Request.signed, Http.Request.unsigned, headers, named, type, user, size, own]

/-- Another token signs the request anew, and changes nothing else. -/
theorem prepare_showing {token other : String} (given : token ≠ "") (given' : other ≠ "")
    (visible : Http.isVisible token = true) (visible' : Http.isVisible other = true)
    (deadline : Deadline) (now : Nat) (path body : String) :
    (transport.showing other).prepare deadline now path body =
      ((transport.showing token).prepare deadline now path body).map (.signed other) := by
  have shown {token : String} (given : token ≠ "") :
      (Credential.bearer token).authorization = .ok (some (Http.bearer token)) := if_neg given
  unfold prepare showing
  cases deadline.remaining now with
  | error error => rfl
  | ok left =>
    simp only [shown given, shown given', bind, Except.bind, Option.all_some, Http.isVisible_bearer,
      visible, visible']
    cases Http.Url.ofString? (transport.endpoint ++ path) with
    | none => rfl
    | some url =>
      cases Http.isFieldValue transport.subscription && true with
      | false => rfl
      | true => exact congrArg Except.ok (transport.signed_headers ..).symm

/-- What is between a client and a script, with the requests signed anew. -/
def resigned (token : String) (state : List Http.Outcome × List Http.Request) :
    List Http.Outcome × List Http.Request := (state.1, state.2.map (.signed token))

theorem maps_showing {token other : String} (given : token ≠ "") (given' : other ≠ "")
    (visible : Http.isVisible token = true) (visible' : Http.isVisible other = true)
    (clock : Nat → Nat) :
    ((transport.showing token).toTransport (.posted clock)).Maps (resigned other)
      ((transport.showing other).toTransport (.posted clock)) := by
  refine maps_toTransport (transport.prepare_showing given given' visible visible') ?_ ?_
  · intro state
    simp [Http.Channel.posted, resigned]
  · rintro request ⟨_ | ⟨outcome, rest⟩, kept⟩ <;> rfl

theorem prepare_of_hidden {token : String} (hidden : Http.isVisible token = false)
    (deadline : Deadline) (now : Nat) (path body : String) :
    ∃ error, (transport.showing token).prepare deadline now path body = .error error := by
  unfold prepare
  cases deadline.remaining now with
  | error error => exact ⟨error, rfl⟩
  | ok left =>
    by_cases empty : token = ""
    · exact ⟨.invalidConfiguration "bearer token is empty", by simp [showing, empty]; rfl⟩
    · simp only [showing, Credential.authorization, if_neg empty, bind, Except.bind,
        Option.all_some, Http.isVisible_bearer, hidden, Bool.and_false]
      cases Http.Url.ofString? (transport.endpoint ++ path) <;> exact ⟨_, rfl⟩

/-- With a token that is not visible nothing is sent, as if there were no way to send it. -/
theorem maps_hidden {token : String} (hidden : Http.isVisible token = false)
    (outcomes : List Http.Outcome) (clock : Nat → Nat) :
    ((transport.showing token).toTransport (.closed (clock 0))).Maps (fun _ => (outcomes, []))
      ((transport.showing token).toTransport (.posted clock)) := by
  have each {α : Type} (codec : Json.Codec α) (deadline : Deadline) (path body : String) :
      (transport.showing token).call (.posted clock) codec deadline path body (outcomes, []) =
        Prod.map id (fun _ => (outcomes, []))
          ((transport.showing token).call (.closed (clock 0)) codec deadline path body ()) := by
    -- Nothing is sent, so the clock stays at its first instant.
    obtain ⟨error, failed⟩ := transport.prepare_of_hidden hidden deadline (clock 0) path body
    have instant : (Http.Channel.posted clock).now (outcomes, []) = clock 0 := rfl
    have closed : (Http.Channel.closed (clock 0)).now () = clock 0 := rfl
    unfold call
    rw [instant, closed, failed]
    rfl
  exact {
    invoke := fun deadline _ _ => each _ deadline _ _
    precheck := fun deadline _ _ => each _ deadline _ _ }

end HttpTransport

/-- What is seen of a client over HTTP that carries out operations. -/
structure View where
  /-- The description of its transport. -/
  description : String
  results : List (Except ApiError Reply)
  /-- The requests as they were sent, in order. -/
  requests : List Http.Request

namespace View

/-- The view of a client with a token that meets known replies and faults, unless it does not
connect. -/
def ofToken (config : AgentConfig) (subscription token : String) (turns : List Turn)
    (outcomes : List Http.Outcome) : Except ApiError View :=
  (HttpTransport.connect config subscription (.bearer token)).map fun transport =>
    let played :=
      Turn.playAll (fun clock => transport.toTransport (.posted clock)) turns (outcomes, [])
    { description := transport.description
      results := played.1
      requests := played.2.2.reverse }

/-- What is left of a view without the authorizations. -/
def unsigned (view : View) : View :=
  { view with requests := view.requests.map .unsigned }

/-- A view with its requests signed by a token. -/
def signed (token : String) (view : View) : View :=
  { view with requests := view.requests.map (.signed token) }

def SignedBy (token : String) (view : View) : Prop :=
  ∀ request ∈ view.requests,
    request.signatures = [(Http.authorizationField, Http.bearer token)]

theorem signedBy_signed (token : String) (view : View) :
    (view.signed token).SignedBy token := by
  intro request mem
  obtain ⟨sent, -, rfl⟩ := List.mem_map.1 mem
  exact sent.signatures_signed token

theorem unsigned_signed (token : String) (view : View) :
    (view.signed token).unsigned = view.unsigned := by
  unfold signed unsigned
  rw [List.map_map]
  exact congrArg _ (List.map_congr_left fun request _ => request.unsigned_signed token)

variable (config : AgentConfig) (subscription : String) {token other : String} (turns : List Turn)
  (outcomes : List Http.Outcome)

section Tokens

variable (given : token ≠ "") (given' : other ≠ "")
  (visible : Http.isVisible token = true) (visible' : Http.isVisible other = true)

include given given' visible visible'

theorem ofToken_signed :
    ofToken config subscription other turns outcomes =
      (ofToken config subscription token turns outcomes).map (signed other) := by
  unfold ofToken
  rw [HttpTransport.connect_bearer other, HttpTransport.connect_bearer token]
  cases HttpTransport.connect config subscription .anonymous with
  | error error => rfl
  | ok transport =>
    have played := Turn.playAll_maps (transport.maps_showing given given' visible visible') turns
      (outcomes, [])
    have start : HttpTransport.resigned other (outcomes, []) = (outcomes, []) := rfl
    rw [start] at played
    simp only [Except.map, played, Prod.map, signed, HttpTransport.resigned, List.map_reverse]
    rfl

/-- What is seen of clients that differ in the token only is the same but for the authorizations, and
each request has the token of its client for its only one. -/
theorem token_hidden :
    (Credential.bearer token).description = (Credential.bearer other).description ∧
      (ofToken config subscription token turns outcomes).map unsigned =
        (ofToken config subscription other turns outcomes).map unsigned ∧
      (∀ view, ofToken config subscription token turns outcomes = .ok view →
        view.SignedBy token) ∧
      ∀ view, ofToken config subscription other turns outcomes = .ok view →
        view.SignedBy other := by
  have own {token : String} (given : token ≠ "") (visible : Http.isVisible token = true)
      (view : View) (came : ofToken config subscription token turns outcomes = .ok view) :
      view.SignedBy token := by
    have again := ofToken_signed config subscription turns outcomes given given visible visible
    rw [came] at again
    have signed : view = view.signed token := Except.ok.inj again
    exact signed ▸ view.signedBy_signed token
  refine ⟨rfl, ?_, own given visible, own given' visible'⟩
  rw [ofToken_signed config subscription turns outcomes given given' visible visible']
  cases ofToken config subscription token turns outcomes with
  | error error => rfl
  | ok view => exact congrArg Except.ok (view.unsigned_signed other).symm

end Tokens

/-- Two tokens are shown to an agent that does not know them. -/
theorem token_hidden_unknown :
    let view (token : String) := ofToken default "sub1" token
      [{ verb := .get "westus" "ip1" }] [.reply (.ofText 401 "")]
    "s3cret" ≠ "" ∧ "t0ps3cret" ≠ "" ∧
      Http.isVisible "s3cret" = true ∧ Http.isVisible "t0ps3cret" = true ∧
      (view "s3cret").map (·.requests.length) = .ok 1 ∧
      (view "s3cret").map unsigned = (view "t0ps3cret").map unsigned := by
  intro view
  have given : "s3cret" ≠ "" := by decide
  have given' : "t0ps3cret" ≠ "" := by decide
  have visible : Http.isVisible "s3cret" = true := by decide
  have visible' : Http.isVisible "t0ps3cret" = true := by decide
  have hidden := token_hidden default "sub1" [{ verb := .get "westus" "ip1" }]
    [.reply (.ofText 401 "")] given given' visible visible'
  exact ⟨given, given', visible, visible', rfl, hidden.2.1⟩

/-- A token that is not visible is never shown, and nothing is sent without it. -/
theorem requests_of_hidden (hidden : Http.isVisible token = false) {view : View}
    (came : ofToken config subscription token turns outcomes = .ok view) :
    view.requests = [] := by
  unfold ofToken at came
  rw [HttpTransport.connect_bearer] at came
  cases connected : HttpTransport.connect config subscription .anonymous with
  | error error =>
    rw [connected] at came
    cases came
  | ok transport =>
    have played := Turn.playAll_maps (transport.maps_hidden hidden outcomes) turns ()
    rw [connected] at came
    obtain rfl := Except.ok.inj came
    exact congrArg (fun played => played.2.2.reverse) played

/-- An accent may stand in a header field, but a token with one is not sent. -/
theorem unsigned_ne_of_accented :
    let view (token : String) := ofToken default "sub1" token
      [{ verb := .get "westus" "ip1" }] [.reply (.ofText 401 "")]
    "tök" ≠ "" ∧ "tok" ≠ "" ∧
      Http.isFieldValue (Http.bearer "tök") = true ∧ Http.isFieldValue (Http.bearer "tok") = true ∧
      (view "tök").map (·.requests.length) = .ok 0 ∧
      (view "tok").map (·.requests.length) = .ok 1 ∧
      (view "tök").map unsigned ≠ (view "tok").map unsigned := by
  intro view
  have one : (view "tok").map (·.requests.length) = .ok 1 := rfl
  have none : (view "tök").map (·.requests.length) = .ok 0 := by
    cases came : view "tök" with
    | error error => cases came
    | ok seen =>
      have hidden : Http.isVisible "tök" = false := by decide
      have empty := requests_of_hidden default "sub1" _ _ hidden came
      exact congrArg (fun requests => Except.ok requests.length) empty
  refine ⟨by decide, by decide, by decide, by decide, none, one, fun same => ?_⟩
  have counted (token : String) : (view token).map (·.requests.length) =
      ((view token).map unsigned).map (·.requests.length) := by
    cases view token with
    | error error => rfl
    | ok seen => exact congrArg Except.ok (List.length_map _).symm
  rw [counted, same, ← counted, one] at none
  exact absurd (Except.ok.inj none) (by decide)

end View

end PublicIp
