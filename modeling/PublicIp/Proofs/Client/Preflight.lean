import Mathlib.Data.List.DropRight
import Mathlib.Data.List.TakeWhile
import PublicIp.Proofs.Client.Call
import PublicIp.Proofs.RoundTrip

/-!
# What is checked before a call, and what is sent

`HttpTransport.preflight` says which calls are sent. A call that is let through is one POST to the base
path of the endpoint with the path of the call after it, and the body holds the envelope
(`HttpTransport.prepare_of_passed`). A call that is not fails as the check says
(`HttpTransport.prepare_of_refused`).
-/

namespace PublicIp

open Json (Codec)

/-- A call of the agent with its envelope. -/
inductive Call
  | invoke (envelope : Request)
  | precheck (envelope : PrecheckRequest)

namespace Call

def path : Call → String
  | .invoke _ => Http.invokePath
  | .precheck _ => Http.precheckPath

def text : Call → String
  | .invoke envelope => Request.codec.encode envelope
  | .precheck envelope => PrecheckRequest.codec.encode envelope

/-- Whether bytes are read as the envelope. -/
def IsIn (body : ByteArray) : Call → Prop
  | .invoke envelope => Request.codec.decodeBytes body = .ok envelope
  | .precheck envelope => PrecheckRequest.codec.decodeBytes body = .ok envelope

theorem isIn_text (call : Call) : call.IsIn call.text.toUTF8 := by
  cases call with
  | invoke envelope =>
    have exactly := (Request.total.exactOn (by decide)).decode_encode envelope trivial
    rwa [IsIn, text, Codec.decodeBytes_toUTF8]
  | precheck envelope =>
    have exactly := (PrecheckRequest.total.exactOn (by decide)).decode_encode envelope trivial
    rwa [IsIn, text, Codec.decodeBytes_toUTF8]

theorem path_mem (call : Call) : call.path ∈ [Http.invokePath, Http.precheckPath] := by
  cases call with
  | invoke _ => exact List.mem_pair.2 (.inl rfl)
  | precheck _ => exact List.mem_pair.2 (.inr rfl)

theorem head?_path (call : Call) : call.path.toList.head? = some '/' := by
  have each : ∀ path ∈ [Http.invokePath, Http.precheckPath], path.toList.head? = some '/' := by decide
  exact each _ call.path_mem

theorem plain_path (call : Call) : '#' ∉ call.path.toList := by
  have each : ∀ path ∈ [Http.invokePath, Http.precheckPath], '#' ∉ path.toList := by decide
  exact each _ call.path_mem

end Call

namespace Http

theorem takeWhile_authority {authority rest : List Char}
    (inside : authority.all (!endsAuthority ·) = true) (outside : rest.head? = some '/') :
    (authority ++ rest).takeWhile (!endsAuthority ·) = authority := by
  obtain ⟨more, rfl⟩ := List.head?_eq_some_iff.1 outside
  rw [List.takeWhile_append_of_pos (List.all_eq_true.1 inside),
    List.takeWhile_cons_of_neg (by decide), List.append_nil]

theorem dropWhile_authority {authority rest : List Char}
    (inside : authority.all (!endsAuthority ·) = true) (outside : rest.head? = some '/') :
    (authority ++ rest).dropWhile (!endsAuthority ·) = rest := by
  obtain ⟨more, rfl⟩ := List.head?_eq_some_iff.1 outside
  rw [List.dropWhile_append_of_pos (List.all_eq_true.1 inside),
    List.dropWhile_cons_of_neg (by decide)]

theorem withoutFragment_eq_self {chars : List Char} (plain : '#' ∉ chars) :
    withoutFragment chars = chars := by
  refine List.takeWhile_eq_self_iff.2 fun c mem => ?_
  simpa using fun same : c = '#' => plain (same ▸ mem)

theorem Url.target_of_ofString? {scheme authority rest : String}
    (known : scheme ∈ HttpTransport.schemes)
    (inside : authority.toList.all (!endsAuthority ·) = true)
    (outside : rest.toList.head? = some '/') (plain : '#' ∉ rest.toList) {url : Url}
    (parsed : Url.ofString? (scheme ++ authority ++ rest) = some url) : url.target = rest := by
  have after : afterScheme? (scheme ++ authority ++ rest).toList =
      some (authority.toList ++ rest.toList) := by
    simp only [String.toList_append]
    rcases List.mem_pair.1 known with rfl | rfl <;> rfl
  obtain ⟨more, same⟩ := List.head?_eq_some_iff.1 outside
  simp only [ofString?, after, Option.bind_some, takeWhile_authority inside outside,
    dropWhile_authority inside outside, withoutFragment_eq_self plain, Option.ite_none_right_eq_some,
    Option.some.injEq] at parsed
  obtain ⟨-, rfl⟩ := parsed
  simp only [same, rooted]
  rw [← same, String.ofList_toList]

end Http

/-- Whether the endpoint of a transport is a base path at some host. -/
structure HttpTransport.Below (transport : HttpTransport) (base : String) : Prop where
  located : ∃ scheme ∈ schemes, ∃ authority : String,
    authority.toList.all (!Http.endsAuthority ·) = true ∧
      transport.endpoint = scheme ++ authority ++ base
  rooted : base = "" ∨ base.toList.head? = some '/'
  plain : '#' ∉ base.toList

namespace HttpTransport

variable {transport : HttpTransport} {base : String}

theorem Below.target (below : transport.Below base) (call : Call) {url : Http.Url}
    (parsed : Http.Url.ofString? (transport.endpoint ++ call.path) = some url) :
    url.target = base ++ call.path := by
  obtain ⟨scheme, known, authority, inside, endpoint⟩ := below.located
  rw [endpoint, String.append_assoc] at parsed
  refine Http.Url.target_of_ofString? known inside ?_ ?_ parsed
  · rw [String.toList_append, List.head?_append]
    rcases below.rooted with rfl | outside
    · exact call.head?_path
    · rw [outside]
      rfl
  · rw [String.toList_append, List.mem_append, not_or]
    exact ⟨below.plain, call.plain_path⟩

/-- The slashes at the end of a text are those of its last part. -/
theorem trimSlashes_append {s t : String} (ended : s.toList.getLast? ≠ some '/') :
    trimSlashes (s ++ t) = s ++ trimSlashes t := by
  have own : s.toList.reverse.dropWhile (· = '/') = s.toList.reverse := by
    cases last : s.toList.reverse with
    | nil => rfl
    | cons c rest =>
      have other : c ≠ '/' := by
        rintro rfl
        rw [List.getLast?_eq_head?_reverse, last] at ended
        exact ended rfl
      rw [List.dropWhile_cons_of_neg (by simpa using other)]
  unfold trimSlashes
  rw [String.toList_append, List.reverse_append, List.dropWhile_append, own]
  split
  · next empty =>
    rw [List.isEmpty_iff.1 empty]
    simp
  · simp [String.ofList_append]

theorem trimSlashes_starts (s : String) : (trimSlashes s).toList <+: s.toList := by
  rw [trimSlashes, String.toList_ofList]
  exact List.rdropWhile_prefix _ _

theorem connect_eq_ok_iff (config : AgentConfig) (subscription : String) (credential : Credential)
    (transport : HttpTransport) :
    connect config subscription credential = .ok transport ↔
      subscription ≠ "" ∧ hasScheme config.endpoint = true ∧
        transport = ⟨trimSlashes config.endpoint, subscription, credential⟩ := by
  unfold connect
  by_cases empty : subscription = ""
  · simp [empty]
  · by_cases schemed : hasScheme config.endpoint = true <;> simp [empty, schemed, eq_comm]

theorem endpoint_of_connect {config : AgentConfig} {subscription : String} {credential : Credential}
    (connected : connect config subscription credential = .ok transport) :
    transport.endpoint = trimSlashes config.endpoint := by
  obtain ⟨-, -, rfl⟩ := (connect_eq_ok_iff ..).1 connected
  rfl

/-- A transport is below the base path that its agent is said to have, without the slashes at its
end. -/
theorem below_of_connect {config : AgentConfig} {subscription : String} {credential : Credential}
    {scheme authority base : String} (known : scheme ∈ schemes) (host : authority ≠ "")
    (inside : authority.toList.all (!Http.endsAuthority ·) = true)
    (rooted : base = "" ∨ base.toList.head? = some '/') (plain : '#' ∉ base.toList)
    (endpoint : config.endpoint = scheme ++ authority ++ base)
    (connected : connect config subscription credential = .ok transport) :
    transport.Below (trimSlashes base) where
  located := by
    refine ⟨scheme, known, authority, inside, ?_⟩
    rw [endpoint_of_connect connected, endpoint]
    refine trimSlashes_append fun slash => ?_
    rw [String.toList_append, List.getLast?_append_of_ne_nil _ (by simpa using host)] at slash
    exact absurd (List.all_eq_true.1 inside _ (List.mem_of_getLast? slash)) (by decide)
  rooted := by
    rcases rooted with rfl | outside
    · exact .inl rfl
    · obtain ⟨cut, same⟩ := trimSlashes_starts base
      cases left : (trimSlashes base).toList with
      | nil => exact .inl (String.toList_eq_nil_iff.1 left)
      | cons c rest =>
        rw [← same, left] at outside
        exact .inr outside
  plain mem := plain ((trimSlashes_starts base).subset mem)

theorem below_loopback : loopback.Below "" where
  located := ⟨"http://", by decide, "127.0.0.1:55000", by decide, rfl⟩
  rooted := .inl rfl
  plain := by decide

def nested : HttpTransport := { loopback with endpoint := loopback.endpoint ++ "/api" }

theorem below_nested : nested.Below "/api" where
  located := ⟨"http://", by decide, "127.0.0.1:55000", by decide, rfl⟩
  rooted := .inr rfl
  plain := by decide

end HttpTransport

theorem Deadline.remaining_of_past {deadline : Deadline} {now : Nat}
    (past : deadline.instant.any (· ≤ now) = true) :
    deadline.remaining now = .error .deadlineExceeded := by
  obtain ⟨_ | instant⟩ := deadline
  · cases past
  · exact if_pos (of_decide_eq_true past)

theorem Deadline.remaining_of_ahead {deadline : Deadline} {now : Nat}
    (ahead : ¬deadline.instant.any (· ≤ now) = true) :
    ∃ left, deadline.remaining now = .ok left := by
  obtain ⟨_ | instant⟩ := deadline
  · exact ⟨none, rfl⟩
  · exact ⟨some (instant - now), if_neg fun past => ahead (decide_eq_true past)⟩

/-- Whether a credential may stand in a header field. -/
def Credential.isLegal : Credential → Bool
  | .anonymous => true
  | .bearer token => Http.isVisible token

theorem Credential.authorization_of_ne {credential : Credential} (given : credential ≠ .bearer "") :
    ∃ shown, credential.authorization = .ok shown ∧
      shown.all Http.isVisible = credential.isLegal ∧
      ∀ token, credential = .bearer token → shown = some (Http.bearer token) := by
  cases credential with
  | anonymous => exact ⟨none, rfl, rfl, nofun⟩
  | bearer token =>
    have filled : token ≠ "" := fun empty => given (empty ▸ rfl)
    refine ⟨some (Http.bearer token), if_neg filled, Http.isVisible_bearer token, ?_⟩
    rintro _ ⟨⟩
    rfl

/-- What a request is like, as it is received, that carries a call. -/
structure Http.Request.Carries (request : Http.Request) (transport : HttpTransport) (base : String)
    (call : Call) : Prop where
  method : request.method = "POST"
  target : request.target = base ++ call.path
  body : call.IsIn request.body
  type : request.header? contentTypeField = some "application/json"
  subscription : request.header? subscriptionField = some (Http.received transport.subscription)
  token : ∀ token, transport.credential = .bearer token →
    request.header? authorizationField = some (Http.received (bearer token))

namespace HttpTransport

variable {transport : HttpTransport} {base : String} {deadline : Deadline} {now : Nat} {call : Call}

/-- What is checked of a call before anything is sent. -/
def preflight (transport : HttpTransport) (deadline : Deadline) (now : Nat) (call : Call) :
    Except ApiError Unit :=
  if deadline.instant.any (· ≤ now) then .error .deadlineExceeded
  else if transport.credential = .bearer "" then
    .error (.invalidConfiguration "bearer token is empty")
  else if (Http.Url.ofString? (transport.endpoint ++ call.path)).isNone then
    .error (.transport "not a URL")
  else if Http.isFieldValue transport.subscription && transport.credential.isLegal then .ok ()
  else .error (.transport "illegal header value")

/-- A call is refused by the check, or a request is made for it. -/
theorem prepare_cases (transport : HttpTransport) (deadline : Deadline) (now : Nat) (call : Call) :
    (∃ error, transport.preflight deadline now call = .error error ∧
      transport.prepare deadline now call.path call.text = .error error) ∨
    ∃ url shown, Http.Url.ofString? (transport.endpoint ++ call.path) = some url ∧
      (∀ token, transport.credential = .bearer token → shown = some (Http.bearer token)) ∧
      transport.preflight deadline now call = .ok () ∧
      transport.prepare deadline now call.path call.text =
        .ok ⟨"POST", url.target, transport.headers shown call.text, call.text.toUTF8⟩ := by
  unfold preflight prepare
  by_cases past : deadline.instant.any (· ≤ now) = true
  · rw [if_pos past, Deadline.remaining_of_past past]
    exact .inl ⟨_, rfl, rfl⟩
  obtain ⟨left, remaining⟩ := Deadline.remaining_of_ahead past
  rw [if_neg past, remaining]
  by_cases empty : transport.credential = .bearer ""
  · rw [if_pos empty, empty]
    exact .inl ⟨_, rfl, rfl⟩
  obtain ⟨shown, authorization, visible, own⟩ := Credential.authorization_of_ne empty
  rw [if_neg empty, authorization]
  cases parsed : Http.Url.ofString? (transport.endpoint ++ call.path) with
  | none => exact .inl ⟨_, rfl, rfl⟩
  | some url =>
    simp only [bind, Except.bind, visible]
    cases (Http.isFieldValue transport.subscription && transport.credential.isLegal) with
    | false => exact .inl ⟨_, rfl, rfl⟩
    | true =>
      refine .inr ⟨url, shown.orElse fun _ => url.user?.map Http.basic, rfl, fun token held => ?_,
        rfl, rfl⟩
      rw [own token held]
      rfl

theorem prepare_of_refused {error : ApiError}
    (refused : transport.preflight deadline now call = .error error) :
    transport.prepare deadline now call.path call.text = .error error := by
  rcases transport.prepare_cases deadline now call with ⟨_, found, failed⟩ | ⟨_, _, _, _, passed, _⟩
  · rw [found] at refused
    cases refused
    exact failed
  · rw [passed] at refused
    cases refused

/-- A call that is let through is one POST below the base path, with the envelope for its body. -/
theorem prepare_of_passed (below : transport.Below base)
    (passed : transport.preflight deadline now call = .ok ()) :
    ∃ request, transport.prepare deadline now call.path call.text = .ok request ∧
      request.received.Carries transport base call := by
  rcases transport.prepare_cases deadline now call with
    ⟨_, refused, _⟩ | ⟨url, shown, parsed, own, _, made⟩
  · rw [refused] at passed
    cases passed
  · refine ⟨_, made, rfl, below.target call parsed, call.isIn_text, header?_contentType ..,
      header?_subscription .., fun token held => ?_⟩
    rw [own token held]
    exact header?_authorization ..

end HttpTransport

end PublicIp
