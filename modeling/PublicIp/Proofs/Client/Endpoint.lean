import PublicIp.Proofs.Client.Preflight

/-!
# Endpoints without the slashes they end in

An endpoint that is accepted is kept without the slashes at its end, so that a path is joined to it by the
slash that the path starts with. The scheme is looked for while the slashes are still there, though, and two
of them belong to it: an endpoint with nothing but slashes after the scheme is accepted and loses these too
(`HttpTransport.hasScheme_trimSlashes_iff`).
-/

namespace PublicIp

def slashes (count : Nat) : String := String.ofList (List.replicate count '/')

namespace HttpTransport

theorem toList_trimSlashes (s : String) :
    (trimSlashes s).toList = s.toList.rdropWhile (· = '/') := String.toList_ofList

theorem trimSlashes_unslashed (s : String) : (trimSlashes s).toList.getLast? ≠ some '/' := by
  intro slash
  rw [toList_trimSlashes] at slash
  obtain ⟨filled, last⟩ := List.mem_getLast?_eq_getLast slash
  exact List.rdropWhile_last_not _ _ filled (decide_eq_true last.symm)

theorem exists_slashes (s : String) : ∃ count, s = trimSlashes s ++ slashes count := by
  have slash (c : Char) (mem : c ∈ s.toList.rtakeWhile (· = '/')) : c = '/' := by
    simpa using List.mem_rtakeWhile_imp mem
  refine ⟨(s.toList.rtakeWhile (· = '/')).length, String.toList_inj.1 ?_⟩
  rw [String.toList_append, toList_trimSlashes, slashes, String.toList_ofList,
    ← List.eq_replicate_of_mem slash, List.rdropWhile_append_rtakeWhile]

theorem trimSlashes_slashes (count : Nat) : trimSlashes (slashes count) = "" := by
  rw [← String.toList_eq_nil_iff, toList_trimSlashes, List.rdropWhile_eq_nil_iff, slashes,
    String.toList_ofList]
  exact fun c mem => decide_eq_true (List.eq_of_mem_replicate mem)

theorem trimSlashes_append_slashes {s : String} (ended : s.toList.getLast? ≠ some '/') (count : Nat) :
    trimSlashes (s ++ slashes count) = s := by
  rw [trimSlashes_append ended, trimSlashes_slashes, String.append_empty]

theorem trimSlashes_eq_self {s : String} (ended : s.toList.getLast? ≠ some '/') :
    trimSlashes s = s := by
  have whole := trimSlashes_append_slashes ended 0
  rwa [show slashes 0 = "" from rfl, String.append_empty] at whole

theorem trimSlashes_trimSlashes (s : String) : trimSlashes (trimSlashes s) = trimSlashes s :=
  trimSlashes_eq_self (trimSlashes_unslashed s)

/-- Only the slashes of the last part are lost, unless there is nothing else in it. -/
theorem trimSlashes_append_of_ne (s : String) {t : String} (more : trimSlashes t ≠ "") :
    trimSlashes (s ++ t) = s ++ trimSlashes t := by
  obtain ⟨count, split⟩ := exists_slashes t
  have ended : (s ++ trimSlashes t).toList.getLast? ≠ some '/' := by
    rw [String.toList_append, List.getLast?_append_of_ne_nil _ (by simpa using more)]
    exact trimSlashes_unslashed t
  have whole := trimSlashes_append_slashes ended count
  rwa [String.append_assoc, ← split] at whole

theorem hasScheme_iff (endpoint : String) :
    hasScheme endpoint = true ↔ ∃ scheme ∈ schemes, ∃ rest, endpoint = scheme ++ rest := by
  rw [hasScheme, List.any_eq_true]
  refine exists_congr fun scheme => and_congr_right fun _ => ?_
  rw [List.isPrefixOf_iff_prefix]
  constructor
  · rintro ⟨rest, split⟩
    exact ⟨String.ofList rest, String.toList_inj.1 (by simp [← split])⟩
  · rintro ⟨rest, rfl⟩
    exact ⟨rest.toList, (String.toList_append ..).symm⟩

/-- Whether an endpoint is a scheme with nothing but slashes after it. -/
def IsBare (endpoint : String) : Prop := ∃ scheme ∈ schemes, ∃ count, endpoint = scheme ++ slashes count

theorem IsBare.trimSlashes_mem {endpoint : String} (bare : IsBare endpoint) :
    trimSlashes endpoint ∈ ["http:", "https:"] := by
  have own (word : String) (ended : word.toList.getLast? ≠ some '/') (count : Nat) :
      trimSlashes (word ++ "//" ++ slashes count) = word := by
    have joined : "//" ++ slashes count = slashes (count + 2) := by
      simp [← String.toList_inj, slashes, List.replicate_succ]
    rw [String.append_assoc, joined, trimSlashes_append_slashes ended]
  obtain ⟨scheme, known, count, rfl⟩ := bare
  rcases List.mem_pair.1 known with rfl | rfl
  · exact List.mem_pair.2 (.inl (own "http:" (by decide) count))
  · exact List.mem_pair.2 (.inr (own "https:" (by decide) count))

/-- Whether the scheme is looked for before or after trimming matters for bare endpoints only. -/
theorem hasScheme_trimSlashes_iff (endpoint : String) :
    hasScheme (trimSlashes endpoint) = true ↔ hasScheme endpoint = true ∧ ¬ IsBare endpoint := by
  constructor
  · intro schemed
    constructor
    · obtain ⟨count, split⟩ := exists_slashes endpoint
      obtain ⟨scheme, known, rest, start⟩ := (hasScheme_iff _).1 schemed
      rw [split, start, hasScheme_iff]
      exact ⟨scheme, known, rest ++ slashes count, String.append_assoc ..⟩
    · intro bare
      rcases List.mem_pair.1 bare.trimSlashes_mem with left | left <;>
      · rw [left] at schemed
        exact absurd schemed (by decide)
  · rintro ⟨schemed, more⟩
    obtain ⟨scheme, known, rest, rfl⟩ := (hasScheme_iff _).1 schemed
    have filled : trimSlashes rest ≠ "" := by
      intro empty
      obtain ⟨count, split⟩ := exists_slashes rest
      rw [empty, String.empty_append] at split
      exact more ⟨scheme, known, count, split ▸ rfl⟩
    rw [trimSlashes_append_of_ne scheme filled, hasScheme_iff]
    exact ⟨scheme, known, trimSlashes rest, rfl⟩

/-- An endpoint without its last slashes is accepted just if the endpoint is and has more than a scheme. -/
theorem connect_ofEndpoint_iff (config : AgentConfig) (subscription : String) (credential : Credential)
    (transport : HttpTransport) :
    connect (.ofEndpoint config.endpoint) subscription credential = .ok transport ↔
      connect config subscription credential = .ok transport ∧ ¬ IsBare config.endpoint := by
  have endpoint : (AgentConfig.ofEndpoint config.endpoint).endpoint = trimSlashes config.endpoint := rfl
  rw [connect_eq_ok_iff, connect_eq_ok_iff, endpoint, hasScheme_trimSlashes_iff,
    trimSlashes_trimSlashes]
  tauto

/-- An endpoint that does not end in a slash has more than a scheme, if it has one. -/
theorem hasScheme_iff_of_ended {endpoint : String} (ended : endpoint.toList.getLast? ≠ some '/') :
    hasScheme endpoint = true ↔ ∃ scheme ∈ schemes, ∃ rest, rest ≠ "" ∧ endpoint = scheme ++ rest := by
  rw [hasScheme_iff]
  refine exists_congr fun scheme => and_congr_right fun known => exists_congr fun rest => ?_
  refine ⟨fun split => ⟨?_, split⟩, And.right⟩
  rintro rfl
  rw [split, String.append_empty] at ended
  rcases List.mem_pair.1 known with rfl | rfl <;> exact absurd rfl ended

theorem not_isBare_of_ended {endpoint : String} (ended : endpoint.toList.getLast? ≠ some '/') :
    ¬ IsBare endpoint := by
  intro bare
  have schemed : hasScheme endpoint = true := by
    obtain ⟨scheme, known, count, split⟩ := bare
    exact (hasScheme_iff _).2 ⟨scheme, known, _, split⟩
  rw [← trimSlashes_eq_self ended, hasScheme_trimSlashes_iff] at schemed
  exact schemed.2 bare

end HttpTransport

theorem AgentConfig.unslashed_ofEndpoint (endpoint : String) :
    (ofEndpoint endpoint).endpoint.toList.getLast? ≠ some '/' :=
  HttpTransport.trimSlashes_unslashed endpoint

theorem AgentConfig.unslashed_ofEnvironment (value : Option String) :
    (ofEnvironment value).endpoint.toList.getLast? ≠ some '/' := by
  unfold ofEnvironment
  split
  · exact unslashed_ofEndpoint _
  · exact unslashed_ofEndpoint "http://127.0.0.1:55000"

/-- The path of a call, without the slash it starts with. -/
def Call.name : Call → String
  | .invoke _ => "PublicIPAddressAgent/Invoke"
  | .precheck _ => "PublicIPAddressAgent/Precheck"

theorem Call.path_eq (call : Call) : call.path = "/" ++ call.name := by
  cases call <;> rfl

namespace HttpTransport

theorem prepare_joined {transport : HttpTransport} {deadline : Deadline} {now : Nat} {call : Call}
    {request : Http.Request}
    (made : transport.prepare deadline now call.path call.text = .ok request) :
    ∃ url, Http.Url.ofString? (transport.endpoint ++ "/" ++ call.name) = some url ∧
      request.target = url.target := by
  rcases transport.prepare_cases deadline now call with ⟨_, _, refused⟩ | ⟨url, _, parsed, _, _, sent⟩
  · rw [refused] at made
    cases made
  · rw [sent] at made
    cases made
    rw [call.path_eq, ← String.append_assoc] at parsed
    exact ⟨url, parsed, rfl⟩

/-- What becomes of an endpoint in a transport to it. -/
structure Trims (endpoint : String) (transport : HttpTransport) : Prop where
  trimmed : ∃ count, endpoint = transport.endpoint ++ slashes count
  unslashed : transport.endpoint.toList.getLast? ≠ some '/'
  located : ¬ IsBare endpoint ↔
    ∃ scheme ∈ schemes, ∃ rest, rest ≠ "" ∧ transport.endpoint = scheme ++ rest
  /-- A request goes where the endpoint and the path of the call say, with a slash between them. -/
  joined : ∀ deadline now (call : Call) request,
    transport.prepare deadline now call.path call.text = .ok request →
      ∃ url, Http.Url.ofString? (transport.endpoint ++ "/" ++ call.name) = some url ∧
        request.target = url.target

theorem trims_of_connect {config : AgentConfig} {subscription : String} {credential : Credential}
    {transport : HttpTransport} (connected : connect config subscription credential = .ok transport) :
    Trims config.endpoint transport := by
  obtain ⟨-, schemed, rfl⟩ := (connect_eq_ok_iff ..).1 connected
  have unslashed := trimSlashes_unslashed config.endpoint
  constructor
  case trimmed => exact exists_slashes config.endpoint
  case unslashed => exact unslashed
  case located =>
    rw [← hasScheme_iff_of_ended unslashed, hasScheme_trimSlashes_iff]
    exact (and_iff_right schemed).symm
  case joined => exact fun _ _ _ _ => prepare_joined

/-- The endpoint of a transport is that of its settings without the slashes at the end, and paths are
joined to it by one slash. Unless there is nothing but slashes after the scheme, the scheme and more are
left, and the settings are as good as those with the slashes taken off before. Settings that are made
of an endpoint, of the environment or of nothing are never of that kind. -/
theorem connect_trims (config : AgentConfig) (subscription : String) (credential : Credential) :
    (∀ transport, connect config subscription credential = .ok transport →
      Trims config.endpoint transport) ∧
    (∀ transport, connect (.ofEndpoint config.endpoint) subscription credential = .ok transport ↔
      connect config subscription credential = .ok transport ∧ ¬ IsBare config.endpoint) ∧
    (∀ endpoint, ¬ IsBare (AgentConfig.ofEndpoint endpoint).endpoint) ∧
    (∀ value, ¬ IsBare (AgentConfig.ofEnvironment value).endpoint) ∧
    ¬ IsBare (default : AgentConfig).endpoint := by
  refine ⟨fun _ => trims_of_connect, connect_ofEndpoint_iff config subscription credential, ?_, ?_, ?_⟩
  · exact fun endpoint => not_isBare_of_ended (AgentConfig.unslashed_ofEndpoint endpoint)
  · exact fun value => not_isBare_of_ended (AgentConfig.unslashed_ofEnvironment value)
  · exact not_isBare_of_ended (AgentConfig.unslashed_ofEndpoint "http://127.0.0.1:55000")

/-- Slashes inside an endpoint stay where they are. -/
theorem connect_trims_nested :
    let config : AgentConfig := ⟨"https://agent:6000//api//", 250⟩
    let transport : HttpTransport := ⟨"https://agent:6000//api", "sub1", .bearer "s3cret"⟩
    connect config "sub1" (.bearer "s3cret") = .ok transport ∧ Trims config.endpoint transport ∧
      connect (.ofEndpoint config.endpoint) "sub1" (.bearer "s3cret") = .ok transport := by
  intro config transport
  have connected : connect config "sub1" (.bearer "s3cret") = .ok transport :=
    (connect_eq_ok_iff ..).2 ⟨by decide, by decide, by decide⟩
  have more : ¬ IsBare config.endpoint := fun bare => absurd bare.trimSlashes_mem (by decide)
  obtain ⟨trims, same, -⟩ := connect_trims config "sub1" (.bearer "s3cret")
  exact ⟨connected, trims transport connected, (same transport).2 ⟨connected, more⟩⟩

/-- A scheme without a host is accepted and loses its slashes; without them it would have been refused. -/
theorem connect_of_scheme_alone :
    connect ⟨"http://", AgentConfig.defaultConnectTimeout⟩ "sub1" .anonymous =
        .ok ⟨"http:", "sub1", .anonymous⟩ ∧
      hasScheme "http:" = false ∧
      connect (.ofEndpoint "http://") "sub1" .anonymous =
        .error (.invalidConfiguration "agent endpoint must be an http(s) URL, got [http:]") :=
  ⟨rfl, rfl, rfl⟩

end HttpTransport

end PublicIp
