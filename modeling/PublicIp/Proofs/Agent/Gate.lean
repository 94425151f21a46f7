import PublicIp.Agent.Uuid
import PublicIp.Proofs.Agent.Run

/-!
# The gate of the agent

A service with a token answers the requests that present it as a service without a token answers these
requests alone, and refuses all others. One refused request leaves no trace (`exchange_of_refused`), so
by induction on the run the exchanges that are left are those of the other service
(`history_filter_presents`).
-/

namespace PublicIp.Agent.Service

/-- Whether the first authorization field of a request is that of a token. It takes a token of visible
ASCII characters, spaces and tabs. -/
def Presents (token : String) (request : Http.Request) : Prop :=
  Http.isVisible token = true ∧
    request.header? Http.authorizationField = some (Http.bearer token)

instance (token : String) : DecidablePred (Presents token) := fun request =>
  inferInstanceAs (Decidable
    (_ ∧ request.header? Http.authorizationField = some (Http.bearer token)))

theorem shows_iff (token : String) (request : Http.Request) :
    shows token request = true ↔ Presents token request := by
  unfold shows Presents
  rw [Option.any_eq_true]
  constructor
  · rintro ⟨value, given, shown⟩
    obtain ⟨visible, same⟩ := Bool.and_eq_true_iff.1 shown
    obtain rfl : value = Http.bearer token := by simpa using same
    exact ⟨by rwa [Http.isVisible_bearer] at visible, given⟩
  · rintro ⟨visible, given⟩
    refine ⟨Http.bearer token, given, ?_⟩
    rw [Http.isVisible_bearer, visible, beq_self_eq_true]
    rfl

section Exchange

variable {token : String} (scan : Scan) (supply : Nat → String) {request : Http.Request}
  (state : State)

theorem exchange_of_refused (refused : ¬ Presents token request) :
    exchange ⟨some token, scan⟩ supply request state = ⟨state, request, .ofText 401 "", state⟩ := by
  have hidden : shows token request = false := by
    rw [← Bool.not_eq_true, shows_iff]
    exact refused
  simp [exchange, serve, handle, admits, hidden, refuse]

theorem exchange_of_presents (presents : Presents token request) :
    exchange ⟨some token, scan⟩ supply request state = exchange ⟨none, scan⟩ supply request state := by
  have shown : shows token request = true := (shows_iff token request).2 presents
  simp [exchange, serve, handle, admits, shown]

end Exchange

/-- The exchanges of the requests that present a token. -/
def presented (token : String) (exchanges : List Exchange) : List Exchange :=
  exchanges.filter fun exchange => Presents token exchange.request

theorem presented_cons_of_presents {token : String} {exchange : Exchange} (rest : List Exchange)
    (presents : Presents token exchange.request) :
    presented token (exchange :: rest) = exchange :: presented token rest :=
  List.filter_cons_of_pos (by simpa using presents)

theorem presented_cons_of_refused {token : String} {exchange : Exchange} (rest : List Exchange)
    (refused : ¬ Presents token exchange.request) :
    presented token (exchange :: rest) = presented token rest :=
  List.filter_cons_of_neg (by simpa using refused)

variable (token : String) (scan : Scan) (supply : Nat → String)

/-- The requests that present the token make the same exchanges, and leave the same state, as they do
alone at a service without a token. -/
theorem history_filter_presents (requests : List Http.Request) (state : State) :
    presented token (history ⟨some token, scan⟩ supply requests state) =
        history ⟨none, scan⟩ supply (requests.filter (Presents token)) state ∧
      final ⟨some token, scan⟩ supply requests state =
        final ⟨none, scan⟩ supply (requests.filter (Presents token)) state := by
  induction requests generalizing state with
  | nil => exact ⟨rfl, rfl⟩
  | cons request rest ih =>
    by_cases presents : Presents token request
    · have same := exchange_of_presents scan supply state presents
      obtain ⟨exchanges, left⟩ := ih (exchange ⟨none, scan⟩ supply request state).after
      rw [List.filter_cons_of_pos (by simpa using presents), history, history, final, final, same,
        presented_cons_of_presents _ presents, exchanges]
      exact ⟨rfl, left⟩
    · have unchanged := exchange_of_refused scan supply state presents
      rw [List.filter_cons_of_neg (by simpa using presents), history, final, unchanged,
        presented_cons_of_refused _ presents]
      exact ih state

theorem refused_history (requests : List Http.Request) (state : State) {exchange : Exchange}
    (mem : exchange ∈ history ⟨some token, scan⟩ supply requests state)
    (refused : ¬ Presents token exchange.request) :
    exchange.response = .ofText 401 "" ∧ exchange.after = exchange.before := by
  induction requests generalizing state with
  | nil => exact absurd mem List.not_mem_nil
  | cons request rest ih =>
    rcases List.mem_cons.1 mem with rfl | later
    · have refused : ¬ Presents token request := refused
      rw [exchange_of_refused scan supply state refused]
      exact ⟨rfl, rfl⟩
    · exact ih _ later

theorem map_request_history (service : Service) (requests : List Http.Request) (state : State) :
    (service.history supply requests state).map Exchange.request = requests := by
  induction requests generalizing state with
  | nil => rfl
  | cons request rest ih => exact congrArg (request :: ·) (ih _)

/-- A service with a token refuses every request that does not present it and is not changed by that.
All other requests make the same exchanges, and leave the same state, as at a service without a token
that gets them alone and meets its entries in the same orders. So it makes no difference to them which
refused requests come between. -/
theorem gate_transparent (requests : List Http.Request) :
    (history ⟨some token, scan⟩ supply requests {}).map Exchange.request = requests ∧
    (∀ exchange ∈ history ⟨some token, scan⟩ supply requests {}, ¬ Presents token exchange.request →
      exchange.response = .ofText 401 "" ∧ exchange.after = exchange.before) ∧
    presented token (history ⟨some token, scan⟩ supply requests {}) =
      history ⟨none, scan⟩ supply (requests.filter (Presents token)) {} ∧
    final ⟨some token, scan⟩ supply requests {} =
      final ⟨none, scan⟩ supply (requests.filter (Presents token)) {} ∧
    ∀ others : List Http.Request,
      others.filter (Presents token) = requests.filter (Presents token) →
        presented token (history ⟨some token, scan⟩ supply others {}) =
            presented token (history ⟨some token, scan⟩ supply requests {}) ∧
          final ⟨some token, scan⟩ supply others {} = final ⟨some token, scan⟩ supply requests {} := by
  obtain ⟨exchanges, left⟩ := history_filter_presents token scan supply requests {}
  refine ⟨map_request_history supply _ requests {}, fun exchange mem refused =>
    refused_history token scan supply requests {} mem refused, exchanges, left, fun others same => ?_⟩
  obtain ⟨other_exchanges, other_left⟩ := history_filter_presents token scan supply others {}
  rw [other_exchanges, other_left, exchanges, left, same]
  exact ⟨rfl, rfl⟩

/-- A request without a body that shows a text as its authorization. -/
def showing (authorization : String) : Http.Request where
  method := "POST"
  target := Http.invokePath
  headers := [(Http.authorizationField, authorization)]
  body := ByteArray.empty

/-- Requests with other authorizations, before and after one that is admitted, are refused and make no
difference to it. -/
theorem gate_transparent_between :
    let shown := showing "Bearer s3cret"
    let requests := [showing "Bearer other", shown, showing "bearer s3cret"]
    Presents "s3cret" shown ∧
      (¬ Presents "s3cret" (showing "Bearer other") ∧
        (⟨{}, showing "Bearer other", .ofText 401 "", {}⟩ : Exchange) ∈
          history ⟨some "s3cret", .ascending⟩ Uuid.text requests {}) ∧
      [shown].filter (Presents "s3cret") = requests.filter (Presents "s3cret") ∧
      presented "s3cret" (history ⟨some "s3cret", .ascending⟩ Uuid.text [shown] {}) =
        presented "s3cret" (history ⟨some "s3cret", .ascending⟩ Uuid.text requests {}) ∧
      presented "s3cret" (history ⟨some "s3cret", .ascending⟩ Uuid.text requests {}) =
        history {} Uuid.text [shown] {} := by
  intro shown requests
  have admitted : Presents "s3cret" shown := by decide
  have refused : ¬ Presents "s3cret" (showing "Bearer other") := by decide
  have alone : requests.filter (Presents "s3cret") = [shown] :=
    (List.filter_cons_of_neg (by decide)).trans
      ((List.filter_cons_of_pos (by decide)).trans (congrArg _ (List.filter_cons_of_neg (by decide))))
  have same : [shown].filter (Presents "s3cret") = requests.filter (Presents "s3cret") := by
    rw [alone]
    exact List.filter_cons_of_pos (by decide)
  obtain ⟨-, answers, served, -, others⟩ := gate_transparent "s3cret" .ascending Uuid.text requests
  have first : exchange ⟨some "s3cret", .ascending⟩ Uuid.text (showing "Bearer other") {} ∈
      history ⟨some "s3cret", .ascending⟩ Uuid.text requests {} := List.mem_cons_self
  obtain ⟨response, after⟩ := answers _ first refused
  refine ⟨admitted, ⟨refused, ?_⟩, same, (others [shown] same).1, alone ▸ served⟩
  exact exchange_of_refused .ascending Uuid.text {} refused ▸ first

/-- A token with a letter beyond ASCII is never presented: a request that shows it is refused, where a
service without a token looks at its content type. -/
theorem refused_of_accented :
    let token := "t\u00f6k en"
    let request := showing (Http.bearer token)
    request.header? Http.authorizationField = some (Http.bearer token) ∧
      (history ⟨some token, .ascending⟩ Uuid.text [request] {}).map (·.response.status) = [401] ∧
      (history {} Uuid.text [request] {}).map (·.response.status) = [415] := by
  intro token request
  have refused : ¬ Presents token request := by decide
  have routed : (exchange {} Uuid.text request {}).response.status = 415 := by decide
  simp only [history, exchange_of_refused .ascending Uuid.text {} refused, List.map_cons,
    List.map_nil, routed]
  exact ⟨by decide, rfl, trivial⟩

end PublicIp.Agent.Service
