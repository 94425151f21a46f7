import PublicIp.Http.Basic

/-!
# Channels

A `Channel` takes a request to the other side and brings back what becomes of it. Its state is all
that lies in between: what the other side holds, or what is left of a list of known outcomes.
-/

namespace PublicIp.Http

structure Channel (σ : Type) where
  /-- The instant, in milliseconds, at which the next request would be sent. -/
  now : σ → Nat
  exchange : Request → σ → Outcome × σ

namespace Channel

/-- A channel with given outcomes, which keeps the requests as they were received, the last one
first. A request for which no outcome is left is dropped. -/
def canned (now : Nat) : Channel (List Outcome × List Request) where
  now _ := now
  exchange request
    | ([], kept) => (.dropped, [], request.received :: kept)
    | (outcome :: rest, kept) => (outcome, rest, request.received :: kept)

/-- A channel with nothing at its other end. -/
def closed (now : Nat) : Channel Unit where
  now _ := now
  exchange _ state := (.dropped, state)

end Channel

end PublicIp.Http
