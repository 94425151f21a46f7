import PublicIp.Proofs.Agent.Messages
import PublicIp.Proofs.Agent.Task
import PublicIp.Proofs.Json.Size

/-!
# Asking for operations

A request for an operation as a client makes it has the agent carry the operation out, if it is not too
large. Its size is that of the tree that is written.
-/

namespace PublicIp.Agent.Service

open Json

def asking (request : PublicIp.Request) : Http.Request where
  method := "POST"
  target := Http.invokePath
  headers := [(Http.contentTypeField, "application/json")]
  body := (PublicIp.Request.codec.encode request).toUTF8

theorem size_asking (request : PublicIp.Request) :
    (asking request).body.size = (Request.codec.toTree request).size := by
  have body : (asking request).body = (Request.codec.encode request).toUTF8 := by rw [asking]
  rw [body, String.toUTF8_eq_toByteArray, String.size_toByteArray, Codec.encode,
    Tree.utf8ByteSize_text]

theorem path_asking (request : PublicIp.Request) :
    Http.path (asking request).target = Http.invokePath := by
  show Http.path Http.invokePath = Http.invokePath
  decide

section Small

variable {request : PublicIp.Request} (small : (asking request).body.size ≤ maxBodySize)

include small

theorem read_asking : readBody Invocation.codec (asking request) = .ok (.ofRequest request) := by
  have body : (asking request).body = (Request.codec.encode request).toUTF8 := by rw [asking]
  have meaning : Invocation.codec.decodeBytes (Request.codec.encode request).toUTF8 =
      .ok (.ofRequest request) := (Invocation.takes_request request).decodeBytes (by decide)
  have json : ((asking request).header? Http.contentTypeField).any Http.isJson = true := by
    show (some "application/json").any Http.isJson = true
    decide
  unfold readBody
  rw [json, if_neg (by decide), if_neg (Nat.not_lt.2 small), body, meaning]

theorem task_asking : task {} (asking request) = .invoke (.ofRequest request) := by
  have method : (asking request).method = "POST" := rfl
  unfold task
  simp [admits, method, path_asking, read_asking small]

theorem invocation?_asking : invocation? {} (asking request) = some (.ofRequest request) := by
  have method : (asking request).method = "POST" := rfl
  unfold invocation?
  simp [admits, method, path_asking, read_asking small, Except.toOption]

end Small

section Fits

variable {request : PublicIp.Request} (fits : (Request.codec.toTree request).size ≤ maxBodySize)
  (supply : Nat → String)

include fits

theorem serve_asking (state : State) :
    serve {} supply (asking request) state =
      (replyTo (state.invoke supply (.ofRequest request)).answer,
        state.apply (state.invoke supply (.ofRequest request))) :=
  serve_of_task (task_asking (Nat.le_trans (Nat.le_of_eq (size_asking request)) fits)) supply state

theorem after_asking (state : State) : (exchange {} supply (asking request) state).after =
    state.apply (state.invoke supply (.ofRequest request)) := by
  rw [exchange, serve_asking fits]

theorem final_asking (rest : List Http.Request) (state : State) :
    final {} supply (asking request :: rest) state =
      final {} supply rest (state.apply (state.invoke supply (.ofRequest request))) := by
  rw [final, after_asking fits]

end Fits

end PublicIp.Agent.Service
