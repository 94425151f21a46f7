import PublicIp.Agent.Settings
import PublicIp.Agent.Uuid
import PublicIp.Http.Stream

/-!
# The agent program

The program takes its settings from the environment and then answers the HTTP requests on standard
input, one after the other, on standard output. What it logs goes to standard error.
-/

namespace PublicIp.Agent

/-- The lines up to an empty one. -/
partial def readHead (input : IO.FS.Stream) : IO (List String) := do
  let line := Http.trimLineEnd (← input.getLine)
  if line.isEmpty then return []
  return line :: (← readHead input)

/-- Reads a number of bytes, or up to the end of the input. -/
partial def readBody (input : IO.FS.Stream) (size : Nat) : IO ByteArray := do
  if size = 0 then return ByteArray.empty
  let bytes ← input.read (USize.ofNat size)
  if bytes.isEmpty then return bytes
  return bytes ++ (← readBody input (size - bytes.size))

/-- The number in sixteen of some bytes. -/
def numberAt (bytes : ByteArray) (place : Nat) : Nat :=
  (List.range 16).foldl (fun n i => 256 * n + (bytes[16 * place + i]?.getD 0).toNat) 0

/-- As many ids as a body may ask for. -/
def drawIds (bodySize : Nat) : IO (Nat → String) := do
  let bytes ← IO.getRandomBytes (USize.ofNat (16 * (bodySize / 8 + 1)))
  return fun n => Uuid.text (numberAt bytes n)

def log (settings : Settings) (events : List Event) : IO Unit := do
  for line in settings.logLines { events } do
    IO.eprintln line

partial def answerAll (settings : Settings) (input output : IO.FS.Stream) (registry : Registry) :
    IO Unit := do
  match Http.Request.ofHead? (← readHead input) with
  | none => return
  | some request =>
    let body ← readBody input request.announcedSize
    let ids ← drawIds body.size
    let order := settings.service.scan.order { registry }
    let effect := settings.service.handle ids order { request with body } registry
    log settings effect.events
    output.putStr effect.answer.head
    output.write effect.answer.body
    output.flush
    answerAll settings input output effect.registry

end PublicIp.Agent

open PublicIp.Agent in
def main : IO UInt32 := do
  let environment : Environment := {
    portText := ← IO.getEnv Environment.portVariable
    token := ← IO.getEnv Environment.tokenVariable
    logFilter := ← IO.getEnv Environment.logVariable }
  match Settings.ofEnvironment environment with
  | .error error =>
    IO.eprintln error.message
    return 1
  | .ok settings =>
    log settings settings.initial.events
    answerAll settings (← IO.getStdin) (← IO.getStdout) ∅
    return 0
