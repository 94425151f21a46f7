import PublicIp.Client.Dialogue

/-!
# The operations of the client

Each operation builds an envelope, sends it and reads the reply; deleting does so twice. Nothing is
tried again. `Verb` names an operation with its arguments, and `Verb.dialogue` is what it does.
-/

namespace PublicIp

namespace Client

/-- The record with a name at a location, or all records at the location if the name is empty. -/
def get (location name : String) : Dialogue (List Record) := do
  .noting (.lookup location name)
  let request ← Request.byName .get location name
  let response ← .sending request
  return response.records

/-- Creates an address, or updates it if it exists. The record decides what is sent, its own name
included. -/
def put (location name : String) (record : Option Record) : Dialogue Record := do
  let some record := record.filter (·.properties.isSome)
    | .fail (.invalidConfiguration "missing public IP address properties")
  .noting (.put location name)
  let request ← Request.ofRecord .post location name (some record)
  let response ← .sending request
  let records := response.records
  if 1 < records.length then .noting (.surplus location name records.length)
  match records with
  | [] => .fail (.remote ("agent returned no public IP address for [" ++ name ++ "]"))
  | record :: _ => return record

/-- Deletes an address. What is sent is the record as the agent gives it. -/
def delete (location name : String) : Dialogue Unit := do
  if name = "" then .fail (.invalidInput "name not specified")
  match ← get location name with
  | [] => .fail (.notFound ("public IP address [" ++ name ++ "] not found"))
  | current :: _ =>
    .noting (.delete location name)
    let request ← Request.ofRecord .delete location name (some current)
    let _ ← .sending request

/-- Asks whether records could be created. A refusal is a failure, so the answer is always true. -/
def precheck (location : String) (records : List (Option Record)) : Dialogue Bool := do
  .noting (.precheck location records.length)
  let (skipped, request) := PrecheckRequest.ofRecords location records
  skipped.forM fun index => .noting (.skipped index)
  let response ← .asking (← request)
  response.verdict

end Client

/-- An operation with its arguments. -/
inductive Verb
  | get (location name : String)
  | put (location name : String) (record : Option Record)
  | delete (location name : String)
  | precheck (location : String) (records : List (Option Record))
  deriving DecidableEq

/-- What an operation that succeeds gives. -/
inductive Reply
  | records (records : List Record)
  | record (record : Record)
  | deleted
  | passed (verdict : Bool)
  deriving DecidableEq

def Verb.dialogue : Verb → Dialogue Reply
  | .get location name => .records <$> Client.get location name
  | .put location name record => .record <$> Client.put location name record
  | .delete location name => (fun _ => .deleted) <$> Client.delete location name
  | .precheck location records => .passed <$> Client.precheck location records

end PublicIp
