import PublicIp.Message.OfRecord

/-!
# Building envelopes and reading replies

An operation carries one record, a precheck any number of them. Records that are absent from the
list of a precheck are passed over, and their positions are reported; one that cannot be made a
message fails the whole envelope.
-/

namespace PublicIp

/-- An operation on one record. The name is used only to say that there is no record. -/
def Request.ofRecord (operation : Operation) (location name : String) (record : Option Record) :
    Except ApiError Request :=
  match record with
  | none => .error (.invalidInput ("no public IP address record supplied for [" ++ name ++ "]"))
  | some record => do
    let message ← record.toMessage location
    return { operation, addresses := [message] }

/-- An operation on a record of which only the name is known. -/
def Request.byName (operation : Operation) (location name : String) : Except ApiError Request :=
  Request.ofRecord operation location name (some (.named name))

namespace PrecheckRequest

/-- What a failure of a precheck envelope is said to have happened in. -/
def context : String := "unable to convert public IP address for precheck"

/-- The messages of the records from a position on, and the positions that were passed over before
the end or the first failure. -/
def messages (location : String) (index : Nat) :
    List (Option Record) → List Nat × Except ApiError (List Message)
  | [] => ([], .ok [])
  | none :: rest =>
    let (skipped, result) := messages location (index + 1) rest
    (index :: skipped, result)
  | some record :: rest =>
    match record.toMessage location with
    | .error error => ([], .error (error.inContext context))
    | .ok message =>
      let (skipped, result) := messages location (index + 1) rest
      (skipped, result.map (message :: ·))

/-- The positions that are passed over, and the envelope. -/
def ofRecords (location : String) (records : List (Option Record)) :
    List Nat × Except ApiError PrecheckRequest :=
  let (skipped, result) := messages location 0 records
  (skipped, result.map fun addresses => { addresses })

end PrecheckRequest

/-- The records of a reply, in its order. -/
def Response.records (response : Response) : List Record := response.addresses.map Message.toRecord

/-- A precheck is passed only by a result that says so. -/
def PrecheckResponse.verdict (response : PrecheckResponse) : Except ApiError Bool :=
  if response.result.getD false then .ok true else .error (.remote response.error)

end PublicIp
