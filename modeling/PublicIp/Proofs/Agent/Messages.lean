import PublicIp.Agent.Entry
import PublicIp.Proofs.Json.Reading

/-!
# Messages and entries

Client and agent have schemas of their own for one format. Here each reads what the other writes: the
agent holds for every message an entry, `Entry.ofMessage`, and gives the message back to the client.
The envelopes of both sides follow.
-/

namespace PublicIp

open Json

namespace Tag

/-- A tag as the agent keeps it. -/
def kept (tag : Tag) : Value := .object [("key", .text tag.key), ("value", .text tag.value)]

/-- Tags as the agent keeps them. -/
def keptList (tags : List Tag) : Value := .object [("tags", .array (tags.map kept))]

theorem takes_raw (tag : Tag) : Schema.raw.Takes 1 (Tag.codec.toTree tag) (.raw tag.kept) :=
  Schema.takes_raw_object [("key", tag.key), ("value", tag.value)] Prod.fst
    (fun part => .ofString part.2) (fun part => .text part.2)
    (fun _ _ => Schema.takes_raw_text _) (List.Perm.refl _) (by simp [Ascending]; decide)

theorem takes_raw_list (tags : List Tag) :
    Schema.raw.Takes 3 (Tag.listCodec.toTree tags) (.raw (keptList tags)) := by
  have array : Schema.raw.Takes 2 (.array (tags.map Tag.codec.toTree))
      (.raw (.array (tags.map kept))) :=
    Schema.takes_raw_array tags Tag.codec.toTree kept fun tag _ => tag.takes_raw
  have object := Schema.takes_raw_object [()] (fun _ => "tags")
    (fun _ => .array (tags.map Tag.codec.toTree)) (fun _ => .array (tags.map kept))
    (fun _ _ => array) (List.Perm.refl _) (List.pairwise_singleton _ _)
  have written : Tag.listCodec.toTree tags =
      .ofMembers [("tags", .array (tags.map Tag.codec.toTree))] := by
    rw [← Codec.toTree_list]
    rfl
  rw [written]
  exact object

theorem tree_keptList (tags : List Tag) :
    (keptList tags).tree = .ofMembers [("tags", .array (tags.map Tag.codec.toTree))] := by
  have inner : (Value.array (tags.map kept)).tree = .array (tags.map Tag.codec.toTree) := by
    rw [Value.tree, Value.itemTrees_eq, List.map_map]
    rfl
  show Tree.ofMembers [("tags", (Value.array (tags.map kept)).tree)] = _
  rw [inner]

theorem takes_keptList (tags : List Tag) :
    Tag.listCodec.schema.Takes 3 (keptList tags).tree (Tag.listCodec.toDatum tags) := by
  have text (s : String) : Schema.text.Takes 0 (.ofString s) (.text s) := Schema.takes_text s
  have item (tag : Tag) :
      Tag.codec.schema.Takes 1 (Tag.codec.toTree tag) (Tag.codec.toDatum tag) :=
    Schema.takes_record (.given (text _) <| .given (text _) .nil) (by decide) (List.Perm.refl _)
  rw [tree_keptList]
  exact Schema.takes_record
    (.given (Schema.takes_list tags _ _ fun tag _ => item tag) .nil) (by decide) (List.Perm.refl _)

end Tag

namespace Status

/-- A part of a status on the wire: its name, and the name and the content of its one text. -/
structure Part where
  name : String
  inner : String
  content : String

namespace Part

def tree (part : Part) : Tree := .ofMembers [(part.inner, .ofString part.content)]

def kept (part : Part) : Value := .object [(part.inner, .text part.content)]

theorem takes_raw (part : Part) : Schema.raw.Takes 1 part.tree (.raw part.kept) :=
  Schema.takes_raw_object [part] Part.inner (fun part => .ofString part.content)
    (fun part => .text part.content) (fun _ _ => Schema.takes_raw_text _) (List.Perm.refl _)
    (List.pairwise_singleton _ _)

end Part

def healthPart (status : Status) : Option Part :=
  status.health.map fun content => ⟨"health", "currentState", content⟩

def provisioningPart (status : Status) : Option Part :=
  status.provisioning.map fun content => ⟨"provisioningStatus", "currentState", content⟩

def errorPart (status : Status) : Option Part :=
  status.lastError.map fun content => ⟨"lastError", "message", content⟩

def versionPart (status : Status) : Option Part :=
  status.version.map fun content => ⟨"version", "number", content⟩

/-- The parts that are present, in the order in which they are written. -/
def wireParts (status : Status) : List Part :=
  [status.healthPart, status.provisioningPart, status.errorPart, status.versionPart].filterMap id

/-- The parts that are present, in the order of their names. -/
def keptParts (status : Status) : List Part :=
  [status.healthPart, status.errorPart, status.provisioningPart, status.versionPart].filterMap id

/-- A status as the agent keeps it. -/
def kept (status : Status) : Value :=
  .object (status.keptParts.map fun part => (part.name, part.kept))

theorem perm_parts (status : Status) : status.wireParts.Perm status.keptParts :=
  ((List.Perm.swap _ _ _).cons _).filterMap _

theorem ascending_keptParts (status : Status) :
    Ascending (status.keptParts.map fun part => (part.name, part.kept)) := by
  obtain ⟨health, provisioning, lastError, version⟩ := status
  cases health <;> cases provisioning <;> cases lastError <;> cases version <;>
    simp [Ascending, keptParts, healthPart, provisioningPart, errorPart, versionPart] <;> decide

theorem toTree_eq (status : Status) :
    Status.codec.toTree status =
      .ofMembers (status.wireParts.map fun part => (part.name, part.tree)) := by
  obtain ⟨health, provisioning, lastError, version⟩ := status
  cases health <;> cases provisioning <;> cases lastError <;> cases version <;> rfl

theorem takes_raw (status : Status) :
    Schema.raw.Takes 2 (Status.codec.toTree status) (.raw status.kept) := by
  rw [toTree_eq]
  exact Schema.takes_raw_object status.wireParts Part.name Part.tree Part.kept
    (fun part _ => part.takes_raw) (status.perm_parts.map _) status.ascending_keptParts

theorem takes_kept (status : Status) :
    Status.codec.schema.Takes 2 status.kept.tree (Status.codec.toDatum status) := by
  have part (inner s : String) : (Codec.wrappedText inner).schema.Takes 1
      (Part.mk "" inner s).tree ((Codec.wrappedText inner).toDatum s) :=
    Codec.takes_wrappedText inner s
  rw [kept, Value.tree_object]
  refine Schema.takes_record (.part status.health (part _) <| .part status.provisioning (part _) <|
    .part status.lastError (part _) <| .part status.version (part _) .nil) (by decide) ?_
  have written : status.wireParts.map (fun part => (part.name, part.tree)) =
      (status.health.map fun s => ("health", (Part.mk "" "currentState" s).tree)).toList ++
      ((status.provisioning.map fun s =>
        ("provisioningStatus", (Part.mk "" "currentState" s).tree)).toList ++
      ((status.lastError.map fun s => ("lastError", (Part.mk "" "message" s).tree)).toList ++
      ((status.version.map fun s => ("version", (Part.mk "" "number" s).tree)).toList ++ []))) := by
    obtain ⟨health, provisioning, lastError, version⟩ := status
    cases health <;> cases provisioning <;> cases lastError <;> cases version <;> rfl
  rw [← written]
  exact (status.perm_parts.map _).symm

end Status

theorem Allocation.faithful : Allocation.codec.Faithful := fun allocation => by
  cases allocation <;> rfl

theorem IpVersion.faithful : IpVersion.codec.Faithful := fun version => by cases version <;> rfl

theorem Tag.faithful : Tag.codec.Faithful := fun _ => rfl

theorem Tag.faithful_list : Tag.listCodec.Faithful := fun tags => Tag.faithful.list tags

theorem Status.faithful : Status.codec.Faithful := fun status => by
  obtain ⟨health, provisioning, lastError, version⟩ := status
  cases health <;> cases provisioning <;> cases lastError <;> cases version <;> rfl

theorem faithful_message : Message.codec.Faithful := fun message => by
  simp only [Message.codec, Codec.toSlot, Allocation.faithful message.allocation,
    IpVersion.faithful message.ipVersion, Status.faithful.slot message.status,
    Tag.faithful_list.slot message.tags]
  rfl

namespace Agent

/-- What the agent holds for a message. -/
def Entry.ofMessage (message : Message) : Entry where
  name := message.name
  id := message.id
  location := message.location
  ipAddress := message.ipAddress
  allocation := message.allocation.word
  ipVersion := message.ipVersion.word
  label := message.label
  reverseFqdn := message.reverseFqdn
  status := message.status.map Status.kept
  tags := message.tags.map Tag.keptList

/-- The texts of a message, each with its name on the wire. -/
def texts (message : Message) : List (String × Tree) :=
  [("name", .ofString message.name), ("id", .ofString message.id),
    ("locationName", .ofString message.location), ("ipAddress", .ofString message.ipAddress),
    ("allocation", .ofString message.allocation.word),
    ("ipVersion", .ofString message.ipVersion.word),
    ("domainNameLabel", .ofString message.label), ("reverseFqdn", .ofString message.reverseFqdn)]

theorem toTree_message (message : Message) :
    Message.codec.toTree message = .ofMembers (texts message ++
      ((message.status.map fun status => ("status", Status.codec.toTree status)).toList ++
        ((message.tags.map fun tags => ("tags", Tag.listCodec.toTree tags)).toList ++ []))) := by
  obtain ⟨_, _, _, _, _, _, _, _, status, tags⟩ := message
  cases status <;> cases tags <;> rfl

theorem toTree_ofMessage (message : Message) :
    Entry.codec.toTree (.ofMessage message) = .ofMembers (texts message ++
      ((message.status.map fun status => ("status", status.kept.tree)).toList ++
        ((message.tags.map fun tags => ("tags", (Tag.keptList tags).tree)).toList ++ []))) := by
  obtain ⟨_, _, _, _, allocation, ipVersion, _, _, status, tags⟩ := message
  cases allocation <;> cases ipVersion <;> cases status <;> cases tags <;> rfl

/-- The agent takes the message of a client for its entry. -/
theorem Entry.takes_message (message : Message) :
    Entry.codec.Takes 4 (Message.codec.toTree message) (.ofMessage message) := by
  have text (s : String) : Schema.text.Takes 3 (.ofString s) (.text s) :=
    (Schema.takes_text s).mono (by decide)
  rw [toTree_message]
  refine ⟨_, Schema.takes_record (.given (text _) <| .given (text _) <| .given (text _) <|
    .given (text _) <| .given (text _) <| .given (text _) <| .given (text _) <| .given (text _) <|
    .part message.status (fun status => status.takes_raw.mono (by decide)) <|
    .part message.tags Tag.takes_raw_list .nil) (by decide) (List.Perm.refl _), ?_⟩
  obtain ⟨_, _, _, _, _, _, _, _, status, tags⟩ := message
  cases status <;> cases tags <;> rfl

/-- The client takes the entry for a message for that message. -/
theorem takes_ofMessage (message : Message) :
    Message.codec.Takes 4 (Entry.codec.toTree (.ofMessage message)) message := by
  have text (s : String) : Schema.text.Takes 3 (.ofString s) (.text s) :=
    (Schema.takes_text s).mono (by decide)
  have allocation : Allocation.codec.schema.Takes 3 (.ofString message.allocation.word)
      (Allocation.codec.toDatum message.allocation) :=
    (Schema.takes_choice (by cases message.allocation <;> decide)).mono (by decide)
  have ipVersion : IpVersion.codec.schema.Takes 3 (.ofString message.ipVersion.word)
      (IpVersion.codec.toDatum message.ipVersion) :=
    (Schema.takes_choice (by cases message.ipVersion <;> decide)).mono (by decide)
  rw [toTree_ofMessage]
  refine ⟨_, Schema.takes_record (.given (text _) <| .given (text _) <| .given (text _) <|
    .given (text _) <| .given allocation <| .given ipVersion <| .given (text _) <|
    .given (text _) <| .part message.status (fun status => status.takes_kept.mono (by decide)) <|
    .part message.tags Tag.takes_keptList .nil) (by decide) (List.Perm.refl _), ?_⟩
  exact faithful_message message

theorem Operation.faithful : Operation.codec.Faithful := fun operation => by
  cases operation <;> rfl

/-- The operation that the agent receives for a request. -/
def Invocation.ofRequest (request : Request) : Invocation where
  operation := request.operation
  entries := request.addresses.map .ofMessage

theorem Invocation.takes_request (request : Request) :
    Invocation.codec.Takes 6 (Request.codec.toTree request) (.ofRequest request) := by
  obtain ⟨datum, addresses, entries⟩ := Codec.Takes.list request.addresses fun message _ =>
    Entry.takes_message message
  have operation : Operation.codec.schema.Takes 5 (.ofString request.operation.word)
      (Operation.codec.toDatum request.operation) :=
    (Schema.takes_choice (by cases request.operation <;> decide)).mono (by decide)
  have written : Request.codec.toTree request = .ofMembers
      [("operationType", .ofString request.operation.word),
        (addressesField, Message.codec.list.toTree request.addresses)] := rfl
  rw [written, Codec.toTree_list]
  refine ⟨_, Schema.takes_record (.given operation <| .given addresses .nil) (by decide)
    (List.Perm.refl _), ?_⟩
  simp only [Invocation.codec, Operation.faithful request.operation, entries]
  rfl

theorem takes_precheck (request : PrecheckRequest) :
    precheckCodec.Takes 6 (PrecheckRequest.codec.toTree request)
      (request.addresses.map .ofMessage) := by
  obtain ⟨datum, addresses, entries⟩ := Codec.Takes.list request.addresses fun message _ =>
    Entry.takes_message message
  have written : PrecheckRequest.codec.toTree request =
      .ofMembers [(addressesField, Message.codec.list.toTree request.addresses)] := rfl
  rw [written, Codec.toTree_list]
  exact ⟨_, Schema.takes_record (.given addresses .nil) (by decide) (List.Perm.refl _), entries⟩

theorem takes_answer (messages : List Message) (error : String) :
    Response.codec.Takes 6 (Answer.codec.toTree ⟨messages.map .ofMessage, error⟩)
      ⟨messages, none, error⟩ := by
  obtain ⟨datum, addresses, entries⟩ := Codec.Takes.list messages fun message _ =>
    takes_ofMessage message
  have written : Answer.codec.toTree ⟨messages.map .ofMessage, error⟩ = .ofMembers
      [(addressesField, Entry.codec.list.toTree (messages.map .ofMessage)),
        ("error", .ofString error)] := rfl
  rw [written, Codec.toTree_list, List.map_map]
  refine ⟨_, Schema.takes_record (.given addresses <| .missing rfl <|
    .given ((Schema.takes_text error).mono (by decide)) .nil) (by decide) (List.Perm.refl _), ?_⟩
  rw [List.map_id'] at entries
  simp only [Response.codec, entries]
  rfl

theorem takes_verdict (verdict : Verdict) :
    PrecheckResponse.codec.Takes 2 (Verdict.codec.toTree verdict)
      ⟨some verdict.accepted, verdict.error⟩ := by
  have accepted : verdictCodec.schema.Takes 1 (.ofMembers [("value", .ofBool verdict.accepted)])
      (verdictCodec.toDatum verdict.accepted) :=
    Schema.takes_record (.given (Schema.takes_flag _) .nil) (by decide) (List.Perm.refl _)
  exact ⟨_, Schema.takes_record (.given accepted <|
    .given ((Schema.takes_text verdict.error).mono (by decide)) .nil) (by decide)
    (List.Perm.refl _), rfl⟩

end Agent

end PublicIp
