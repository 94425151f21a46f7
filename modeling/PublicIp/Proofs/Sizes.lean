import PublicIp.Agent.Uuid
import PublicIp.Proofs.Agent.Represent
import PublicIp.Proofs.Json.Size

/-!
# Sizes of envelopes and replies

An envelope with one message is larger than the message by a number of bytes that depends on the
operation only, and so is a reply. The agent writes an entry in as many bytes as the client writes the
message, so the reply to a creation is hardly larger than the envelope (`size_recordsText_stored`).
-/

namespace PublicIp

open Json (Tree)
open Agent (Entry Provision)

/-- The bytes of a message without those of the envelope. -/
def Message.size (message : Message) : Nat := (Message.codec.toTree message).size

def partSize (name : String) : Option Tree → Nat
  | none => 0
  | some tree => (Tree.ofString name).size + tree.size + 2

theorem size_message (message : Message) :
    message.size = 1 + Tree.sizeMembers (Agent.texts message) +
      partSize "status" (message.status.map Status.codec.toTree) +
        partSize "tags" (message.tags.map Tag.listCodec.toTree) := by
  unfold Message.size
  rw [Agent.toTree_message, Tree.size_ofMembers (by simp [Agent.texts])]
  simp only [Tree.sizeMembers_append]
  cases message.status <;> cases message.tags <;> simp [partSize] <;> omega

theorem size_kept (status : Status) : status.kept.tree.size = (Status.codec.toTree status).size := by
  rw [Status.kept, Json.Value.tree_object, Status.toTree_eq]
  exact Tree.size_perm (status.perm_parts.symm.map _)

theorem tree_keptList_eq (tags : List Tag) : (Tag.keptList tags).tree = Tag.listCodec.toTree tags := by
  rw [Tag.tree_keptList, ← Json.Codec.toTree_list]
  rfl

/-- The agent writes an entry in as many bytes as the client writes the message. -/
theorem size_ofMessage (message : Message) :
    (Entry.codec.toTree (.ofMessage message)).size = message.size := by
  rw [size_message, Agent.toTree_ofMessage, Tree.size_ofMembers (by simp [Agent.texts])]
  simp only [Tree.sizeMembers_append]
  cases message.status <;> cases message.tags <;>
    simp [partSize, size_kept, tree_keptList_eq] <;> omega

/-- The bytes that the status of a stored record takes. -/
def statusSize : Nat := 90

theorem partSize_status (provision : Provision) :
    partSize "status" (some (Status.codec.toTree
      { health := some "OK", provisioning := some provision.word })) = statusSize := by
  cases provision <;> decide +kernel

theorem size_of_id (message : Message) (id : String) :
    (message.identified id).size + (Tree.ofString message.id).size =
      message.size + (Tree.ofString id).size := by
  rw [size_message, size_message]
  simp only [Message.identified, Agent.texts, Tree.sizeMembers_cons, Tree.sizeMembers_nil]
  omega

/-- A message with an address in place of its own. -/
def Message.addressed (message : Message) (address : String) : Message :=
  { message with ipAddress := address }

theorem size_of_ipAddress (message : Message) (address : String) :
    (message.addressed address).size + (Tree.ofString message.ipAddress).size =
      message.size + (Tree.ofString address).size := by
  rw [size_message, size_message]
  simp only [Message.addressed, Agent.texts, Tree.sizeMembers_cons, Tree.sizeMembers_nil]
  omega

theorem size_of_status {message : Message} (plain : message.status = none) (status : Status) :
    Message.size { message with status := some status } =
      message.size + partSize "status" (some (Status.codec.toTree status)) := by
  have texts : Agent.texts { message with status := some status } = Agent.texts message := rfl
  have absent : partSize "status" none = 0 := rfl
  rw [size_message, size_message, texts, plain]
  simp only [Option.map_some, Option.map_none, absent]
  omega

theorem size_marked {message : Message} (plain : message.status = none) (id : String)
    (provision : Provision) :
    (message.marked id provision).size + (Tree.ofString message.id).size =
      message.size + (Tree.ofString id).size + statusSize := by
  have unreported : (message.identified id).status = none := plain
  have status := size_of_status unreported
    { health := some "OK", provisioning := some provision.word }
  rw [partSize_status] at status
  have identified := size_of_id message id
  show Message.size { message.identified id with
    status := some { health := some "OK", provisioning := some provision.word } } + _ = _
  rw [status]
  omega

theorem size_request (operation : Operation) (message : Message) :
    (Request.codec.encode ⟨operation, [message]⟩).utf8ByteSize =
      (Tree.ofString operation.word).size + message.size + 41 := by
  have tree : Request.codec.toTree ⟨operation, [message]⟩ = .ofMembers
      [("operationType", .ofString operation.word),
        (addressesField, .array [Message.codec.toTree message])] := rfl
  have operationType : (Tree.ofString "operationType").size = 15 := by decide +kernel
  have addresses : (Tree.ofString addressesField).size = 19 := by decide +kernel
  rw [Json.Codec.encode, Tree.utf8ByteSize_text, tree, Tree.size_ofMembers (by simp)]
  simp only [Tree.sizeMembers_cons, Tree.sizeMembers_nil, Tree.size_array (List.cons_ne_nil _ _),
    Tree.sizeItems_singleton, operationType, addresses, Message.size]
  omega

theorem size_recordsText (record : Record) :
    (Ledger.recordsText [record]).utf8ByteSize = record.reported.size + 35 := by
  have tree : Agent.Answer.codec.toTree { entries := [.ofMessage record.reported] } = .ofMembers
      [(addressesField, .array [Entry.codec.toTree (.ofMessage record.reported)]),
        ("error", .ofString "")] := rfl
  have addresses : (Tree.ofString addressesField).size = 19 := by decide +kernel
  have error : (Tree.ofString "error").size = 7 := by decide +kernel
  have none : (Tree.ofString "").size = 2 := by decide +kernel
  show (Json.Codec.encode _ _).utf8ByteSize = _
  rw [Json.Codec.encode, Tree.utf8ByteSize_text]
  show (Agent.Answer.codec.toTree { entries := [.ofMessage record.reported] }).size = _
  rw [tree, Tree.size_ofMembers (by simp)]
  simp only [Tree.sizeMembers_cons, Tree.sizeMembers_nil, Tree.size_array (List.cons_ne_nil _ _),
    Tree.sizeItems_singleton, size_ofMessage, addresses, error, none]
  omega

/-- A message is no smaller than the name and the address in it as they are written. -/
theorem size_texts_le (message : Message) :
    (Tree.ofString message.name).size ≤ message.size ∧
      (Tree.ofString message.ipAddress).size ≤ message.size := by
  rw [size_message]
  simp only [Agent.texts, Tree.sizeMembers_cons]
  omega

theorem size_lt_size_precheck {message : Message} {messages : List Message}
    (mem : message ∈ messages) :
    message.size < (PrecheckRequest.codec.encode ⟨messages⟩).utf8ByteSize := by
  have tree : PrecheckRequest.codec.toTree ⟨messages⟩ =
      .ofMembers [(addressesField, .array (messages.map Message.codec.toTree))] := by
    rw [← Json.Codec.toTree_list]
    rfl
  have full : messages.map Message.codec.toTree ≠ [] :=
    List.ne_nil_of_mem (List.mem_map_of_mem mem)
  have item : message.size < _ := Tree.size_lt_sizeItems (List.mem_map_of_mem mem)
  rw [Json.Codec.encode, Tree.utf8ByteSize_text, tree, Tree.size_ofMembers (by simp)]
  simp only [Tree.sizeMembers_cons, Tree.size_array full]
  omega

/-- An envelope is larger than the name in it. -/
theorem name_lt_size_request (operation : Operation) (message : Message) :
    message.name.utf8ByteSize < (Request.codec.encode ⟨operation, [message]⟩).utf8ByteSize := by
  have literal := Tree.le_size_ofString message.name
  rw [size_request, size_message]
  simp only [Agent.texts, Tree.sizeMembers_cons]
  omega

/-- The reply to a creation is hardly larger than the envelope. -/
theorem size_recordsText_stored (ledger : Ledger) (fresh : String) (key : Agent.Key)
    (record : Record) :
    (Ledger.recordsText [ledger.stored fresh key record]).utf8ByteSize ≤
      (Request.codec.encode ⟨.post, [record.message key.location]⟩).utf8ByteSize +
        6 * ((ledger.stored fresh key record).id.getD "").utf8ByteSize + 100 := by
  have plain : (record.message key.location).status = none := rfl
  have marked := size_marked plain
    ((ledger.stored fresh key record).id.getD "") (ledger.provision key)
  have literal := Tree.size_ofString_le ((ledger.stored fresh key record).id.getD "")
  rw [size_recordsText, size_request, Ledger.reported_stored]
  simp only [statusSize] at marked
  omega

theorem size_verdict_le (verdict : Agent.Verdict) :
    (Agent.Verdict.codec.encode verdict).utf8ByteSize ≤ (Tree.ofString verdict.error).size + 40 := by
  have tree : Agent.Verdict.codec.toTree verdict = .ofMembers
      [("result", .ofMembers [("value", .ofBool verdict.accepted)]),
        ("error", .ofString verdict.error)] := rfl
  have result : (Tree.ofString "result").size = 8 := by decide +kernel
  have value : (Tree.ofString "value").size = 7 := by decide +kernel
  have error : (Tree.ofString "error").size = 7 := by decide +kernel
  have flag : (Tree.ofBool verdict.accepted).size ≤ 5 := by
    cases verdict.accepted <;> decide +kernel
  rw [Json.Codec.encode, Tree.utf8ByteSize_text, tree, Tree.size_ofMembers (by simp)]
  simp only [Tree.sizeMembers_cons, Tree.sizeMembers_nil, Tree.size_ofMembers (List.cons_ne_nil _ _),
    result, value, error]
  omega

theorem size_assigned (address holder : String) :
    (Tree.ofString (Agent.assigned address holder)).size =
      (Tree.ofString address).size + (Tree.ofString holder).size + 35 := by
  have first : (Tree.ofString "IP address ").size = 13 := by decide +kernel
  have second : (Tree.ofString " is already assigned to [").size = 27 := by decide +kernel
  have third : (Tree.ofString "]").size = 3 := by decide +kernel
  have start := Tree.size_ofString_append "IP address " address
  have middle := Tree.size_ofString_append ("IP address " ++ address) " is already assigned to ["
  have named := Tree.size_ofString_append
    ("IP address " ++ address ++ " is already assigned to [") holder
  have ending := Tree.size_ofString_append
    ("IP address " ++ address ++ " is already assigned to [" ++ holder) "]"
  unfold Agent.assigned
  omega

namespace Agent.Uuid

theorem length_digits (count n : Nat) : (digits count n).length = count := by
  induction count generalizing n with
  | zero => rfl
  | succ count ih => simp [digits, ih]

theorem utf8Size_digitChar {d : Nat} (digit : d < 16) : (Nat.digitChar d).utf8Size = 1 := by
  have all : ∀ d < 16, (Nat.digitChar d).utf8Size = 1 := by decide
  exact all d digit

theorem utf8Size_digits {count n : Nat} {c : Char} (mem : c ∈ digits count n) : c.utf8Size = 1 := by
  induction count generalizing n with
  | zero => simp [digits] at mem
  | succ count ih =>
    rw [digits, List.mem_append, List.mem_singleton] at mem
    rcases mem with mem | rfl
    · exact ih mem
    · exact utf8Size_digitChar (Nat.mod_lt _ (by decide))

theorem bytes_group (n start count : Nat) (within : start + count ≤ 30) :
    Json.bytes (((digits 30 n).drop start).take count) = count := by
  have ascii : ∀ c ∈ ((digits 30 n).drop start).take count, c.utf8Size = 1 := fun c mem =>
    utf8Size_digits (List.mem_of_mem_drop (List.mem_of_mem_take mem))
  rw [Json.bytes_of_ascii ascii, List.length_take, List.length_drop, length_digits]
  omega

theorem utf8ByteSize_text (n : Nat) : (text n).utf8ByteSize = 36 := by
  have variant : (Nat.digitChar (8 + n / Nat.pow 16 30 % 4)).utf8Size = 1 :=
    utf8Size_digitChar (by omega)
  have dash : '-'.utf8Size = 1 := by decide
  have version : '4'.utf8Size = 1 := by decide
  unfold text
  rw [Json.utf8ByteSize_ofList]
  simp only [Json.bytes_append, Json.bytes_cons, Json.bytes_nil, variant, dash, version]
  rw [bytes_group n 0 8 (by decide), bytes_group n 8 4 (by decide), bytes_group n 12 3 (by decide),
    bytes_group n 15 3 (by decide), bytes_group n 18 12 (by decide)]

end Agent.Uuid

end PublicIp
