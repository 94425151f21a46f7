import PublicIp.Proofs.Json.Depth
import PublicIp.Proofs.RoundTrip

/-!
# Both sides have one format

Client and agent each have a schema of their own for what they exchange. What a client writes, the
agent reads as the corresponding entries, and what the agent answers, the client reads as a message
for each entry (`schemas_agree`). Since an entry may hold more than a message, not every answer is
read: `Entry.ReadAs` says which entries are, and as what.
-/

namespace PublicIp

open Json

/-- The word that is read for one of an entry, which may be empty. -/
def Chosen (names : List String) (default word choice : String) : Prop :=
  word = "" ∧ choice = default ∨ word ≠ "" ∧ word ∈ names ∧ choice = word

theorem Allocation.chosen_iff {word : String} {allocation : Allocation} :
    (∃ choice, Chosen ["Static", "Dynamic"] "Dynamic" word choice ∧
      ofWord? choice = some allocation) ↔
      allocation.word = word ∨ word = "" ∧ allocation = .dynamic := by
  have meaning (choice : String) : ofWord? choice = some allocation ↔ choice = allocation.word := by
    unfold ofWord?
    split <;> cases allocation <;> simp_all [Allocation.word]
  simp only [meaning, exists_eq_right, Chosen]
  cases allocation <;> simp only [Allocation.word] <;> grind

theorem Allocation.exists_word_iff {word : String} :
    (∃ allocation : Allocation, allocation.word = word ∨ word = "" ∧ allocation = .dynamic) ↔
      word ∈ ["", "Dynamic", "Static"] := by
  constructor
  · rintro ⟨allocation, named | ⟨empty, -⟩⟩
    · cases allocation <;> simp [← named, Allocation.word]
    · simp [empty]
  · intro mem
    simp only [List.mem_cons, List.not_mem_nil, or_false] at mem
    rcases mem with rfl | rfl | rfl
    · exact ⟨.dynamic, .inr ⟨rfl, rfl⟩⟩
    · exact ⟨.dynamic, .inl rfl⟩
    · exact ⟨.static, .inl rfl⟩

theorem IpVersion.chosen_iff {word : String} {version : IpVersion} :
    (∃ choice, Chosen ["IPv4", "IPv6"] "IPv4" word choice ∧ ofWord? choice = some version) ↔
      version.word = word ∨ word = "" ∧ version = .v4 := by
  have meaning (choice : String) : ofWord? choice = some version ↔ choice = version.word := by
    unfold ofWord?
    split <;> cases version <;> simp_all [IpVersion.word]
  simp only [meaning, exists_eq_right, Chosen]
  cases version <;> simp only [IpVersion.word] <;> grind

theorem IpVersion.exists_word_iff {word : String} :
    (∃ version : IpVersion, version.word = word ∨ word = "" ∧ version = .v4) ↔
      word ∈ ["", "IPv4", "IPv6"] := by
  constructor
  · rintro ⟨version, named | ⟨empty, -⟩⟩
    · cases version <;> simp [← named, IpVersion.word]
    · simp [empty]
  · intro mem
    simp only [List.mem_cons, List.not_mem_nil, or_false] at mem
    rcases mem with rfl | rfl | rfl
    · exact ⟨.v4, .inr ⟨rfl, rfl⟩⟩
    · exact ⟨.v4, .inl rfl⟩
    · exact ⟨.v6, .inl rfl⟩

namespace Agent

/-- Whether the client reads an entry as a message: texts are equal, an absent allocation or version
means the first one, and status and tags are read from what the agent keeps. -/
structure Entry.ReadAs (entry : Entry) (message : Message) : Prop where
  name : message.name = entry.name
  id : message.id = entry.id
  location : message.location = entry.location
  ipAddress : message.ipAddress = entry.ipAddress
  allocation : message.allocation.word = entry.allocation ∨
    entry.allocation = "" ∧ message.allocation = .dynamic
  ipVersion : message.ipVersion.word = entry.ipVersion ∨
    entry.ipVersion = "" ∧ message.ipVersion = .v4
  label : message.label = entry.label
  reverseFqdn : message.reverseFqdn = entry.reverseFqdn
  status : Option.Rel (fun value status =>
    Status.codec.decodeString (Codec.raw.encode value) = .ok status) entry.status message.status
  tags : Option.Rel (fun value tags =>
    Tag.listCodec.decodeString (Codec.raw.encode value) = .ok tags) entry.tags message.tags

open Schema (FieldReader written)

section Parts

variable {name : String} {depth : Nat} {slot : Option Datum}

/-- A word of an entry is read as one of some names, or as the default if it is empty. -/
theorem take_word_iff {names : List String} {default word : String} :
    FieldReader.take ⟨name, .defaulted (.choice default) false, (Schema.choice names).read⟩ depth
        (written (Entry.optionalText name) (some (.text word))) = .ok slot ↔
      ∃ choice, slot = some (.choice choice) ∧ Chosen names default word choice := by
  by_cases empty : word = ""
  · subst empty
    have absent : FieldReader.take
        ⟨name, .defaulted (.choice default) false, (Schema.choice names).read⟩ depth
          (written (Entry.optionalText name) (some (.text ""))) = .ok (some (.choice default)) := rfl
    simp [absent, Chosen, eq_comm]
  · have shown : written (Entry.optionalText name) (some (.text word)) = some (.ofString word) := by
      simp [written, Entry.optionalText, Schema.hides, Schema.isBlank, empty, Schema.write]
    have read : FieldReader.take
        ⟨name, .defaulted (.choice default) false, (Schema.choice names).read⟩ depth
          (some (.ofString word)) = some <$> Schema.readName names word := rfl
    rw [shown, read]
    by_cases mem : word ∈ names <;>
      simp [Schema.readName, Chosen, mem, empty, Functor.map, Except.map, eq_comm]

theorem take_raw_iff {α : Type} {codec : Codec α} {positional : Bool} {value : Option Value}
    (present : value ≠ some .null) {part : Option α} :
    (∃ slot, FieldReader.take ⟨name, .optional positional, codec.schema.read⟩ depth
        (written ⟨name, .optional positional, .raw⟩ (Codec.raw.toSlot value)) = .ok slot ∧
          codec.ofSlot? slot = some part) ↔
      Option.Rel (fun value => codec.Reads depth value.tree) value part := by
  cases value with
  | none =>
    constructor
    · rintro ⟨slot, taken, meaning⟩
      obtain rfl := Except.ok.inj taken
      obtain rfl := Option.some.inj meaning
      exact .none
    · rintro ⟨⟩
      exact ⟨none, rfl, rfl⟩
  | some value =>
    have other : value ≠ .null := fun same => present (same ▸ rfl)
    have taken : FieldReader.take ⟨name, .optional positional, codec.schema.read⟩ depth
        (some value.tree) = some <$> codec.schema.read depth value.tree := by
      cases value with
      | null => exact absurd rfl other
      | _ => rfl
    show (∃ slot, FieldReader.take _ depth (some value.tree) = _ ∧ _) ↔ _
    rw [taken]
    simp only [map_eq_ok_iff]
    constructor
    · rintro ⟨_, ⟨datum, read, rfl⟩, meaning⟩
      obtain ⟨found, known, rfl⟩ := Option.map_eq_some_iff.1 meaning
      exact .some ⟨datum, read, known⟩
    · rintro (⟨datum, read, known⟩ | _)
      exact ⟨some datum, ⟨datum, read, rfl⟩, by rw [Codec.ofSlot?, known]; rfl⟩

end Parts

theorem decodeString_raw_iff {α : Type} {codec : Codec α} (regular : codec.schema.fixed = true)
    {depth : Nat} (low : codec.schema.height ≤ depth) (bound : depth ≤ depthLimit) {value : Value}
    {part : α} :
    codec.decodeString (Codec.raw.encode value) = .ok part ↔ codec.Reads depth value.tree part :=
  (Codec.decodeString_text_iff value.written_tree).trans
    (Codec.reads_congr regular (Nat.le_trans low bound) low)

theorem reads_entry_iff {depth : Nat} (low : 3 ≤ depth) (bound : depth ≤ depthLimit) {entry : Entry}
    {message : Message} (status : entry.status ≠ some .null) (tags : entry.tags ≠ some .null) :
    Message.codec.Reads (depth + 1) (Entry.codec.toTree entry) message ↔ entry.ReadAs message := by
  have statusAlone (value : Value) (part : Status) :=
    @decodeString_raw_iff _ Status.codec (by decide) depth (Nat.le_trans (by decide) low) bound
      value part
  have tagsAlone (value : Value) (part : List Tag) :=
    @decodeString_raw_iff _ Tag.listCodec (by decide) depth (Nat.le_trans (by decide) low) bound
      value part
  constructor
  · rintro ⟨datum, read, meaning⟩
    obtain ⟨results, each, rfl⟩ := (Schema.readRecord_writeFields_iff rfl (by decide) rfl).1 read
    obtain _ | ⟨name, _ | ⟨id, _ | ⟨location, _ | ⟨ipAddress, _ | ⟨allocation, _ | ⟨ipVersion,
      _ | ⟨label, _ | ⟨reverseFqdn, _ | ⟨statusTaken, _ | ⟨tagsTaken, _ | _⟩⟩⟩⟩⟩⟩⟩⟩⟩⟩ := each
    obtain rfl := Except.ok.inj name
    obtain rfl := Except.ok.inj id
    obtain rfl := Except.ok.inj location
    obtain rfl := Except.ok.inj ipAddress
    obtain rfl := Except.ok.inj label
    obtain rfl := Except.ok.inj reverseFqdn
    obtain ⟨word, rfl, chosen⟩ := take_word_iff.1 allocation
    obtain ⟨version, rfl, picked⟩ := take_word_iff.1 ipVersion
    obtain ⟨allocation, known, later⟩ := Option.bind_eq_some_iff.1 meaning
    obtain ⟨ipVersion, understood, later⟩ := Option.bind_eq_some_iff.1 later
    obtain ⟨statusPart, first, later⟩ := Option.bind_eq_some_iff.1 later
    obtain ⟨tagsPart, second, same⟩ := Option.bind_eq_some_iff.1 later
    obtain rfl := Option.some.inj same
    refine ⟨rfl, rfl, rfl, rfl, ?_, ?_, rfl, rfl, ?_, ?_⟩
    · exact Allocation.chosen_iff.1 ⟨word, chosen, known⟩
    · exact IpVersion.chosen_iff.1 ⟨version, picked, understood⟩
    · simp only [statusAlone]
      exact (take_raw_iff status).1 ⟨_, statusTaken, first⟩
    · simp only [tagsAlone]
      exact (take_raw_iff tags).1 ⟨_, tagsTaken, second⟩
  · obtain ⟨name, id, location, ipAddress, allocation, ipVersion, label, reverseFqdn, statusPart,
      tagsPart⟩ := message
    rintro ⟨rfl, rfl, rfl, rfl, allocationRead, ipVersionRead, rfl, rfl, statusRead, tagsRead⟩
    simp only [statusAlone] at statusRead
    simp only [tagsAlone] at tagsRead
    obtain ⟨word, chosen, known⟩ := Allocation.chosen_iff.2 allocationRead
    obtain ⟨version, picked, understood⟩ := IpVersion.chosen_iff.2 ipVersionRead
    obtain ⟨statusSlot, statusTaken, first⟩ := (take_raw_iff status).2 statusRead
    obtain ⟨tagsSlot, tagsTaken, second⟩ := (take_raw_iff tags).2 tagsRead
    refine ⟨_, (Schema.readRecord_writeFields_iff rfl (by decide) rfl).2 ⟨_,
      .cons rfl <| .cons rfl <| .cons rfl <| .cons rfl <|
      .cons (take_word_iff.2 ⟨word, rfl, chosen⟩) <|
      .cons (take_word_iff.2 ⟨version, rfl, picked⟩) <| .cons rfl <| .cons rfl <|
      .cons statusTaken <| .cons tagsTaken .nil, rfl⟩, ?_⟩
    exact Option.bind_eq_some_iff.2 ⟨allocation, known,
      Option.bind_eq_some_iff.2 ⟨ipVersion, understood,
      Option.bind_eq_some_iff.2 ⟨statusPart, first,
      Option.bind_eq_some_iff.2 ⟨tagsPart, second, rfl⟩⟩⟩⟩

/-- Whether the client can read an entry. -/
structure Entry.Readable (entry : Entry) : Prop where
  allocation : entry.allocation ∈ ["", "Dynamic", "Static"]
  ipVersion : entry.ipVersion ∈ ["", "IPv4", "IPv6"]
  status : ∀ value, entry.status = some value →
    ∃ status, Status.codec.decodeString (Codec.raw.encode value) = .ok status
  tags : ∀ value, entry.tags = some value →
    ∃ tags, Tag.listCodec.decodeString (Codec.raw.encode value) = .ok tags

theorem exists_rel_iff {α β : Type} {r : α → β → Prop} {value : Option α} :
    (∃ other, Option.Rel r value other) ↔ ∀ a, value = some a → ∃ b, r a b := by
  cases value with
  | none => simpa using ⟨none, Option.Rel.none⟩
  | some a =>
    constructor
    · rintro ⟨_, ⟨related⟩⟩ _ ⟨⟩
      exact ⟨_, related⟩
    · intro each
      obtain ⟨b, related⟩ := each a rfl
      exact ⟨some b, .some related⟩

theorem exists_forall₂_iff {α β : Type} {r : α → β → Prop} {items : List α} :
    (∃ others, List.Forall₂ r items others) ↔ ∀ a ∈ items, ∃ b, r a b := by
  induction items with
  | nil => exact ⟨fun _ _ mem => absurd mem List.not_mem_nil, fun _ => ⟨[], .nil⟩⟩
  | cons item rest ih =>
    rw [List.forall_mem_cons, ← ih]
    constructor
    · rintro ⟨_, _ | ⟨first, later⟩⟩
      exact ⟨⟨_, first⟩, _, later⟩
    · rintro ⟨⟨b, first⟩, others, later⟩
      exact ⟨b :: others, .cons first later⟩

theorem Entry.readable_iff {entry : Entry} : entry.Readable ↔ ∃ message, entry.ReadAs message := by
  constructor
  · rintro ⟨allocation, ipVersion, status, tags⟩
    obtain ⟨allocated, first⟩ := Allocation.exists_word_iff.2 allocation
    obtain ⟨version, second⟩ := IpVersion.exists_word_iff.2 ipVersion
    obtain ⟨statusPart, third⟩ := exists_rel_iff.2 status
    obtain ⟨tagsPart, fourth⟩ := exists_rel_iff.2 tags
    exact ⟨⟨entry.name, entry.id, entry.location, entry.ipAddress, allocated, version, entry.label,
      entry.reverseFqdn, statusPart, tagsPart⟩, rfl, rfl, rfl, rfl, first, second, rfl, rfl, third,
      fourth⟩
  · rintro ⟨message, read⟩
    exact ⟨Allocation.exists_word_iff.1 ⟨_, read.allocation⟩,
      IpVersion.exists_word_iff.1 ⟨_, read.ipVersion⟩, exists_rel_iff.1 ⟨_, read.status⟩,
      exists_rel_iff.1 ⟨_, read.tags⟩⟩

theorem read_answer_iff {depth : Nat} {answer : Answer} {datum : Datum} :
    Response.codec.schema.read (depth + 1) (Answer.codec.toTree answer) = .ok datum ↔
      ∃ addresses, Message.codec.list.schema.read depth (Entry.codec.list.toTree answer.entries) =
        .ok addresses ∧ datum = .record [some addresses, none, some (.text answer.error)] := by
  have admits : Schema.Admits [addressesField, "result", "error"]
      [(addressesField, Entry.codec.list.toTree answer.entries),
        ("error", .ofString answer.error)] := by
    constructor
    · show ([addressesField, "error"].filter (· ∈ [addressesField, "result", "error"])).Nodup
      decide
    · simp
  refine (Schema.readRecord_ofMembers_eq_ok_iff (by decide)).trans ?_
  constructor
  · rintro ⟨-, slots, given, rfl⟩
    obtain _ | ⟨addresses, _ | ⟨result, _ | ⟨error, _ | _⟩⟩⟩ := mapM_eq_ok_iff.1 given
    obtain rfl := Except.ok.inj result
    obtain rfl := Except.ok.inj error
    obtain ⟨items, read, rfl⟩ := map_eq_ok_iff.1 addresses
    exact ⟨items, read, rfl⟩
  · rintro ⟨addresses, read, rfl⟩
    refine ⟨admits, _, mapM_eq_ok_iff.2 (.cons ?_ (.cons rfl (.cons rfl .nil))), rfl⟩
    exact map_eq_ok_iff.2 ⟨addresses, read, rfl⟩

theorem forall₂_congr_of_mem {α β : Type} {r s : α → β → Prop} {items : List α} {others : List β}
    (same : ∀ a ∈ items, ∀ b, r a b ↔ s a b) :
    List.Forall₂ r items others ↔ List.Forall₂ s items others := by
  induction items generalizing others with
  | nil => simp only [List.forall₂_nil_left_iff]
  | cons item rest ih =>
    cases others with
    | nil => simp only [List.forall₂_nil_right_iff]
    | cons other others =>
      rw [List.forall₂_cons, List.forall₂_cons, same item List.mem_cons_self,
        ih fun a mem => same a (List.mem_cons_of_mem _ mem)]

/-- The client reads an answer as a message for each entry. -/
theorem decodeString_answer_iff {answer : Answer} {response : Response}
    (held : ∀ entry ∈ answer.entries, entry.status ≠ some .null ∧ entry.tags ≠ some .null) :
    Response.codec.decodeString (Answer.codec.encode answer) = .ok response ↔
      List.Forall₂ Entry.ReadAs answer.entries response.addresses ∧ response.result = none ∧
        response.error = answer.error := by
  have fits : Answer.codec.schema.Fits (fun _ _ => True) depthLimit (Answer.codec.toDatum answer) := by
    refine Answer.fits_iff.2 ⟨by decide, fun entry mem => Entry.fits_iff.2 ⟨by decide, ?_⟩⟩
    intro value among
    rcases List.mem_append.1 among with status | tags
    · exact ⟨trivial, fun same => (held entry mem).1 (same ▸ Option.mem_toList.1 status)⟩
    · exact ⟨trivial, fun same => (held entry mem).2 (same ▸ Option.mem_toList.1 tags)⟩
  have written : (Answer.codec.toTree answer).Written := Schema.written_write fits
  -- The entries stand two containers deep in the answer.
  have each : Message.codec.list.Reads (depthLimit - 1) (Entry.codec.list.toTree answer.entries)
      response.addresses ↔ List.Forall₂ Entry.ReadAs answer.entries response.addresses := by
    rw [Codec.toTree_list, show depthLimit - 1 = (depthLimit - 2) + 1 from rfl,
      Codec.reads_list_iff, List.forall₂_map_left_iff]
    exact forall₂_congr_of_mem fun entry mem message =>
      reads_entry_iff (by decide) (by decide) (held entry mem).1 (held entry mem).2
  rw [Codec.encode, Codec.decodeString_text_iff written, ← each]
  obtain ⟨addresses, result, error⟩ := response
  constructor
  · rintro ⟨datum, read, meaning⟩
    obtain ⟨items, inner, rfl⟩ := read_answer_iff.1 read
    obtain ⟨found, known, same⟩ := Option.bind_eq_some_iff.1 meaning
    obtain ⟨rfl, rfl, rfl⟩ := Response.mk.inj (Option.some.inj same)
    exact ⟨⟨items, inner, known⟩, rfl, rfl⟩
  · rintro ⟨⟨items, inner, known⟩, rfl, rfl⟩
    exact ⟨_, read_answer_iff.2 ⟨items, inner, rfl⟩,
      Option.bind_eq_some_iff.2 ⟨addresses, known, rfl⟩⟩

/-- Client and agent agree on their format. (a) The agent reads a message of a client as an entry that
the client reads as the message. (b) It reads both kinds of requests with their entries in order. (c)
The client reads an answer exactly if it can read each entry, as a message for each in order. (d) It
reads every verdict. -/
theorem schemas_agree :
    (∀ message, Entry.codec.decodeString (Message.codec.encode message) = .ok (.ofMessage message) ∧
      Message.codec.decodeString (Entry.codec.encode (.ofMessage message)) = .ok message) ∧
    (∀ request, Invocation.codec.decodeString (Request.codec.encode request) =
      .ok ⟨request.operation, request.addresses.map .ofMessage⟩) ∧
    (∀ request, precheckCodec.decodeString (PrecheckRequest.codec.encode request) =
      .ok (request.addresses.map .ofMessage)) ∧
    (∀ answer : Answer,
      (∀ entry ∈ answer.entries, entry.status ≠ some .null ∧ entry.tags ≠ some .null) →
      ((∃ response, Response.codec.decodeString (Answer.codec.encode answer) = .ok response) ↔
        ∀ entry ∈ answer.entries, entry.Readable) ∧
      ∀ response, Response.codec.decodeString (Answer.codec.encode answer) = .ok response →
        List.Forall₂ Entry.ReadAs answer.entries response.addresses ∧ response.result = none ∧
          response.error = answer.error) ∧
    ∀ verdict, PrecheckResponse.codec.decodeString (Verdict.codec.encode verdict) =
      .ok ⟨some verdict.accepted, verdict.error⟩ := by
  refine ⟨fun message => ⟨?_, ?_⟩, fun request => ?_, fun request => ?_, fun answer held => ⟨?_, ?_⟩,
    fun verdict => ?_⟩
  · exact (Entry.takes_message message).decodeString (by decide)
  · exact (takes_ofMessage message).decodeString (by decide)
  · exact (Invocation.takes_request request).decodeString (by decide)
  · exact (takes_precheck request).decodeString (by decide)
  · simp only [decodeString_answer_iff held, Entry.readable_iff, ← exists_forall₂_iff]
    constructor
    · rintro ⟨response, each, -, -⟩
      exact ⟨_, each⟩
    · rintro ⟨messages, each⟩
      exact ⟨⟨messages, none, answer.error⟩, each, rfl, rfl⟩
  · exact fun response => (decodeString_answer_iff held).1
  · exact (takes_verdict verdict).decodeString (by decide)

/-- An answer with an entry whose status has a member that the client does not know. -/
def strayAnswer : Answer where
  entries := [{ name := "pip1", ipVersion := "IPv6", status := some (.object
    [("extra", .array [.number (.natural 1), .null]),
      ("health", .object [("currentState", .text "Up")])]) }]
  error := "stale"

theorem schemas_agree_stray :
    (∀ entry ∈ strayAnswer.entries, entry.status ≠ some .null ∧ entry.tags ≠ some .null) ∧
      ∃ response, Response.codec.decodeString (Answer.codec.encode strayAnswer) = .ok response ∧
        List.Forall₂ Entry.ReadAs strayAnswer.entries response.addresses := by
  have held : ∀ entry ∈ strayAnswer.entries,
      entry.status ≠ some .null ∧ entry.tags ≠ some .null := by
    simp [strayAnswer]
  have readable : ∀ entry ∈ strayAnswer.entries, entry.Readable := by
    intro entry mem
    obtain rfl := List.mem_singleton.1 mem
    refine ⟨by decide, by decide, fun value same => ?_, fun value absent => nomatch absent⟩
    obtain rfl := Option.some.inj same
    exact ⟨{ health := some "Up" }, (Codec.decodeString_text_iff (Value.written_tree _)).2
      ⟨_, rfl, rfl⟩⟩
  obtain ⟨accepted, result⟩ := schemas_agree.2.2.2.1 strayAnswer held
  obtain ⟨response, decoded⟩ := accepted.2 readable
  exact ⟨held, response, decoded, (result response decoded).1⟩

end Agent

end PublicIp
