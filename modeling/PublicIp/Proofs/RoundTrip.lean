import PublicIp.Proofs.Agent.Messages
import PublicIp.Proofs.Json.Fitting

/-!
# Decoding what was encoded

What a codec encodes, it decodes as the same value. That holds of all values of a client
(`Codec.Total`), and of the values of the agent that were decoded from some text, if the numbers in
what they keep as it comes are whole. It follows that a text is written again in one form, whatever
its form was, and that different values have different texts (`Codec.ExactOn`).
-/

namespace PublicIp

open Json

namespace Json.Codec

variable {α : Type} {codec : Codec α}

theorem decode_eq_ok {symbols : List Text.Symbol} {value : α}
    (accepted : codec.decode symbols = .ok value) :
    ∃ tree datum, codec.schema.read depthLimit tree = .ok datum ∧
      codec.ofDatum? datum = some value := by
  unfold decode at accepted
  generalize Tree.read (tokens symbols) = parsed at accepted
  obtain ⟨tree, rest⟩ := parsed
  obtain ⟨found, read, last⟩ := bind_eq_ok_iff.1 accepted
  obtain ⟨datum, read, later⟩ := bind_eq_ok_iff.1 read
  refine ⟨tree, datum, read, ?_⟩
  split at last
  · obtain rfl := Except.ok.inj last
    split at later
    · next same =>
      obtain rfl := Except.ok.inj later
      exact same
    · cases later
  · cases last

def normalize (codec : Codec α) (text : String) : Except Fault String :=
  codec.encode <$> codec.decodeString text

/-- Whether a codec decodes the texts of some values as these values. A text that is accepted as one
of them is then written again in a form that does not change any more, and different ones have
different texts. -/
structure ExactOn (codec : Codec α) (values : α → Prop) : Prop where
  decode_encode : ∀ value, values value → codec.decodeString (codec.encode value) = .ok value
  idempotent : ∀ text value, codec.decodeString text = .ok value → values value →
    ∃ written, codec.normalize text = .ok written ∧ codec.normalize written = .ok written
  injective : ∀ a b, values a → values b → codec.encode a = codec.encode b → a = b

theorem ExactOn.of_decode_encode {values : α → Prop}
    (exact : ∀ value, values value → codec.decodeString (codec.encode value) = .ok value) :
    codec.ExactOn values where
  decode_encode := exact
  idempotent text value accepted among := by
    refine ⟨codec.encode value, ?_, ?_⟩
    · rw [normalize, accepted]
      rfl
    · rw [normalize, exact value among]
      rfl
  injective a b left right same := by
    have read := exact a left
    rw [same, exact b right] at read
    exact (Except.ok.inj read).symm

theorem decodeString_encode {keeps : Nat → Value → Prop} (again : Schema.Rereads keeps)
    (sound : codec.schema.sound = true) {value : α}
    (fits : codec.schema.Fits keeps depthLimit (codec.toDatum value))
    (faithful : codec.ofDatum? (codec.toDatum value) = some value) :
    codec.decodeString (codec.encode value) = .ok value := by
  have written : (codec.toTree value).Written := Schema.written_write fits
  have read : codec.schema.read depthLimit (codec.toTree value) = .ok (codec.toDatum value) :=
    Schema.read_write again sound fits
  rw [encode, decodeString_text codec written.whole written.legible, ofTree, read]
  simp only [bind, Except.bind, faithful]
  rfl

/-- Whether every datum comes back from what it means. -/
def Lossless (codec : Codec α) : Prop :=
  ∀ datum value, codec.ofDatum? datum = some value → codec.toDatum value = datum

theorem Lossless.list (lossless : codec.Lossless) : codec.list.Lossless := by
  intro datum values meaning
  match datum with
  | .list items =>
    have each : items.mapM codec.ofDatum? = some values := meaning
    have back : values.map codec.toDatum = items := by
      have related := mapM_eq_some_iff.1 each
      clear meaning each
      induction related with
      | nil => rfl
      | cons first _ ih => rw [List.map_cons, lossless _ _ first, ih]
    rw [← back]
    rfl

theorem Lossless.slot (lossless : codec.Lossless) {slot : Option Datum} {value : Option α}
    (meaning : codec.ofSlot? slot = some value) : codec.toSlot value = slot := by
  cases slot with
  | none =>
    obtain rfl := Option.some.inj meaning
    rfl
  | some datum =>
    obtain ⟨found, inner, rfl⟩ := Option.map_eq_some_iff.1 meaning
    rw [toSlot, Option.map_some, lossless datum found inner]

/-- A value that a text was decoded as. -/
def Accepts (codec : Codec α) (value : α) : Prop := ∃ symbols, codec.decode symbols = .ok value

/-- The datum of a value that a text was decoded as has the shape of the schema, and means the
value. -/
theorem Accepts.fits {value : α} (accepted : codec.Accepts value)
    (sound : codec.schema.sound = true) (bound : codec.schema.height ≤ depthLimit)
    (lossless : codec.Lossless) :
    codec.schema.Fits Schema.Kept depthLimit (codec.toDatum value) ∧
      codec.ofDatum? (codec.toDatum value) = some value := by
  obtain ⟨symbols, decoded⟩ := accepted
  obtain ⟨tree, datum, read, meaning⟩ := decode_eq_ok decoded
  rw [lossless datum value meaning]
  exact ⟨Schema.fits_of_read sound bound read, meaning⟩

/-- Whether a codec writes all its values without values kept as they come, and gives them back. -/
structure Total (codec : Codec α) : Prop where
  sound : codec.schema.sound = true
  fits : ∀ depth, codec.schema.height ≤ depth → ∀ value,
    codec.schema.Fits (fun _ _ => False) depth (codec.toDatum value)
  faithful : codec.Faithful

namespace Total

theorem exactOn (total : codec.Total) (bound : codec.schema.height ≤ depthLimit) :
    codec.ExactOn fun _ => True :=
  .of_decode_encode fun value _ => decodeString_encode (fun _ _ kept => kept.elim) total.sound
    (total.fits _ bound value) (total.faithful value)

theorem ne_null (total : codec.Total) (value : α) : codec.toDatum value ≠ .raw .null := by
  intro same
  have fits := total.fits _ (Nat.le_refl _) value
  rw [same] at fits
  generalize codec.schema = schema at fits
  cases schema <;> exact fits.elim

/-- A field that is always there. -/
theorem suits (total : codec.Total) {room depth : Nat} (deep : room < depth)
    (low : codec.schema.height ≤ room) (presence : Presence) (value : α) :
    Schema.Suits presence (codec.schema.Fits (fun _ _ => False) (depth - 1))
      (some (codec.toDatum value)) :=
  ⟨total.fits _ (by omega) value, fun _ => total.ne_null value⟩

theorem suits_slot (total : codec.Total) {room depth : Nat} (deep : room < depth)
    (low : codec.schema.height ≤ room) (positional : Bool) (value : Option α) :
    Schema.Suits (.optional positional) (codec.schema.Fits (fun _ _ => False) (depth - 1))
      (codec.toSlot value) := by
  cases value with
  | none => rfl
  | some value => exact total.suits deep low _ value

theorem list (total : codec.Total) : codec.list.Total where
  sound := total.sound
  fits depth bound values := by
    have deep : codec.schema.height + 1 ≤ depth := bound
    refine ⟨by omega, fun datum mem => ?_⟩
    obtain ⟨value, -, rfl⟩ := List.mem_map.1 mem
    exact total.fits _ (by omega) value
  faithful := total.faithful.list

end Total

theorem total_text : Codec.text.Total := ⟨rfl, fun _ _ _ => trivial, fun _ => rfl⟩

theorem total_map : Codec.map.Total := ⟨rfl, fun _ bound _ => bound, fun _ => rfl⟩

theorem total_wrappedText (name : String) : (Codec.wrappedText name).Total where
  sound := by simp [wrappedText, Schema.sound, Schema.soundFields, Field.text, Schema.stands, Schema.isPlain]
  fits depth bound s := ⟨bound, total_text.suits bound (Nat.zero_le _) _ s, trivial⟩
  faithful _ := rfl

end Json.Codec

theorem total_minutes : minutesCodec.Total where
  sound := rfl
  fits _ _ minutes := minutes.toNat_lt
  faithful minutes := by simp [minutesCodec]

theorem Allocation.total : Allocation.codec.Total where
  sound := rfl
  fits _ _ allocation := by cases allocation <;> simp [codec, Schema.Fits, word]
  faithful := Allocation.faithful

theorem IpVersion.total : IpVersion.codec.Total where
  sound := rfl
  fits _ _ version := by cases version <;> simp [codec, Schema.Fits, word]
  faithful := IpVersion.faithful

theorem Operation.total : Operation.codec.Total where
  sound := rfl
  fits _ _ operation := by cases operation <;> simp [codec, Schema.Fits, word]
  faithful := Agent.Operation.faithful

theorem DnsSettings.total : DnsSettings.codec.Total where
  sound := by decide
  fits depth bound settings := by
    have deep : 0 < depth := bound
    have text := Codec.total_text.suits_slot deep (by decide) false
    exact ⟨deep, text _, text _, text _, trivial⟩
  faithful settings := by
    simp only [codec, Codec.toSlot, Codec.total_text.faithful.slot]
    rfl

theorem Properties.total : Properties.codec.Total where
  sound := by decide
  fits depth bound properties := by
    have deep : 1 < depth := bound
    exact ⟨by omega, Codec.total_text.suits_slot deep (by decide) _ _,
      Allocation.total.suits_slot deep (by decide) _ _,
      IpVersion.total.suits_slot deep (by decide) _ _,
      DnsSettings.total.suits_slot deep (by decide) _ _,
      total_minutes.suits_slot deep (by decide) _ _,
      Codec.total_map.suits deep (by decide) _ _, trivial⟩
  faithful properties := by
    simp only [codec, Codec.toSlot, Codec.total_text.faithful.slot, Allocation.faithful.slot,
      IpVersion.faithful.slot, DnsSettings.total.faithful.slot, total_minutes.faithful.slot]
    rfl

theorem Record.total : Record.codec.Total where
  sound := by decide
  fits depth bound record := by
    have deep : 2 < depth := bound
    have text := Codec.total_text.suits_slot deep (by decide) false
    exact ⟨by omega, text _, text _, text _, text _,
      Codec.total_map.suits_slot deep (by decide) _ _,
      Properties.total.suits_slot deep (by decide) _ _, trivial⟩
  faithful record := by
    simp only [codec, Codec.toSlot, Codec.total_text.faithful.slot, Codec.total_map.faithful.slot,
      Properties.total.faithful.slot]
    rfl

theorem Tag.total : Tag.codec.Total where
  sound := by decide
  fits depth bound tag := by
    have deep : 0 < depth := bound
    have text := Codec.total_text.suits deep (by decide)
    exact ⟨deep, text _ _, text _ _, trivial⟩
  faithful := Tag.faithful

theorem Tag.total_list : Tag.listCodec.Total where
  sound := by decide
  fits depth bound tags := by
    have deep : 2 < depth := bound
    exact ⟨by omega, Tag.total.list.suits deep (by decide) _ tags, trivial⟩
  faithful := Tag.faithful_list

theorem Status.total : Status.codec.Total where
  sound := by decide
  fits depth bound status := by
    have deep : 1 < depth := bound
    have part (name : String) := (Codec.total_wrappedText name).suits_slot deep (Nat.le_refl 1) true
    exact ⟨by omega, part _ _, part _ _, part _ _, part _ _, trivial⟩
  faithful := Status.faithful

theorem Message.total : Message.codec.Total where
  sound := by decide
  fits depth bound message := by
    have deep : 3 < depth := bound
    have text := Codec.total_text.suits deep (by decide)
    exact ⟨by omega, text _ _, text _ _, text _ _, text _ _,
      Allocation.total.suits deep (by decide) _ _, IpVersion.total.suits deep (by decide) _ _,
      text _ _, text _ _, Status.total.suits_slot deep (by decide) _ _,
      Tag.total_list.suits_slot deep (by decide) _ _, trivial⟩
  faithful := faithful_message

theorem total_verdict : verdictCodec.Total where
  sound := by decide
  fits _ bound _ := ⟨bound, ⟨trivial, fun _ => nofun⟩, trivial⟩
  faithful _ := rfl

theorem Request.total : Request.codec.Total where
  sound := by decide
  fits depth bound request := by
    have deep : 5 < depth := bound
    exact ⟨by omega, Operation.total.suits deep (by decide) _ _,
      Message.total.list.suits deep (by decide) _ request.addresses, trivial⟩
  faithful request := by
    simp only [codec, Operation.total.faithful request.operation,
      Message.total.faithful.list request.addresses]
    rfl

theorem Response.total : Response.codec.Total where
  sound := by decide
  fits depth bound response := by
    have deep : 5 < depth := bound
    exact ⟨by omega, Message.total.list.suits deep (by decide) _ response.addresses,
      total_verdict.suits_slot deep (by decide) _ _,
      Codec.total_text.suits deep (by decide) _ _, trivial⟩
  faithful response := by
    simp only [codec, Codec.toSlot, Message.total.faithful.list response.addresses,
      total_verdict.faithful.slot]
    rfl

theorem PrecheckRequest.total : PrecheckRequest.codec.Total where
  sound := by decide
  fits depth bound request := by
    have deep : 5 < depth := bound
    exact ⟨by omega, Message.total.list.suits deep (by decide) _ request.addresses, trivial⟩
  faithful request := by
    simp only [codec, Message.total.faithful.list request.addresses]
    rfl

theorem PrecheckResponse.total : PrecheckResponse.codec.Total where
  sound := by decide
  fits depth bound response := by
    have deep : 1 < depth := bound
    exact ⟨by omega, total_verdict.suits_slot deep (by decide) _ _,
      Codec.total_text.suits deep (by decide) _ _, trivial⟩
  faithful response := by
    simp only [codec, Codec.toSlot, total_verdict.faithful.slot]
    rfl

namespace Agent

theorem total_accepted : acceptedCodec.Total where
  sound := by decide
  fits _ bound _ := ⟨bound, ⟨trivial, fun _ => nofun⟩, trivial⟩
  faithful _ := rfl

theorem Verdict.total : Verdict.codec.Total where
  sound := by decide
  fits depth bound verdict := by
    have deep : 1 < depth := bound
    exact ⟨by omega, total_accepted.suits deep (by decide) _ _,
      Codec.total_text.suits deep (by decide) _ _, trivial⟩
  faithful _ := rfl

namespace Entry

def raws (entry : Entry) : List Value := entry.status.toList ++ entry.tags.toList

/-- Whether the numbers in what an entry keeps are whole. -/
def Integral (entry : Entry) : Prop := ∀ value ∈ entry.raws, value.Integral

theorem suits_raw (positional : Bool) {keeps : Nat → Value → Prop} {depth : Nat}
    {value : Option Value} :
    Schema.Suits (.optional positional) (Schema.Fits keeps .raw depth) (Codec.raw.toSlot value) ↔
      ∀ held ∈ value.toList, keeps depth held ∧ held ≠ .null := by
  cases value with
  | none => simp [Codec.toSlot, Schema.Suits, Presence.isOptional]
  | some value =>
    simp [Codec.toSlot, Codec.raw, Schema.Suits, Schema.Fits, Presence.isOptional]

theorem fits_iff {keeps : Nat → Value → Prop} {depth : Nat} {entry : Entry} :
    Entry.codec.schema.Fits keeps depth (Entry.codec.toDatum entry) ↔
      0 < depth ∧ ∀ value ∈ entry.raws, keeps (depth - 1) value ∧ value ≠ .null := by
  have text (presence : Presence) (s : String) :
      Schema.Suits presence (Schema.Fits keeps .text (depth - 1)) (some (.text s)) :=
    ⟨trivial, fun _ => nofun⟩
  have inner : (∀ value ∈ entry.raws, keeps (depth - 1) value ∧ value ≠ .null) ↔
      (∀ value ∈ entry.status.toList, keeps (depth - 1) value ∧ value ≠ .null) ∧
        ∀ value ∈ entry.tags.toList, keeps (depth - 1) value ∧ value ≠ .null :=
    List.forall_mem_append
  rw [inner, ← suits_raw true, ← suits_raw true]
  constructor
  · rintro ⟨deep, -, -, -, -, -, -, -, -, status, tags, -⟩
    exact ⟨deep, status, tags⟩
  · rintro ⟨deep, status, tags⟩
    exact ⟨deep, text _ _, text _ _, text _ _, text _ _, text _ _, text _ _, text _ _, text _ _,
      status, tags, trivial⟩

theorem lossless_raw : Codec.raw.Lossless := by
  intro datum value meaning
  match datum with
  | .raw kept =>
    obtain rfl := Option.some.inj meaning
    rfl

theorem lossless : Entry.codec.Lossless := by
  intro datum entry meaning
  simp only [Entry.codec] at meaning
  split at meaning
  · obtain ⟨status, first, remaining⟩ := Option.bind_eq_some_iff.1 meaning
    obtain ⟨tags, second, same⟩ := Option.bind_eq_some_iff.1 remaining
    obtain rfl := Option.some.inj same
    simp only [Entry.codec, lossless_raw.slot first, lossless_raw.slot second]
  · cases meaning

end Entry

namespace Answer

theorem lossless : Answer.codec.Lossless := by
  intro datum answer meaning
  simp only [Answer.codec] at meaning
  split at meaning
  · obtain ⟨entries, first, same⟩ := Option.bind_eq_some_iff.1 meaning
    obtain rfl := Option.some.inj same
    simp only [Answer.codec, Entry.lossless.list _ _ first]
  · cases meaning

theorem fits_iff {keeps : Nat → Value → Prop} {depth : Nat} {answer : Answer} :
    Answer.codec.schema.Fits keeps depth (Answer.codec.toDatum answer) ↔
      1 < depth ∧ ∀ entry ∈ answer.entries,
        Entry.codec.schema.Fits keeps (depth - 2) (Entry.codec.toDatum entry) := by
  constructor
  · rintro ⟨deep, ⟨⟨deeper, each⟩, -⟩, -, -⟩
    refine ⟨by omega, fun entry mem => ?_⟩
    exact each _ (List.mem_map_of_mem mem)
  · rintro ⟨deep, each⟩
    refine ⟨by omega, ⟨⟨by omega, fun datum mem => ?_⟩, fun _ => nofun⟩,
      ⟨trivial, fun _ => nofun⟩, trivial⟩
    obtain ⟨entry, among, rfl⟩ := List.mem_map.1 mem
    exact each entry among

end Answer

/-- A value that was read and has only whole numbers. -/
def Settled (depth : Nat) (value : Value) : Prop := Schema.Kept depth value ∧ value.Integral

theorem rereads_settled : Schema.Rereads Settled := fun _ _ ⟨⟨_, read⟩, integral⟩ =>
  Value.read_tree read integral

theorem Entry.settled {depth : Nat} {entry : Entry} (integral : entry.Integral)
    (fits : Entry.codec.schema.Fits Schema.Kept depth (Entry.codec.toDatum entry)) :
    Entry.codec.schema.Fits Settled depth (Entry.codec.toDatum entry) := by
  obtain ⟨deep, kept⟩ := Entry.fits_iff.1 fits
  refine Entry.fits_iff.2 ⟨deep, fun value mem => ?_⟩
  exact ⟨⟨(kept value mem).1, integral value mem⟩, (kept value mem).2⟩

/-- What the agent decodes as an entry, it decodes again from what it encodes. -/
theorem Entry.exactOn :
    Entry.codec.ExactOn fun entry => Entry.codec.Accepts entry ∧ entry.Integral := by
  have sound : Entry.codec.schema.sound = true := by decide
  refine .of_decode_encode fun entry ⟨accepted, integral⟩ => ?_
  obtain ⟨fits, meaning⟩ := accepted.fits sound (by decide) Entry.lossless
  exact Codec.decodeString_encode rereads_settled sound (Entry.settled integral fits) meaning

theorem Answer.exactOn :
    Answer.codec.ExactOn fun answer =>
      Answer.codec.Accepts answer ∧ ∀ entry ∈ answer.entries, entry.Integral := by
  have sound : Answer.codec.schema.sound = true := by decide
  refine .of_decode_encode fun answer ⟨accepted, integral⟩ => ?_
  obtain ⟨fits, meaning⟩ := accepted.fits sound (by decide) Answer.lossless
  obtain ⟨deep, each⟩ := Answer.fits_iff.1 fits
  have settled : Answer.codec.schema.Fits Settled depthLimit (Answer.codec.toDatum answer) :=
    Answer.fits_iff.2 ⟨deep, fun entry mem => Entry.settled (integral entry mem) (each entry mem)⟩
  exact Codec.decodeString_encode rereads_settled sound settled meaning

end Agent

/-- Every type of the records and of both sides of the protocol is decoded from what it is encoded as,
each text is rewritten in one form, and different values have different texts. The agent's entries and
answers, which keep status and tags as they came, are those that were decoded from some text and hold
only whole numbers there. -/
theorem codecs_exactOn :
    (Record.codec.ExactOn fun _ => True) ∧ (Properties.codec.ExactOn fun _ => True) ∧
    (DnsSettings.codec.ExactOn fun _ => True) ∧ (Allocation.codec.ExactOn fun _ => True) ∧
    (IpVersion.codec.ExactOn fun _ => True) ∧ (Operation.codec.ExactOn fun _ => True) ∧
    (Tag.codec.ExactOn fun _ => True) ∧ (Tag.listCodec.ExactOn fun _ => True) ∧
    (Status.healthCodec.ExactOn fun _ => True) ∧ (Status.provisioningCodec.ExactOn fun _ => True) ∧
    (Status.errorCodec.ExactOn fun _ => True) ∧ (Status.versionCodec.ExactOn fun _ => True) ∧
    (Status.codec.ExactOn fun _ => True) ∧ (Message.codec.ExactOn fun _ => True) ∧
    (verdictCodec.ExactOn fun _ => True) ∧ (Request.codec.ExactOn fun _ => True) ∧
    (Response.codec.ExactOn fun _ => True) ∧ (PrecheckRequest.codec.ExactOn fun _ => True) ∧
    (PrecheckResponse.codec.ExactOn fun _ => True) ∧
    (Agent.acceptedCodec.ExactOn fun _ => True) ∧ (Agent.Verdict.codec.ExactOn fun _ => True) ∧
    (Agent.Entry.codec.ExactOn fun entry => Agent.Entry.codec.Accepts entry ∧ entry.Integral) ∧
    (Agent.Answer.codec.ExactOn fun answer =>
      Agent.Answer.codec.Accepts answer ∧ ∀ entry ∈ answer.entries, entry.Integral) := by
  have wrapped (name : String) := (Codec.total_wrappedText name).exactOn (Nat.le_add_left 1 126)
  exact ⟨Record.total.exactOn (by decide), Properties.total.exactOn (by decide),
    DnsSettings.total.exactOn (by decide), Allocation.total.exactOn (by decide),
    IpVersion.total.exactOn (by decide), Operation.total.exactOn (by decide),
    Tag.total.exactOn (by decide), Tag.total_list.exactOn (by decide), wrapped _, wrapped _,
    wrapped _, wrapped _, Status.total.exactOn (by decide), Message.total.exactOn (by decide),
    total_verdict.exactOn (by decide), Request.total.exactOn (by decide),
    Response.total.exactOn (by decide), PrecheckRequest.total.exactOn (by decide),
    PrecheckResponse.total.exactOn (by decide), Agent.total_accepted.exactOn (by decide),
    Agent.Verdict.total.exactOn (by decide), Agent.Entry.exactOn, Agent.Answer.exactOn⟩

/-- A status with a member given twice, the second time as the least and the greatest whole number. -/
def sentStatus : Tree := .ofMembers
  [("b", .ofBool true), ("a", .ofMembers []),
    ("b", .array [(Value.number (.negative 9223372036854775808)).tree, .ofNat 18446744073709551615])]

/-- What an entry keeps of `sentStatus`. -/
def keptStatus : Value := .object
  [("a", .object []),
    ("b", .array [.number (.negative 9223372036854775808), .number (.natural 18446744073709551615)])]

theorem codecs_exactOn_whole :
    Agent.Entry.codec.decodeString (Tree.ofMembers [("status", sentStatus)]).text =
        .ok { status := some keptStatus } ∧
      Agent.Entry.codec.decodeString (Agent.Entry.codec.encode { status := some keptStatus }) =
        .ok { status := some keptStatus } := by
  have number (n : Number) : (Value.number n).tree.Written := Value.written_tree _
  have items : (Tree.array [(Value.number (.negative 9223372036854775808)).tree,
      .ofNat 18446744073709551615]).Written :=
    Tree.written_array (by simpa using ⟨number _, number (.natural _)⟩)
  have status : sentStatus.Written := Tree.written_ofMembers (by
    simpa using ⟨Tree.written_ofBool true, Tree.written_ofMembers (by simp), items⟩)
  have written : (Tree.ofMembers [("status", sentStatus)]).Written :=
    Tree.written_ofMembers (by simpa using status)
  have accepted : Agent.Entry.codec.decodeString (Tree.ofMembers [("status", sentStatus)]).text =
      .ok { status := some keptStatus } := by
    rw [Codec.decodeString_text _ written.whole written.legible]
    rfl
  have integral : Agent.Entry.Integral { status := some keptStatus } := by
    intro value mem
    obtain rfl : value = keptStatus := by simpa [Agent.Entry.raws] using mem
    decide
  obtain ⟨-, -, -, -, -, -, -, -, -, -, -, -, -, -, -, -, -, -, -, -, -, entries, -⟩ :=
    codecs_exactOn
  exact ⟨accepted, entries.decode_encode _ ⟨⟨_, accepted⟩, integral⟩⟩

end PublicIp
