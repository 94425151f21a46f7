import Mathlib.Logic.Relation
import PublicIp.Envelope
import PublicIp.Proofs.Json.Restating

/-!
# What decoding depends on

A text may say more than is known, say it in any order and say what goes without saying: it is decoded
as the same value (`Json.Codec.Tolerant`). It may not say what is known twice.
-/

namespace PublicIp

open Text (Symbol symbolsOfString)
open Json (Codec Field Schema Spaced Tree depthLimit)

namespace Json

variable {α : Type} {codec : Codec α}

/-- Whether a codec decodes a text by nothing but what the known members of its objects mean. -/
structure Codec.Tolerant (codec : Codec α) : Prop where
  /-- An accepted text consists of tokens and blanks and is one of a tree. -/
  parsed : ∀ text value, codec.decode text = .ok value →
    Spaced text text ∧ ∃! tree : Tree, tree.Spells text
  spaced : ∀ text value, codec.decode text = .ok value →
    ∀ other, Spaced text other → codec.decode other = .ok value
  restated : ∀ text value, codec.decode text = .ok value → ∀ tree : Tree, tree.Spells text →
    ∀ other, Relation.ReflTransGen codec.schema.Restates tree other →
      ∀ again, other.Spells again → codec.decode again = .ok value
  repeated : ∀ tree : Tree, codec.schema.Repeats tree → ∀ text, tree.Spells text →
    ∀ value, codec.decode text ≠ .ok value

theorem Codec.decode_spaced {text other : List Symbol} (spaced : Spaced text other) :
    codec.decode other = codec.decode text := by
  rw [decode, tokens_spaced spaced, decode]

/-- What is restated over and over is read as before. -/
theorem Schema.read_restated {schema : Schema} (steady : schema.Steady depthLimit)
    {tree other : Tree} (restates : Relation.ReflTransGen schema.Restates tree other)
    {datum : Datum} (read : schema.read depthLimit tree = .ok datum) :
    schema.read depthLimit other = .ok datum := by
  induction restates with
  | refl => exact read
  | tail _ last ih => exact last.read steady ih

theorem Codec.tolerant (steady : codec.schema.Steady depthLimit) : codec.Tolerant := by
  have reads {text : List Symbol} {value : α} (decoded : codec.decode text = .ok value) {tree : Tree}
      (spells : tree.Spells text) : codec.Reads depthLimit tree value := by
    rw [decode_of_spells spells] at decoded
    exact ofTree_eq_ok_iff.1 decoded
  constructor
  case parsed =>
    intro text value decoded
    obtain ⟨tree, spells, -⟩ := (decode_eq_ok_iff steady.fixed steady.sound).1 decoded
    exact ⟨spells.spaced, tree, spells, fun other spelled => spelled.eq spells⟩
  case spaced =>
    intro text value decoded other spaced
    rw [decode_spaced spaced, decoded]
  case restated =>
    intro text value decoded tree spells other restates again spelled
    obtain ⟨datum, read, means⟩ := reads decoded spells
    rw [decode_of_spells spelled]
    exact ofTree_eq_ok_iff.2 ⟨datum, Schema.read_restated steady restates read, means⟩
  case repeated =>
    intro tree repeats text spells value decoded
    obtain ⟨datum, read, -⟩ := reads decoded spells
    exact repeats.not_read steady datum read

end Json

namespace Request

theorem eq_of_defaults {fields : List Field} (schema : codec.schema = .record fields) {field : Field}
    (mem : field ∈ fields) {tree : Tree} (defaults : field.Defaults tree) :
    field.name = addressesField ∧ tree = .array [] := by
  obtain rfl := Schema.record.inj schema
  obtain ⟨slot, read, absent⟩ := defaults
  rcases List.mem_cons.1 mem with rfl | later
  · cases absent
  · obtain rfl := List.mem_singleton.1 later
    refine ⟨rfl, ?_⟩
    obtain rfl := Except.ok.inj absent
    obtain ⟨datum, listed, same⟩ := Json.map_eq_ok_iff.1 read
    obtain rfl := Option.some.inj same
    exact Schema.eq_of_readList listed

/-- A request names its operation. -/
theorem decode_ne_of_unnamed {members : List (String × Tree)}
    (unnamed : "operationType" ∉ members.map Prod.fst) {text : List Symbol}
    (spells : (Tree.ofMembers members).Spells text) (request : Request) :
    codec.decode text ≠ .ok request := by
  intro decoded
  rw [Codec.decode_of_spells spells] at decoded
  obtain ⟨datum, read, -⟩ := Codec.ofTree_eq_ok_iff.1 decoded
  have distinct : ((Schema.fieldReaders [⟨"operationType", .required, Operation.codec.schema⟩,
      .list addressesField Message.codec.schema]).map Schema.FieldReader.name).Nodup := by decide
  exact Schema.readRecord_ne_of_missing distinct List.mem_cons_self unnamed rfl read

end Request

/-- Every type of the messages and the envelopes is decoded by the known members of its objects and of
all objects in them. A request needs its operation, and nothing can be left out of it but an empty list
of addresses. -/
theorem codecs_tolerant :
    Message.codec.Tolerant ∧ Tag.codec.Tolerant ∧ Tag.listCodec.Tolerant ∧
    Status.codec.Tolerant ∧ Status.healthCodec.Tolerant ∧ Status.provisioningCodec.Tolerant ∧
    Status.errorCodec.Tolerant ∧ Status.versionCodec.Tolerant ∧ verdictCodec.Tolerant ∧
    Request.codec.Tolerant ∧ Response.codec.Tolerant ∧ PrecheckRequest.codec.Tolerant ∧
    PrecheckResponse.codec.Tolerant ∧
    (∀ fields, Request.codec.schema = .record fields → ∀ field ∈ fields, ∀ tree, field.Defaults tree →
      field.name = addressesField ∧ tree = .array []) ∧
    ∀ members : List (String × Tree), "operationType" ∉ members.map Prod.fst →
      ∀ text, (Tree.ofMembers members).Spells text →
        ∀ request, Request.codec.decode text ≠ .ok request := by
  have wrapped (name : String) : (Codec.wrappedText name).Tolerant :=
    Codec.tolerant ⟨rfl, rfl, Nat.le_add_left 1 126⟩
  refine ⟨?_, ?_, ?_, ?_, wrapped _, wrapped _, wrapped _, wrapped _, ?_, ?_, ?_, ?_, ?_, ?_, ?_⟩
  case refine_10 => exact fun _ schema _ mem _ => Request.eq_of_defaults schema mem
  case refine_11 => exact fun _ unnamed _ => Request.decode_ne_of_unnamed unnamed
  all_goals exact Codec.tolerant ⟨by decide, by decide, by decide⟩

/-- A request with a message, after a line break and in other words: its members in another order, two of
them that say nothing left out and an unknown one put in. The name must not be given again. -/
theorem codecs_tolerant_nested :
    let request (message : List (String × Tree)) : List (String × Tree) :=
      [("operationType", .ofString "POST"), (addressesField, .array [.ofMembers message])]
    let words : List (String × Tree) := [("id", .ofString ""), ("name", .ofString "a"), ("status", .null)]
    let other : List (String × Tree) := [("name", .ofString "a"), ("note", .ofMembers [("name", .null)])]
    let twice : List (String × Tree) := ("name", .ofString "b") :: words
    let decoded : Request := ⟨.post, [{ name := "a" }]⟩
    Request.codec.decodeString (Tree.ofMembers (request words)).text = .ok decoded ∧
      Request.codec.decode (some '\n' :: symbolsOfString (Tree.ofMembers (request words)).text) =
        .ok decoded ∧
      Request.codec.decodeString (Tree.ofMembers (request other).reverse).text = .ok decoded ∧
      ∀ value, Request.codec.decodeString (Tree.ofMembers (request twice)).text ≠ .ok value := by
  intro request words other twice decoded
  obtain ⟨-, -, -, -, -, -, -, -, -, tolerant, -⟩ := codecs_tolerant
  have text (s : String) : (Tree.ofString s).Written := Tree.written_ofString s
  have null : Tree.null.Written := ⟨rfl, Tree.legible_leaf fun _ _ => rfl⟩
  have note : (Tree.ofMembers [("name", .null)]).Written := Tree.written_ofMembers (by simpa)
  have sent {message : List (String × Tree)} (each : ∀ member ∈ message, member.2.Written) :
      ∀ member ∈ request message, member.2.Written := by
    have addresses : (Tree.array [.ofMembers message]).Written :=
      Tree.written_array (by simpa using Tree.written_ofMembers each)
    simpa [request] using ⟨text "POST", addresses⟩
  have first : (Tree.ofMembers (request words)).Written :=
    Tree.written_ofMembers (sent (by simpa [words] using ⟨text "", text "a", null⟩))
  have second : (Tree.ofMembers (request other).reverse).Written :=
    Tree.written_ofMembers fun member mem =>
      sent (by simpa [other] using ⟨text "a", note⟩) member (List.mem_reverse.1 mem)
  have third : (Tree.ofMembers (request twice)).Written :=
    Tree.written_ofMembers (sent (by simpa [twice, words] using ⟨text "b", text "", text "a", null⟩))
  have start : Request.codec.decodeString (Tree.ofMembers (request words)).text = .ok decoded := by
    rw [Codec.decodeString_text _ first.whole first.legible]
    rfl
  have inside {left right : List (String × Tree)}
      (step : Message.codec.schema.Restates (.ofMembers left) (.ofMembers right)) :
      Request.codec.schema.Restates (.ofMembers (request left)) (.ofMembers (request right)) :=
    @Schema.Restates.member _ [("operationType", .ofString "POST")] []
      (.list addressesField Message.codec.schema) _ _ (by simp)
      (@Schema.Restates.item _ [] [] _ _ step)
  have dropId : Message.codec.schema.Restates (.ofMembers words) (.ofMembers words.tail) :=
    @Schema.Restates.dropped _ [] words.tail (.text "id") _ (by simp) ⟨_, rfl, rfl⟩
  have dropStatus : Message.codec.schema.Restates (.ofMembers words.tail)
      (.ofMembers [("name", .ofString "a")]) :=
    @Schema.Restates.dropped _ [("name", .ofString "a")] [] (Message.part "status" Status.codec.schema)
      _ (by simp) ⟨_, rfl, rfl⟩
  have insertNote : Message.codec.schema.Restates (.ofMembers [("name", .ofString "a")])
      (.ofMembers other) :=
    @Schema.Restates.inserted _ [("name", .ofString "a")] [] "note" _ (by decide) note.whole
  have steps : Relation.ReflTransGen Request.codec.schema.Restates (.ofMembers (request words))
      (.ofMembers (request other).reverse) :=
    .tail (.tail (.tail (.single (inside dropId)) (inside dropStatus)) (inside insertNote))
      (.permuted (List.reverse_perm _).symm)
  have repeats : Request.codec.schema.Repeats (.ofMembers (request twice)) :=
    @Schema.Repeats.member _ _ (.list addressesField Message.codec.schema) _ (by simp)
      (List.mem_cons_of_mem _ List.mem_cons_self)
      (.item List.mem_cons_self (@Schema.Repeats.here _ _ (.text "name") (by simp) (by decide)))
  obtain ⟨cut, -⟩ := tolerant.parsed _ _ start
  exact ⟨start, tolerant.spaced _ _ start _ (.added rfl cut),
    tolerant.restated _ _ start _ first.spells _ steps _ second.spells,
    tolerant.repeated _ repeats _ third.spells⟩

end PublicIp
