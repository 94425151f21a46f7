import PublicIp.Proofs.Agent.Precheck
import PublicIp.Proofs.Limits

/-!
# Which holder is named

A rejection names the holder of an address that is met first, and that is all that depends on the order
in which records are met: answers that operations may get are the same up to the holders that they name
(`Ledger.Tells.alike`). Over HTTP this rests on a bound. An address and the name of its holder have come
in envelopes, so no rejection is too large to come back (`Ledger.returns_verdict`).
-/

namespace PublicIp

open Agent (Key Service)
open Json (Tree)

/-- Whether two answers are the same, up to which of several holders of an address is named. -/
inductive SameButHolder : Except ApiError Reply → Except ApiError Reply → Prop
  | same (answer : Except ApiError Reply) : SameButHolder answer answer
  | held (address first second : String) :
      SameButHolder (.error (.remote (Agent.assigned address first)))
        (.error (.remote (Agent.assigned address second)))

theorem SameButHolder.eq_of_unnamed {answer other : Except ApiError Reply}
    (same : SameButHolder answer other) (unnamed : ∀ text, other ≠ .error (.remote text)) :
    answer = other := by
  cases same with
  | same => rfl
  | held address first second => exact absurd rfl (unnamed _)

namespace Ledger

/-- Whether the names of all records fit into envelopes. -/
def Terse (ledger : Ledger) : Prop :=
  ∀ key record, ledger.records.find? key = some record →
    (Tree.ofString (record.name.getD "")).size ≤ Service.maxBodySize

theorem terse_empty : Terse {} := OrderedMap.all_empty

variable {ledger : Ledger} {order other : List Record}

theorem terse_store (terse : ledger.Terse) (fresh : String) {key : Key} {record : Record}
    (fits : (Request.mk .post [record.message key.location]).Fits) :
    (ledger.store fresh key record).Terse := by
  have written : (Tree.ofString (record.name.getD "")).size ≤ _ :=
    (size_texts_le (record.message key.location)).1
  have sent := size_request .post (record.message key.location)
  have small : (Tree.ofString ((ledger.stored fresh key record).name.getD "")).size ≤
      Service.maxBodySize := by
    unfold Request.Fits at fits
    show (Tree.ofString (record.name.getD "")).size ≤ _
    omega
  exact OrderedMap.all_insert terse small

section Perform

variable {supply : Nat → String} (verb : Verb)

theorem terse_perform (terse : ledger.Terse) (order : List Record) :
    (ledger.perform .http supply order verb).2.Terse := by
  have left : Leaves ledger supply (ledger.perform .http supply order verb).2 :=
    leaves_perform order verb
  generalize (ledger.perform .http supply order verb).2 = next at left ⊢
  cases left with
  | kept => exact terse
  | stored located named name fits => exact terse_store terse _ fits
  | removed key => exact OrderedMap.all_erase terse key

theorem sound_perform (sound : ledger.Sound) (order : List Record) :
    (ledger.perform .http supply order verb).2.Sound := by
  have left : Leaves ledger supply (ledger.perform .http supply order verb).2 :=
    leaves_perform order verb
  generalize (ledger.perform .http supply order verb).2 = next at left ⊢
  cases left with
  | kept => exact sound
  | stored located named name fits => exact sound_store sound _ located named name
  | removed key => exact sound_erase sound key

end Perform

/-- An objection is about the address of one of the records, and names one that was met. -/
theorem objection?_eq_some {location : String} {record : Record} {text : String}
    (objected : objection? order location record = some text) :
    ∃ address, ∃ holder ∈ order, (record.properties.getD {}).ipAddress = some address ∧
      text = Agent.assigned address (holder.name.getD "") := by
  unfold objection? at objected
  obtain ⟨address, given, found⟩ := Option.bind_eq_some_iff.1 objected
  obtain ⟨holder, first, rfl⟩ := Option.map_eq_some_iff.1 found
  obtain ⟨text, own, full⟩ := Option.bind_eq_some_iff.1 given
  obtain rfl : text = address := (Option.ite_none_left_eq_some.1 full).2 |> Option.some.inj
  exact ⟨text, holder, List.mem_of_find?_eq_some first, own, rfl⟩

section Precheck

variable {location : String} {records : List Record}

theorem returns_verdict (terse : ledger.Terse) (met : order.Perm ledger.records.values)
    (carried : Link.http.carries
      (PrecheckRequest.codec.encode ⟨records.map (·.message location)⟩).utf8ByteSize = true) :
    Link.http.returns
      (Agent.Verdict.codec.encode (verdict order location records)).utf8ByteSize = true := by
  have size := size_verdict_le (verdict order location records)
  rw [Link.returns_http]
  unfold Http.replyLimit
  cases objected : records.findSome? (objection? order location) with
  | none =>
    have silent : (verdict order location records).error = "" := by
      unfold verdict
      rw [objected]
      rfl
    have empty : (Tree.ofString "").size = 2 := by decide +kernel
    rw [silent, empty] at size
    omega
  | some text =>
    obtain ⟨record, mem, own⟩ := List.exists_of_findSome?_eq_some objected
    obtain ⟨address, holder, known, given, rfl⟩ := objection?_eq_some own
    have told : (verdict order location records).error =
        Agent.assigned address (holder.name.getD "") := by
      unfold verdict
      rw [objected]
      rfl
    obtain ⟨key, held⟩ := (ledger.records.mem_values_iff holder).1 (met.subset known)
    have name := terse key holder held
    have envelope := (Link.carries_http _).1 carried
    have among := size_lt_size_precheck (List.mem_map_of_mem (f := (·.message location)) mem)
    have written := (size_texts_le (record.message location)).2
    have same : (record.message location).ipAddress = address := by simp [Record.message, given]
    rw [same] at written
    rw [told, size_assigned] at size
    unfold Service.maxBodySize at name envelope
    omega

theorem alike_ask (sound : ledger.Sound) (terse : ledger.Terse)
    (met : order.Perm ledger.records.values) (met' : other.Perm ledger.records.values)
    (fit : ∀ record ∈ records, defect? location record = none) :
    SameButHolder ((ledger.ask .http order location records).1.map .passed)
      ((ledger.ask .http other location records).1.map .passed) := by
  unfold ask
  cases carried : Link.http.carries
      (PrecheckRequest.codec.encode ⟨records.map (·.message location)⟩).utf8ByteSize with
  | false =>
    simp only [Link.call_of_large _ _ _ carried]
    exact .same _
  | true =>
    have returned := returns_verdict terse met carried
    have returned' := returns_verdict terse met' carried
    have objections : Agent.SameButHolder (order.map Record.entry)
        (records.findSome? (objection? order location))
        (records.findSome? (objection? other location)) := by
      rw [← objectionTo_entries sound met fit, ← objectionTo_entries sound met' fit]
      exact Agent.objectionTo_of_mem_iff _ fun _ _ _ _ =>
        ((met.trans met'.symm).map Record.entry).mem_iff
    simp only [Link.call_of_carried _ _ _ carried returned,
      Link.call_of_carried _ _ _ carried returned']
    unfold verdict
    generalize records.findSome? (objection? order location) = first at objections ⊢
    generalize records.findSome? (objection? other location) = second at objections ⊢
    cases objections with
    | same => exact .same _
    | held _ _ _ _ _ => exact .held _ _ _

end Precheck

theorem alike_perform (sound : ledger.Sound) (terse : ledger.Terse)
    (met : order.Perm ledger.records.values) (met' : other.Perm ledger.records.values)
    (supply : Nat → String) (verb : Verb) :
    SameButHolder (ledger.perform .http supply order verb).1
      (ledger.perform .http supply other verb).1 := by
  cases verb with
  | get _ _ => exact .same _
  | put _ _ _ => exact .same _
  | delete _ _ => exact .same _
  | precheck location records =>
    rw [perform_precheck, perform_precheck]
    unfold precheck
    simp only
    cases fit : (records.filterMap id).findSome? (defect? location) with
    | some error => exact .same _
    | none => exact alike_ask sound terse met met' (List.findSome?_eq_none_iff.1 fit)

/-- Whatever operations may be answered is the same up to the holders that are named, and they leave
one ledger. -/
theorem Tells.alike {supply : Nat → String} {verbs : List Verb} {last final : Ledger}
    {answers others : List (Except ApiError Reply)}
    (told : Tells .http supply verbs ledger answers last)
    (also : Tells .http supply verbs ledger others final) (sound : ledger.Sound)
    (terse : ledger.Terse) : List.Forall₂ SameButHolder answers others ∧ final = last := by
  induction told generalizing others with
  | nil ledger =>
    cases also
    exact ⟨.nil, rfl⟩
  | @cons verb rest ledger last order answers met _ ih =>
    obtain ⟨other, met', others, rfl, later⟩ := also.cons_cases
    rw [left_perform other .http order] at later
    obtain ⟨alike, same⟩ := ih later (sound_perform verb sound order) (terse_perform verb terse order)
    exact ⟨.cons (alike_perform sound terse met met' supply verb) alike, same⟩

end Ledger

end PublicIp
