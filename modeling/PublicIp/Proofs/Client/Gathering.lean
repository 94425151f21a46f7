import Mathlib.Data.List.Basic
import PublicIp.Proofs.Client.Removal

/-!
# Gathering the records of a precheck

The envelope of a precheck is gathered in one pass over a list in which records may be absent.
`PrecheckRequest.messages_append` says what has become of the list at any point of the pass. So absent
records leave nothing in the envelope but a line each, and of the records that are present the first one
that cannot be sent decides.
-/

namespace PublicIp

/-- The same failure with something said before its text. -/
inductive ApiError.Prefixed (text : String) : ApiError → ApiError → Prop
  | invalidInput (detail : String) :
      Prefixed text (.invalidInput detail) (.invalidInput (text ++ detail))
  | invalidConfiguration (detail : String) :
      Prefixed text (.invalidConfiguration detail) (.invalidConfiguration (text ++ detail))

namespace PrecheckRequest

/-- The records of a list that are present, in their order. -/
def present (records : List (Option Record)) : List Record := records.filterMap id

theorem mem_present_iff {records : List (Option Record)} {record : Record} :
    record ∈ present records ↔ some record ∈ records := by
  simp [present]

/-- The positions at which a record is absent, in ascending order. -/
structure Skips (records : List (Option Record)) (skipped : List Nat) : Prop where
  ascending : skipped.Pairwise (· < ·)
  absent : ∀ index, index ∈ skipped ↔ records[index]? = some none

theorem skips_findIdxs (records : List (Option Record)) :
    Skips records (records.findIdxs Option.isNone) where
  ascending := List.pairwise_findIdxs
  absent index := by
    rw [List.mem_findIdxs_iff_exists_getElem_pos, List.getElem?_eq_some_iff]
    simp only [Option.isNone_iff_eq_none]

variable {location : String} {before after : List (Option Record)} {record : Record}

/-- Once all records up to some point are found to be fit, only the rest of the list is left to decide. -/
theorem messages_append (fit : ∀ record ∈ present before, Ledger.defect? location record = none)
    (index : Nat) (rest : List (Option Record)) :
    messages location index (before ++ rest) =
      (before.findIdxs Option.isNone index ++
          (messages location (index + before.length) rest).1,
        (messages location (index + before.length) rest).2.map
          ((present before).map (·.message location) ++ ·)) := by
  -- The index is arbitrary, since what follows an entry starts one position later.
  induction before generalizing index with
  | nil =>
    refine Prod.ext rfl ?_
    show (messages location index rest).2 = (messages location index rest).2.map ([] ++ ·)
    cases (messages location index rest).2 <;> rfl
  | cons entry before ih =>
    have place : index + 1 + before.length = index + (before.length + 1) := by omega
    cases entry with
    | none =>
      have later := ih fit (index + 1)
      rw [place] at later
      rw [List.cons_append, messages, later, List.findIdxs_cons]
      rfl
    | some record =>
      have own : Ledger.defect? location record = none := fit record List.mem_cons_self
      have later := ih (fun other mem => fit other (List.mem_cons_of_mem _ mem)) (index + 1)
      rw [place] at later
      rw [List.cons_append, messages, Record.toMessage_of_fit own, later, List.findIdxs_cons]
      refine Prod.ext rfl ?_
      cases (messages location (index + (before.length + 1)) rest).2 <;> rfl

theorem messages_of_fit {records : List (Option Record)}
    (fit : ∀ record ∈ present records, Ledger.defect? location record = none) :
    messages location 0 records =
      (records.findIdxs Option.isNone, .ok ((present records).map (·.message location))) := by
  have whole := messages_append fit 0 []
  rw [List.append_nil, messages, List.append_nil] at whole
  rw [whole, Except.map, List.append_nil]

theorem messages_of_defect (fit : ∀ record ∈ present before, Ledger.defect? location record = none)
    {error : ApiError} (defect : Ledger.defect? location record = some error) :
    messages location 0 (before ++ some record :: after) =
      (before.findIdxs Option.isNone, .error (error.inContext context)) := by
  rw [messages_append fit, messages, Record.toMessage_of_defect defect]
  simp only [List.append_nil, Except.map]

/-- Whether all records that are present can be sent to a location. -/
def Sendable (location : String) (records : List (Option Record)) : Prop :=
  present records = [] ∨ location ≠ "" ∧ ∀ record ∈ present records, record.name ≠ none

theorem sendable_iff (location : String) (records : List (Option Record)) :
    Sendable location records ↔
      ∀ record ∈ present records, Ledger.defect? location record = none := by
  simp only [Ledger.defect?_eq_none_iff, ← Option.ne_none_iff_exists']
  constructor
  · rintro (nothing | ⟨located, named⟩) record mem
    · exact absurd (nothing ▸ mem) List.not_mem_nil
    · exact ⟨located, named record mem⟩
  · intro fit
    cases given : present records with
    | nil => exact .inl given
    | cons first rest =>
      have located := (fit first (given ▸ List.mem_cons_self)).1
      exact .inr ⟨located, fun record mem => (fit record mem).2⟩

theorem exists_defect {records : List (Option Record)} (unfit : ¬ Sendable location records) :
    ∃ before record after error, records = before ++ some record :: after ∧
      (∀ earlier ∈ present before, Ledger.defect? location earlier = none) ∧
      Ledger.defect? location record = some error := by
  cases found : records.findSome? (·.bind (Ledger.defect? location)) with
  | none =>
    rw [List.findSome?_eq_none_iff] at found
    refine absurd ((sendable_iff location records).2 fun record mem => ?_) unfit
    exact found (some record) (mem_present_iff.1 mem)
  | some error =>
    obtain ⟨before, entry, after, rfl, defect, fit⟩ := List.findSome?_eq_some_iff.1 found
    obtain ⟨record, rfl, defect⟩ := Option.bind_eq_some_iff.1 defect
    refine ⟨before, record, after, error, rfl, fun earlier mem => ?_, defect⟩
    exact fit (some earlier) (mem_present_iff.1 mem)

/-- What a defect of a record is said to be when an envelope is gathered. -/
theorem prefixed_of_defect {error : ApiError}
    (defect : Ledger.defect? location record = some error) :
    ApiError.Prefixed "unable to convert public IP address for precheck: " error
      (error.inContext context) := by
  have text : "unable to convert public IP address for precheck: " = context ++ ": " := rfl
  rw [text]
  unfold Ledger.defect? at defect
  split at defect
  · obtain rfl := Option.some.inj defect
    exact .invalidInput "location not specified"
  split at defect
  · obtain rfl := Option.some.inj defect
    exact .invalidConfiguration "missing name for public IP address"
  · cases defect

/-- What comes of gathering the records of a list: the positions that are passed over, and the
envelope. -/
structure Gathers (location : String) (records : List (Option Record))
    (gathered : List Nat × Except ApiError PrecheckRequest) : Prop where
  whole : Sendable location records → Skips records gathered.1 ∧
    ∃ messages, gathered.2 = .ok ⟨messages⟩ ∧
      List.Forall₂ (fun record message => record.toMessage location = .ok message)
        (present records) messages
  /-- The pass ends at the first record that cannot be sent. -/
  broken : ¬ Sendable location records →
    ∃ before record after error failure, records = before ++ some record :: after ∧
      (∀ earlier ∈ present before, ∃ message, earlier.toMessage location = .ok message) ∧
      record.toMessage location = .error error ∧
      ApiError.Prefixed "unable to convert public IP address for precheck: " error failure ∧
      Skips before gathered.1 ∧ gathered.2 = .error failure

theorem gathers (location : String) (records : List (Option Record)) :
    Gathers location records (ofRecords location records) := by
  constructor
  case whole =>
    intro sendable
    have fit := (sendable_iff location records).1 sendable
    rw [ofRecords, messages_of_fit fit]
    exact ⟨skips_findIdxs records, _, rfl, Record.forall₂_toMessage fit⟩
  case broken =>
    intro unfit
    obtain ⟨before, record, after, error, rfl, fit, defect⟩ := exists_defect unfit
    rw [ofRecords, messages_of_defect fit defect]
    refine ⟨before, record, after, error, _, rfl, fun earlier mem => ?_,
      Record.toMessage_of_defect defect, prefixed_of_defect defect, skips_findIdxs before, rfl⟩
    exact ⟨_, Record.toMessage_of_fit (fit earlier mem)⟩

theorem ofRecords_congr {records others : List (Option Record)}
    (same : present others = present records) :
    (ofRecords location others).2 = (ofRecords location records).2 := by
  have envelope (records : List (Option Record)) : (ofRecords location records).2 =
      (messages location 0 records).2.map fun addresses => { addresses } := rfl
  unfold present at same
  rw [envelope, envelope, messages_eq, messages_eq, same]

end PrecheckRequest

namespace Client

open PrecheckRequest (ofRecords)

variable {σ : Type} (transport : Transport σ) (deadline : Deadline) (state : σ)

theorem run_skipped {α : Type} (skipped : List Nat) (next : Dialogue α) :
    ((skipped.forM fun index => Dialogue.noting (.skipped index)) >>= fun _ => next).run
        transport deadline state =
      ((next.run transport deadline state).1,
        (skipped.map fun index => .noted (.skipped index)) ++ (next.run transport deadline state).2.1,
        (next.run transport deadline state).2.2) := by
  induction skipped with
  | nil => rfl
  | cons index rest ih =>
    show (Dialogue.note _ ((rest.forM _) >>= fun _ => next)).run transport deadline state = _
    rw [Dialogue.run, ih]
    rfl

theorem run_asking (envelope : Except ApiError PrecheckRequest) :
    (do
        let response ← .asking (← envelope)
        response.verdict : Dialogue Bool).run transport deadline state =
      match envelope with
      | .error error => (.error error, [], state)
      | .ok request =>
        ((transport.precheck deadline request state).1.bind PrecheckResponse.verdict,
          [.prechecked request], (transport.precheck deadline request state).2) := by
  cases envelope with
  | error error => rfl
  | ok request =>
    show (Dialogue.precheck request _).run transport deadline state =
      ((transport.precheck deadline request state).1.bind _, _, (transport.precheck _ _ state).2)
    rw [Dialogue.run]
    rcases transport.precheck deadline request state with ⟨_ | response, after⟩ <;> rfl

/-- The steps of a precheck before its envelope is sent. -/
def gathering (location : String) (records : List (Option Record)) : List Step :=
  .noted (.precheck location records.length) ::
    (ofRecords location records).1.map fun index => .noted (.skipped index)

theorem run_precheck (location : String) (records : List (Option Record)) :
    (precheck location records).run transport deadline state =
      match (ofRecords location records).2 with
      | .error error => (.error error, gathering location records, state)
      | .ok request =>
        ((transport.precheck deadline request state).1.bind PrecheckResponse.verdict,
          gathering location records ++ [.prechecked request],
          (transport.precheck deadline request state).2) := by
  unfold precheck gathering
  obtain ⟨skipped, envelope⟩ := ofRecords location records
  show (Dialogue.note _ ((skipped.forM _) >>= fun _ => _)).run _ _ _ = _
  rw [Dialogue.run, run_skipped, run_asking]
  cases envelope with
  | error error => simp only [List.append_nil]
  | ok request => rfl

def detailsOf (line : String) (steps : List Step) : List (List (String × ClientEvent.Detail)) :=
  steps.filterMap fun
    | .noted event => if event.message = line then some event.details else none
    | _ => none

theorem detailsOf_gathering (location : String) (records : List (Option Record)) :
    detailsOf "skipping absent precheck entry" (gathering location records) =
      (ofRecords location records).1.map fun index => [("index", .count index)] := by
  rw [detailsOf, gathering, List.filterMap_cons_none rfl, List.filterMap_map]
  exact congrFun List.filterMap_eq_map _

theorem detailsOf_precheck (location : String) (records : List (Option Record)) :
    detailsOf "skipping absent precheck entry"
        ((precheck location records).run transport deadline state).2.1 =
      (ofRecords location records).1.map fun index => [("index", .count index)] := by
  rw [run_precheck, ← detailsOf_gathering]
  cases (ofRecords location records).2 with
  | error error => rfl
  | ok request =>
    have unnoted : detailsOf "skipping absent precheck entry" [.prechecked request] = [] := rfl
    show detailsOf _ (gathering location records ++ [.prechecked request]) = _
    rw [detailsOf, List.filterMap_append, ← detailsOf, ← detailsOf, unnoted, List.append_nil]

/-- The envelope of a precheck holds a message for each record that is present, in their order, unless
one of them cannot be sent: then the first such record says why. A line is noted for each absent record
up to there, and absent records make no other difference. -/
theorem precheck_gathers (location : String) (records : List (Option Record)) :
    PrecheckRequest.Gathers location records (ofRecords location records) ∧
    (∀ others, PrecheckRequest.present others = PrecheckRequest.present records →
      (ofRecords location others).2 = (ofRecords location records).2) ∧
    ∀ {σ : Type} (transport : Transport σ) (deadline : Deadline) (state : σ),
      detailsOf "skipping absent precheck entry"
          ((precheck location records).run transport deadline state).2.1 =
        (ofRecords location records).1.map fun index => [("index", .count index)] :=
  ⟨PrecheckRequest.gathers location records, fun _ => PrecheckRequest.ofRecords_congr,
    fun transport deadline state => detailsOf_precheck transport deadline state location records⟩

/-- The second of three records has no name, which is found out before the last absent one is passed
over. -/
theorem precheck_gathers_nameless :
    let records : List (Option Record) :=
      [none, some (.named "a"), none, some {}, none, some (.named "b")]
    let present : List (Option Record) := [some (.named "a"), some {}, some (.named "b")]
    ¬ PrecheckRequest.Sendable "loc1" records ∧
      (∃ before record after, records = before ++ some record :: after ∧
        PrecheckRequest.Skips before [0, 2]) ∧
      (ofRecords "loc1" present).2 = .error (.invalidConfiguration
        "unable to convert public IP address for precheck: missing name for public IP address") := by
  intro records present
  obtain ⟨gathers, alike, -⟩ := precheck_gathers "loc1" records
  have unsendable : ¬ PrecheckRequest.Sendable "loc1" records := by
    rintro (nothing | ⟨-, named⟩)
    · cases nothing
    · exact named {} (by decide) rfl
  have skipped : (ofRecords "loc1" records).1 = [0, 2] := rfl
  obtain ⟨before, record, after, -, -, split, -, -, -, skips, -⟩ := gathers.broken unsendable
  exact ⟨unsendable, ⟨before, record, after, split, skipped ▸ skips⟩, (alike present rfl).trans rfl⟩

end Client

end PublicIp
