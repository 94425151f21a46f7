import PublicIp.Proofs.Sizes

/-!
# Ledgers over HTTP

An envelope may be too large for the agent, but what it answers then is all that goes wrong: where ids
are short, no reply to an operation on one record is too large for the client. So over `Link.http` an
operation changes the ledger exactly if it says so, `change_perform`.
-/

namespace PublicIp

open Agent (Key Provision Service)

/-- Whether an envelope is not too large for the agent. -/
def Request.Fits (request : Request) : Prop :=
  (Request.codec.encode request).utf8ByteSize ≤ Service.maxBodySize

instance (request : Request) : Decidable request.Fits :=
  inferInstanceAs (Decidable (_ ≤ _))

namespace Ledger

/-- The most bytes of a short id, as those that are drawn are. -/
def idSize : Nat := 36

/-- Whether all records have short ids and fit into replies. -/
def Modest (ledger : Ledger) : Prop :=
  ∀ key record, ledger.records.find? key = some record →
    (record.id.getD "").utf8ByteSize ≤ idSize ∧
      Link.http.returns (recordsText [record]).utf8ByteSize = true

theorem modest_empty : Modest {} := OrderedMap.all_empty

theorem find?_store (ledger : Ledger) (fresh : String) (key : Key) (record : Record) :
    (ledger.store fresh key record).records.find? key = some (ledger.stored fresh key record) := by
  rw [store, OrderedMap.find?_insert, if_pos rfl]

section Store

variable {ledger : Ledger} (modest : ledger.Modest) {fresh : String}
  (short : fresh.utf8ByteSize ≤ idSize) {key : Key} {record : Record}

include modest short

theorem size_id_stored (key : Key) (record : Record) :
    ((ledger.stored fresh key record).id.getD "").utf8ByteSize ≤ idSize := by
  unfold stored
  simp only
  cases held : ledger.records.find? key with
  | none =>
    rw [getD_nonEmpty]
    exact short
  | some old => exact (modest key old held).1

theorem returns_stored (fits : (Request.mk .post [record.message key.location]).Fits) :
    Link.http.returns (recordsText [ledger.stored fresh key record]).utf8ByteSize = true := by
  have id := size_id_stored modest short key record
  have size := size_recordsText_stored ledger fresh key record
  rw [Link.returns_http]
  unfold Request.Fits Service.maxBodySize at fits
  unfold idSize at id
  unfold Http.replyLimit
  omega

theorem modest_store (fits : (Request.mk .post [record.message key.location]).Fits) :
    (ledger.store fresh key record).Modest := by
  have id := size_id_stored modest short key record
  have returned := returns_stored modest short fits
  exact OrderedMap.all_insert modest ⟨id, returned⟩

end Store

theorem modest_erase {ledger : Ledger} (modest : ledger.Modest) (key : Key) :
    Modest { ledger with records := ledger.records.erase key } :=
  OrderedMap.all_erase modest key

theorem returns_nothing : Link.http.returns (recordsText []).utf8ByteSize = true := by
  decide +kernel

theorem size_missing (name : String) : (missing name).utf8ByteSize = name.utf8ByteSize + 30 := by
  have before : "public IP address [".utf8ByteSize = 19 := by decide +kernel
  have after : "] not found".utf8ByteSize = 11 := by decide +kernel
  unfold missing
  rw [String.utf8ByteSize_append, String.utf8ByteSize_append, before, after]
  omega

/-- The reply to a deletion comes back where there is no record. -/
theorem returns_missing {location name : String}
    (fits : (Request.mk .get [(Record.named name).message location]).Fits) :
    Link.http.returns (missing name).utf8ByteSize = true := by
  have size : name.utf8ByteSize < _ :=
    name_lt_size_request .get ((Record.named name).message location)
  unfold Request.Fits Service.maxBodySize at fits
  rw [Link.returns_http, size_missing]
  unfold Http.replyLimit
  omega

theorem remove_of_present {ledger : Ledger} {key : Key} {record shown : Record}
    (held : ledger.records.find? key = some record)
    (fits : (Request.mk .delete [shown.message key.location]).Fits) :
    ledger.remove .http key shown =
      (.ok (), { ledger with records := ledger.records.erase key }) := by
  unfold remove
  rw [held]
  exact Link.call_of_carried _ _ _ ((Link.carries_http _).2 fits) returns_nothing

theorem remove_of_large {ledger : Ledger} {key : Key} {record shown : Record}
    (held : ledger.records.find? key = some record)
    (large : ¬ (Request.mk .delete [shown.message key.location]).Fits) :
    ledger.remove .http key shown = (.error Link.refused, ledger) := by
  unfold remove
  rw [held]
  exact Link.call_of_large _ _ _ (Link.not_carries_http large)

theorem remove_of_absent {ledger : Ledger} {key : Key} {shown : Record}
    (absent : ledger.records.find? key = none)
    (looked : (Request.mk .get [(Record.named key.name).message key.location]).Fits)
    (fits : (Request.mk .delete [shown.message key.location]).Fits) :
    ledger.remove .http key shown = (.error (.notFound (missing key.name)), ledger) := by
  unfold remove
  rw [absent]
  exact Link.call_of_carried _ _ _ ((Link.carries_http _).2 fits) (returns_missing looked)

theorem get_of_fits {ledger : Ledger} {location name : String} (located : location ≠ "")
    (fits : (Request.mk .get [(Record.named name).message location]).Fits)
    (returned : Link.http.returns (recordsText (ledger.found location name)).utf8ByteSize = true) :
    ledger.get .http location name = (.ok (ledger.found location name), ledger) := by
  have fit := (defect?_eq_none_iff location (.named name)).2 ⟨located, name, rfl⟩
  unfold get
  rw [fit]
  exact Link.call_of_carried _ _ _ ((Link.carries_http _).2 fits) returned

theorem get_of_present {ledger : Ledger} (modest : ledger.Modest) {key : Key} {record : Record}
    (located : key.location ≠ "") (named : key.name ≠ "")
    (fits : (Request.mk .get [(Record.named key.name).message key.location]).Fits)
    (held : ledger.records.find? key = some record) :
    ledger.get .http key.location key.name = (.ok [record], ledger) := by
  have found : ledger.found key.location key.name = [record] :=
    (if_neg named).trans (congrArg Option.toList held)
  have got := get_of_fits located fits (by rw [found]; exact (modest key record held).2)
  rwa [found] at got

theorem get_of_absent {ledger : Ledger} {key : Key} (located : key.location ≠ "")
    (named : key.name ≠ "")
    (fits : (Request.mk .get [(Record.named key.name).message key.location]).Fits)
    (absent : ledger.records.find? key = none) :
    ledger.get .http key.location key.name = (.ok [], ledger) := by
  have found : ledger.found key.location key.name = [] :=
    (if_neg named).trans (congrArg Option.toList absent)
  have got := get_of_fits located fits (by rw [found]; exact returns_nothing)
  rwa [found] at got

/-- A deletion that goes on with what it saw before does what it would do with what it would find by
now, if the one is not too large where the other would do. -/
theorem remove_eq_delete {ledger : Ledger} (modest : ledger.Modest) {key : Key} {shown : Record}
    (located : key.location ≠ "") (named : key.name ≠ "")
    (looked : (Request.mk .get [(Record.named key.name).message key.location]).Fits)
    (fits : ledger.records.find? key = none →
      (Request.mk .delete [shown.message key.location]).Fits)
    (alike : ∀ record, ledger.records.find? key = some record →
      ((Request.mk .delete [shown.message key.location]).Fits ↔
        (Request.mk .delete [record.message key.location]).Fits)) :
    ledger.remove .http key shown = ledger.delete .http key.location key.name := by
  unfold delete
  rw [if_neg named]
  cases held : ledger.records.find? key with
  | none =>
    rw [remove_of_absent held looked (fits held), get_of_absent located named looked held]
  | some record =>
    rw [get_of_present modest located named looked held]
    have alike := alike record held
    by_cases small : (Request.mk .delete [shown.message key.location]).Fits
    · rw [remove_of_present held small]
      exact (remove_of_present held (alike.1 small)).symm
    · rw [remove_of_large held small]
      exact (remove_of_large held fun other => small (alike.2 other)).symm

theorem delete_of_present {ledger : Ledger} (modest : ledger.Modest) {key : Key} {record : Record}
    (located : key.location ≠ "") (named : key.name ≠ "")
    (looked : (Request.mk .get [(Record.named key.name).message key.location]).Fits)
    (held : ledger.records.find? key = some record)
    (fits : (Request.mk .delete [record.message key.location]).Fits) :
    ledger.delete .http key.location key.name =
      (.ok (), { ledger with records := ledger.records.erase key }) := by
  unfold delete
  rw [if_neg named, get_of_present modest located named looked held]
  exact remove_of_present held fits

/-- What an operation may answer and do: it stores a record and says so, it removes one and says so, or
it leaves the ledger as it is and says neither. -/
inductive Change (ledger : Ledger) (supply : Nat → String) :
    Verb → Except ApiError Reply × Ledger → Prop
  | kept {verb : Verb} {answer : Except ApiError Reply}
      (unstored : ∀ record, answer ≠ .ok (.record record)) (unremoved : answer ≠ .ok .deleted) :
      Change ledger supply verb (answer, ledger)
  | stored {key : Key} {argument : String} {record : Record} (located : key.location ≠ "")
      (named : key.name ≠ "") (name : record.name = some key.name)
      (fits : (Request.mk .post [record.message key.location]).Fits) :
      Change ledger supply (.put key.location argument (some record))
        (.ok (.record (ledger.stored (supply ledger.drawn) key record)),
          ledger.store (supply ledger.drawn) key record)
  | removed {key : Key} {record : Record} (held : ledger.records.find? key = some record) :
      Change ledger supply (.delete key.location key.name)
        (.ok .deleted, { ledger with records := ledger.records.erase key })

theorem get_still (ledger : Ledger) (link : Link) (location name : String) :
    (ledger.get link location name).2 = ledger := by
  unfold get look
  split
  · rfl
  · rw [Link.snd_call, ite_self]

theorem precheck_still (ledger : Ledger) (link : Link) (order : List Record) (location : String)
    (records : List (Option Record)) : (ledger.precheck link order location records).2 = ledger := by
  unfold precheck ask
  simp only
  split
  · rfl
  · rw [Link.snd_call, ite_self]

section Perform

variable {ledger : Ledger} {supply : Nat → String} (order : List Record)

/-- What an operation may leave behind. -/
inductive Leaves (ledger : Ledger) (supply : Nat → String) : Ledger → Prop
  | kept : Leaves ledger supply ledger
  | stored {key : Key} {record : Record} (located : key.location ≠ "") (named : key.name ≠ "")
      (name : record.name = some key.name)
      (fits : (Request.mk .post [record.message key.location]).Fits) :
      Leaves ledger supply (ledger.store (supply ledger.drawn) key record)
  | removed (key : Key) : Leaves ledger supply { ledger with records := ledger.records.erase key }

theorem leaves_put (location : String) (record : Option Record) :
    Leaves ledger supply (ledger.put .http supply location record).2 := by
  cases record with
  | none => exact .kept
  | some record =>
    by_cases described : record.properties = none
    · unfold put
      simp only [described, if_true]
      exact .kept
    · cases defect : defect? location record with
      | some error =>
        unfold put
        simp only [described, if_false, defect]
        exact .kept
      | none =>
        obtain ⟨located, name, own⟩ := (defect?_eq_none_iff location record).1 defect
        rw [put_of_fit described defect, own, Option.getD_some]
        by_cases empty : name = ""
        · unfold save
          simp only [empty, if_true]
          rw [Link.snd_call, ite_self]
          exact .kept
        · rw [save_of_named empty, Link.snd_call]
          split
          · next carried => exact .stored located empty own ((Link.carries_http _).1 carried)
          · exact .kept

theorem leaves_delete (location name : String) :
    Leaves ledger supply (ledger.delete .http location name).2 := by
  unfold delete
  split
  · exact .kept
  · have still := get_still ledger .http location name
    generalize ledger.get .http location name = got at still ⊢
    obtain ⟨told, next⟩ := got
    obtain rfl : next = ledger := still
    match told with
    | .error error => exact .kept
    | .ok [] => exact .kept
    | .ok (current :: rest) =>
      unfold remove
      simp only
      split
      · rw [Link.snd_call, ite_self]
        exact .kept
      · rw [Link.snd_call]
        split
        · exact .removed _
        · exact .kept

theorem leaves_perform (verb : Verb) :
    Leaves ledger supply (ledger.perform .http supply order verb).2 := by
  cases verb with
  | get location name =>
    rw [perform_get, get_still]
    exact .kept
  | put location argument record => exact leaves_put location record
  | delete location name => exact leaves_delete location name
  | precheck location records =>
    rw [perform_precheck, precheck_still]
    exact .kept

/-- The order in which records are met makes no difference to what an operation leaves behind. -/
theorem left_perform (link : Link) (other : List Record) (verb : Verb) :
    (ledger.perform link supply order verb).2 = (ledger.perform link supply other verb).2 := by
  cases verb with
  | get _ _ => rfl
  | put _ _ _ => rfl
  | delete _ _ => rfl
  | precheck location records =>
    rw [perform_precheck, perform_precheck, precheck_still, precheck_still]

theorem Change.of_still {α : Type} (verb : Verb) (reply : α → Reply)
    (unstored : ∀ value record, reply value ≠ .record record)
    (unremoved : ∀ value, reply value ≠ .deleted) {told : Except ApiError α × Ledger}
    (still : told.2 = ledger) : Change ledger supply verb (told.1.map reply, told.2) := by
  obtain ⟨answer, next⟩ := told
  obtain rfl : next = ledger := still
  refine .kept (fun record => ?_) ?_
  · cases answer with
    | error error => exact nofun
    | ok value => exact fun same => unstored value record (Except.ok.inj same)
  · cases answer with
    | error error => exact nofun
    | ok value => exact fun same => unremoved value (Except.ok.inj same)

theorem Change.of_error (verb : Verb) (error : ApiError) :
    Change ledger supply verb (.error error, ledger) :=
  .kept (fun _ => nofun) nofun

variable (modest : ledger.Modest) (short : ∀ n, (supply n).utf8ByteSize ≤ idSize)

include modest short

theorem put_of_fits {key : Key} {record : Record} (located : key.location ≠ "")
    (named : key.name ≠ "") (described : record.properties ≠ none)
    (name : record.name = some key.name)
    (fits : (Request.mk .post [record.message key.location]).Fits) :
    ledger.put .http supply key.location (some record) =
      (.ok (ledger.stored (supply ledger.drawn) key record),
        ledger.store (supply ledger.drawn) key record) := by
  have defect := (defect?_eq_none_iff key.location record).2 ⟨located, key.name, name⟩
  have returned := returns_stored modest (short ledger.drawn) fits
  rw [put_of_fit described defect, name, Option.getD_some, save_of_named named]
  exact Link.call_of_carried _ _ _ ((Link.carries_http _).2 fits) returned

theorem change_put (location argument : String) (record : Option Record) :
    Change ledger supply (.put location argument record)
      (ledger.perform .http supply order (.put location argument record)) := by
  rw [perform_put]
  cases record with
  | none => exact .of_error _ _
  | some record =>
    by_cases described : record.properties = none
    · unfold put
      simp only [described, if_true]
      exact .of_error _ _
    · cases defect : defect? location record with
      | some error =>
        unfold put
        simp only [described, if_false, defect]
        exact .of_error _ _
      | none =>
        obtain ⟨located, name, own⟩ := (defect?_eq_none_iff location record).1 defect
        by_cases fits : (Request.mk .post [record.message location]).Fits
        · by_cases empty : name = ""
          · rw [put_of_fit described defect, own, Option.getD_some]
            unfold save Link.call
            rw [if_pos empty]
            simp only [(Link.carries_http _).2 fits, if_true]
            split <;> exact .of_error _ _
          · have own : record.name = some (Key.mk location name).name := own
            have put := put_of_fits modest short located empty described own fits
            rw [put]
            exact .stored located empty own fits
        · have large := Link.not_carries_http fits
          rw [put_of_fit described defect]
          unfold save
          simp only
          split <;> rw [Link.call_of_large _ _ _ large] <;> exact .of_error _ _

omit modest short

theorem change_delete (location name : String) :
    Change ledger supply (.delete location name)
      (ledger.perform .http supply order (.delete location name)) := by
  rw [perform_delete]
  unfold delete
  by_cases empty : name = ""
  · rw [if_pos empty]
    exact .of_error _ _
  · rw [if_neg empty]
    have still := get_still ledger .http location name
    cases got : ledger.get .http location name with
    | mk told next =>
      rw [got] at still
      obtain rfl : next = ledger := still
      match told with
      | .error error => exact .of_error _ _
      | .ok [] => exact .of_error _ _
      | .ok (current :: rest) =>
        have held := find?_of_got empty got List.mem_cons_self
        simp only
        by_cases fits : (Request.mk .delete [current.message location]).Fits
        · rw [remove_of_present held fits]
          exact @Change.removed _ supply ⟨location, name⟩ current held
        · have large := Link.not_carries_http fits
          unfold remove
          rw [held]
          simp only [Link.call_of_large _ _ _ large]
          exact .of_error _ _

include modest short

theorem change_perform (verb : Verb) :
    Change ledger supply verb (ledger.perform .http supply order verb) := by
  cases verb with
  | get location name =>
    rw [perform_get]
    exact .of_still _ .records (fun _ _ => nofun) (fun _ => nofun)
      (get_still ledger .http location name)
  | put location argument record => exact change_put order modest short location argument record
  | delete location name => exact change_delete order location name
  | precheck location records =>
    rw [perform_precheck]
    exact .of_still _ .passed (fun _ _ => nofun) (fun _ => nofun)
      (precheck_still ledger .http order location records)

theorem modest_perform (verb : Verb) : (ledger.perform .http supply order verb).2.Modest := by
  have left : Leaves ledger supply (ledger.perform .http supply order verb).2 :=
    leaves_perform order verb
  generalize (ledger.perform .http supply order verb).2 = next at left ⊢
  cases left with
  | kept => exact modest
  | stored located named name fits => exact modest_store modest (short _) fits
  | removed key => exact modest_erase modest key

end Perform

theorem call_ne_notFound {α σ : Type} {link : Link} {envelope reply text : String} {value : α}
    {after before : σ} :
    (link.call envelope reply (.ok value) after before).1 ≠ .error (.notFound text) := by
  unfold Link.call
  split
  · split <;> exact nofun
  · exact nofun

theorem get_ne_notFound (ledger : Ledger) (link : Link) (location name text : String) :
    (ledger.get link location name).1 ≠ .error (.notFound text) := by
  unfold get defect?
  by_cases empty : location = ""
  · rw [if_pos empty]
    exact nofun
  · rw [if_neg empty, if_neg (by simp [Record.named])]
    exact call_ne_notFound

theorem notFound_delete {ledger : Ledger} {link : Link} {location name text : String}
    (told : (ledger.delete link location name).1 = .error (.notFound text)) :
    text = missing name := by
  unfold delete at told
  split at told
  · cases told
  · have found := get_ne_notFound ledger link location name text
    split at told
    · next error next got =>
      rw [got] at found
      exact absurd (congrArg Except.error (Except.error.inj told)) found
    · exact (ApiError.notFound.inj (Except.error.inj told)).symm
    · unfold remove at told
      simp only at told
      split at told
      · unfold Link.call at told
        split at told
        · simp only at told
          split at told
          · exact (ApiError.notFound.inj (Except.error.inj told)).symm
          · cases told
        · cases told
      · exact absurd told call_ne_notFound

/-- Whether an answer tells that the record under a key was created. -/
def creates (key : Key) : Except ApiError Reply → Bool
  | .ok (.record record) =>
    record.location = some key.location ∧ record.name = some key.name ∧
      (record.properties.getD {}).statuses.find? Status.provisioningKey = some "CREATED"
  | _ => false

/-- Whether an operation and its answer tell that the record under a key was deleted. -/
def deletes (key : Key) (verb : Verb) (answer : Except ApiError Reply) : Bool :=
  verb = .delete key.location key.name ∧ answer = .ok .deleted

def present (ledger : Ledger) (key : Key) : Nat := (ledger.records.find? key).isSome.toNat

theorem creates_stored (ledger : Ledger) (fresh : String) {key : Key} {record : Record}
    (name : record.name = some key.name) (other : Key) :
    creates other (.ok (.record (ledger.stored fresh key record))) = true ↔
      other = key ∧ ledger.records.find? key = none := by
  have word : ((ledger.stored fresh key record).properties.getD {}).statuses.find?
      Status.provisioningKey = some (ledger.provision key).word := by
    show (statuses (ledger.provision key)).find? _ = _
    cases ledger.provision key <;> decide
  have first : (ledger.provision key).word = "CREATED" ↔ ledger.records.find? key = none := by
    unfold provision
    cases ledger.records.find? key <;> simp [Provision.word]
  have same : other = key ↔ key.location = other.location ∧ key.name = other.name := by
    obtain ⟨place, own⟩ := key
    obtain ⟨otherPlace, otherOwn⟩ := other
    rw [Key.mk.injEq, eq_comm, @eq_comm _ otherOwn]
  unfold creates
  rw [decide_eq_true_iff, word, Option.some.injEq, first, same, and_assoc]
  show some key.location = _ ∧ record.name = _ ∧ _ ↔ _
  rw [name, Option.some.injEq, Option.some.injEq]

theorem deletes_deleted (key other : Key) :
    deletes other (.delete key.location key.name) (.ok .deleted) = true ↔ other = key := by
  obtain ⟨place, own⟩ := key
  obtain ⟨otherPlace, otherOwn⟩ := other
  unfold deletes
  rw [decide_eq_true_iff, Verb.delete.injEq, Key.mk.injEq, eq_comm, @eq_comm _ otherOwn]
  exact and_iff_left rfl

/-- Each creation adds a record, and each deletion takes one away. -/
theorem balance_perform {ledger : Ledger} {supply : Nat → String} {verb : Verb}
    {told : Except ApiError Reply × Ledger} (change : Change ledger supply verb told) (key : Key) :
    (creates key told.1).toNat + ledger.present key =
      (deletes key verb told.1).toNat + told.2.present key := by
  cases change with
  | kept unstored unremoved =>
    rename_i answer
    have uncreated : creates key answer = false := by
      match answer with
      | .ok (.record record) => exact absurd rfl (unstored record)
      | .ok (.records _) | .ok .deleted | .ok (.passed _) | .error _ => rfl
    have undeleted : deletes key verb answer = false :=
      decide_eq_false fun deleted => unremoved deleted.2
    rw [uncreated, undeleted]
  | stored located named name fits =>
    rename_i place argument record
    have undeleted : deletes key (.put place.location argument (some record))
        (.ok (.record (ledger.stored (supply ledger.drawn) place record))) = false :=
      decide_eq_false fun deleted => nomatch deleted.1
    have created := creates_stored ledger (supply ledger.drawn) name key
    rw [undeleted]
    unfold present store
    rw [OrderedMap.find?_insert]
    by_cases same : key = place
    · subst same
      cases held : ledger.records.find? key with
      | none =>
        rw [created.2 ⟨rfl, held⟩]
        simp
      | some old =>
        have uncreated := Bool.eq_false_iff.2 fun told => absurd (created.1 told).2 (by simp [held])
        rw [uncreated]
        simp
    · have uncreated := Bool.eq_false_iff.2 fun told => same (created.1 told).1
      rw [uncreated, if_neg same]
  | removed held =>
    rename_i place record
    have uncreated : creates key (.ok .deleted) = false := rfl
    have deleted := deletes_deleted place key
    rw [uncreated]
    unfold present
    rw [OrderedMap.find?_erase]
    by_cases same : key = place
    · subst same
      rw [deleted.2 rfl, held]
      simp
    · have undeleted := Bool.eq_false_iff.2 fun told => same (deleted.1 told)
      rw [undeleted, if_neg same]

/-- What a run creates and does not delete is there at its end. -/
theorem Tells.balance {supply : Nat → String} (short : ∀ n, (supply n).utf8ByteSize ≤ idSize)
    {verbs : List Verb} {ledger last : Ledger} {answers : List (Except ApiError Reply)}
    (told : Tells .http supply verbs ledger answers last) (modest : ledger.Modest) (key : Key) :
    answers.countP (creates key) + ledger.present key =
      (verbs.zip answers).countP (fun pair => deletes key pair.1 pair.2) + last.present key := by
  induction told with
  | nil ledger => rfl
  | @cons verb rest ledger last order answers _ _ ih =>
    have first := balance_perform (change_perform order modest short verb) key
    have others := ih (modest_perform order modest short verb)
    simp only [List.zip_cons_cons, List.countP_cons] at others ⊢
    cases created : creates key (ledger.perform .http supply order verb).1 <;>
      cases deleted : deletes key verb (ledger.perform .http supply order verb).1 <;>
        simp [created, deleted] at first others ⊢ <;> omega

/-- How many bytes the envelope of a deletion may take more than that of the creation. -/
def room : Nat := 218

/-- Whether a record can be deleted wherever it can be created. -/
def Roomy (ledger : Ledger) : Prop :=
  ∀ key record, ledger.records.find? key = some record →
    (Request.mk .delete [record.message key.location]).Fits

/-- Whether the envelope of an operation leaves room for the deletion of the record. -/
def Small : Verb → Prop
  | .put location _ (some record) =>
    (Request.codec.encode ⟨.post, [record.message location]⟩).utf8ByteSize + room ≤
      Service.maxBodySize
  | _ => True

theorem roomy_empty : Roomy {} := OrderedMap.all_empty

theorem size_delete_stored {ledger : Ledger} (modest : ledger.Modest) {fresh : String}
    (short : fresh.utf8ByteSize ≤ idSize) (key : Key) (record : Record) :
    (Request.codec.encode
        ⟨.delete, [(ledger.stored fresh key record).message key.location]⟩).utf8ByteSize ≤
      (Request.codec.encode ⟨.post, [record.message key.location]⟩).utf8ByteSize + room := by
  have id := size_id_stored modest short key record
  have own := size_of_id (record.message key.location)
    ((ledger.stored fresh key record).id.getD "")
  have literal := Json.Tree.size_ofString_le ((ledger.stored fresh key record).id.getD "")
  have former := Json.Tree.le_size_ofString (record.message key.location).id
  have delete : (Json.Tree.ofString Operation.delete.word).size = 8 := by decide +kernel
  have post : (Json.Tree.ofString Operation.post.word).size = 6 := by decide +kernel
  rw [size_request, size_request, message_stored, delete, post]
  unfold idSize at id
  unfold room
  omega

theorem roomy_perform {ledger : Ledger} (modest : ledger.Modest) {supply : Nat → String}
    (short : ∀ n, (supply n).utf8ByteSize ≤ idSize) (order : List Record) (roomy : ledger.Roomy)
    {verb : Verb} (small : Small verb) : (ledger.perform .http supply order verb).2.Roomy := by
  have change := change_perform order modest short verb
  generalize ledger.perform .http supply order verb = told at change ⊢
  cases change with
  | kept unstored unremoved => exact roomy
  | stored located named name fits =>
    have fits_delete := Nat.le_trans (size_delete_stored modest (short ledger.drawn) _ _) small
    exact OrderedMap.all_insert roomy fits_delete
  | removed held => exact OrderedMap.all_erase roomy _

theorem Tells.roomy {supply : Nat → String} (short : ∀ n, (supply n).utf8ByteSize ≤ idSize)
    {verbs : List Verb} {ledger last : Ledger} {answers : List (Except ApiError Reply)}
    (told : Tells .http supply verbs ledger answers last) (small : ∀ verb ∈ verbs, Small verb)
    (modest : ledger.Modest) (roomy : ledger.Roomy) : last.Roomy := by
  induction told with
  | nil ledger => exact roomy
  | @cons verb rest ledger last order answers _ _ ih =>
    exact ih (fun other mem => small other (List.mem_cons_of_mem _ mem))
      (modest_perform order modest short verb)
      (roomy_perform modest short order roomy (small verb List.mem_cons_self))

end Ledger

end PublicIp
