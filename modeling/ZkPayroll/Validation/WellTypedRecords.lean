import ZkPayroll.Validation.CollectedIssues

/-!
# Reports about records, and well-typed records

The check of a record reports issues about this record only, none of them a
duplicate (`validateRecord_about`). So what a pass collects of the records tells
the place of each (`about_of_getElem?_okPrefix`).

A record that is as its type has it (`IsRecord`) is checked without an error
(`exists_validateRecord`), and so are the amounts added. `checkDuplicates` gives
an issue for each record whose key an earlier one has (`checkDuplicates_keys`).
-/

namespace ZkPayroll.Validation

open Framework ZkPayroll.Core

variable {ν : Type}

/-! ## What a report is about -/

/-- The issues are about the record at `i`, and none is a duplicate. -/
def About (i : Nat) (issues : List (ValidationIssue ν)) : Prop :=
  ∀ b ∈ issues, b.recordIndex = some i ∧ b.category ≠ .duplicate

/-- What the check reports, if it does not throw, is about the record at `i`. -/
def ChecksRecord (i : Nat) (check : Except SdkError (List (ValidationIssue ν))) : Prop :=
  ∀ issues, check = .ok issues → About i issues

variable {i : Nat}

theorem About.append {xs ys : List (ValidationIssue ν)} (h : About i xs) (h' : About i ys) :
    About i (xs ++ ys) := List.forall_mem_append.mpr ⟨h, h'⟩

theorem about_nil (i : Nat) : About (ν := ν) i [] := List.forall_mem_nil _

theorem about_singleton {b : ValidationIssue ν} (hindex : b.recordIndex = some i)
    (hcategory : b.category ≠ .duplicate) : About i [b] := by
  intro b' hb
  rw [List.mem_singleton.mp hb]
  exact ⟨hindex, hcategory⟩

theorem ChecksRecord.ok {issues : List (ValidationIssue ν)} (h : About i issues) :
    ChecksRecord i (.ok issues) := by
  intro issues' heq
  cases heq
  exact h

theorem ChecksRecord.bind {α : Type} {x : Except SdkError α}
    {f : α → Except SdkError (List (ValidationIssue ν))} (h : ∀ a, ChecksRecord i (f a)) :
    ChecksRecord i (x >>= f) := by
  intro issues heq
  obtain ⟨a, -, ha⟩ := except_bind_eq_ok.mp heq
  exact h a issues ha

theorem ChecksRecord.ite {c : Prop} [Decidable c] {x y : Except SdkError (List (ValidationIssue ν))}
    (hx : ChecksRecord i x) (hy : ChecksRecord i y) : ChecksRecord i (if c then x else y) := by
  split
  · exact hx
  · exact hy

theorem about_amountIssue (i : Nat) (code message : String) (severity : Severity) :
    About (ν := ν) i [amountIssue i code message severity] := about_singleton rfl nofun

theorem ChecksRecord.ifOn {i : Nat} {flag : Setting Bool} {check : Except SdkError (List (ValidationIssue ν))}
    (h : ChecksRecord i check) : ChecksRecord i (ifOn flag check) := .ite h (.ok (about_nil i))

section Checks

variable [CommRing ν] [LinearOrder ν] {v : OfflineDraftValidator ν} {draft : DraftValue ν}
variable {missing : ValidationIssue ν}

theorem checksRecord_requiredText {i : Nat} {name : String} {value : DraftValue ν}
    {check : String → Except SdkError (List (ValidationIssue ν))} (hmissing : About i [missing])
    (hcheck : ∀ s, ChecksRecord i (check s)) : ChecksRecord i (requiredText name value missing check) := by
  unfold requiredText
  apply ChecksRecord.ite
  · split
    · exact .ite (.ok hmissing) (hcheck _)
    · exact .bind fun _ => .ok (about_nil i)
  · exact .ok hmissing

variable (record : DraftValue ν)
variable (i : Nat)

theorem checksRecord_employeeId : ChecksRecord i (validateEmployeeId record draft i) := by
  apply ChecksRecord.bind
  intro employeeId
  apply checksRecord_requiredText
  · exact about_singleton rfl nofun
  · intro id
    refine .bind fun valid => .ite (.ok (about_nil i)) (.bind fun text => .ok ?_)
    exact about_singleton rfl nofun

/-- The check of a required text that has one form. -/
theorem checksRecord_form {i : Nat} {name : String} {value : DraftValue ν}
    {valid : String → Bool} {issue : String → ValidationIssue ν} (hmissing : About i [missing])
    (hissue : ∀ s, About i [issue s]) :
    ChecksRecord i (requiredText name value missing fun s => return if valid s then [] else [issue s]) := by
  apply checksRecord_requiredText hmissing
  intro s
  apply ChecksRecord.ok
  split
  · exact about_nil i
  · exact hissue s

theorem checksRecord_asset : ChecksRecord i (validateAsset record i) := by
  apply ChecksRecord.bind
  intro asset
  apply checksRecord_form
  · exact about_singleton rfl nofun
  · intro s
    exact about_singleton rfl nofun

theorem checksRecord_period : ChecksRecord i (validatePeriod record i) := by
  apply ChecksRecord.bind
  intro period
  apply checksRecord_form
  · exact about_singleton rfl nofun
  · intro s
    exact about_singleton rfl nofun

theorem checksRecord_approval : ChecksRecord i (validateApproval v record i) := by
  refine .bind fun _ => .ite (.bind fun _ => .ite (.ok ?_) (.ok (about_nil i))) (.ok (about_nil i))
  exact about_singleton rfl nofun

variable [NumberFormat ν]

theorem checksRecord_amount (amount : DraftValue ν) (i : Nat) : ChecksRecord i (validateAmount v amount i draft) := by
  have hzero : About i (zeroAmount v amount i) := by
    unfold zeroAmount
    split
    · exact about_amountIssue i _ _ _
    · exact about_nil i
  have hsmall : ChecksRecord i (amountBelowMin v amount i draft) := by
    unfold amountBelowMin
    split
    · refine .bind fun _ => .bind fun _ => .ite (.bind fun _ => .bind fun _ => .ok ?_) (.ok (about_nil i))
      exact about_amountIssue i _ _ _
    · exact .ok (about_nil i)
  have hlarge : ChecksRecord i (amountAboveMax v amount i) := by
    unfold amountAboveMax
    split
    · exact .bind fun _ => .ite (.ok (about_amountIssue i _ _ _)) (.ok (about_nil i))
    · exact .ok (about_nil i)
  refine .bind fun _ => .ite (.ok (about_amountIssue i _ _ _)) ?_
  intro issues heq
  simp only [except_bind_eq_ok] at heq
  obtain ⟨small, hs, large, hl, heq⟩ := heq
  cases heq
  exact (hzero.append (hsmall small hs)).append (hlarge large hl)

theorem checksRecord_redaction : ChecksRecord i (validateRedaction record i draft) := by
  have hone (policy : DraftValue ν) (flag name message : String) (fix : Option String) :
      ChecksRecord i (redactionOf policy record flag name (redactionIssue i name message fix)) := by
    refine .bind fun _ => .ite (.bind fun _ => .ite (.bind fun _ => .ite (.ok (about_nil i)) (.ok ?_)) ?_) ?_
    · exact about_singleton rfl nofun
    · exact .ok (about_nil i)
    · exact .ok (about_nil i)
  have hamount (policy : DraftValue ν) (message : String) :
      ChecksRecord i (redactionOfAmount policy record (redactionIssue i "amount" message)) := by
    refine .bind fun _ => .ite (.bind fun _ => .bind fun _ => .bind fun _ => .ite (.ok (about_nil i)) (.ok ?_)) ?_
    · exact about_singleton rfl nofun
    · exact .ok (about_nil i)
  refine .bind fun policy => .ite ?_ (.ok (about_nil i))
  intro issues heq
  simp only [except_bind_eq_ok] at heq
  obtain ⟨names, hn, amounts, ha, ids, hi, notes, ho, heq⟩ := heq
  cases heq
  exact (((hone _ _ _ _ _ _ hn).append (hamount _ _ _ ha)).append (hone _ _ _ _ _ _ hi)).append (hone _ _ _ _ _ _ ho)

theorem validateRecord_about : ChecksRecord i (validateRecord v record i draft) := by
  intro issues heq
  simp only [validateRecord, except_bind_eq_ok] at heq
  obtain ⟨employee, he, asset, ha, amount, hm, period, hp, approval, ho, redaction, hr, heq⟩ := heq
  cases heq
  have hamount : ChecksRecord i (do validateAmount v (← property record "amount") i draft) :=
    .bind fun amount => checksRecord_amount amount i
  refine About.append (About.append (About.append (About.append (About.append ?_ ?_) ?_) ?_) ?_) ?_
  · exact (checksRecord_employeeId record i).ifOn _ he
  · exact (checksRecord_asset record i).ifOn _ ha
  · exact hamount.ifOn _ hm
  · exact (checksRecord_period record i).ifOn _ hp
  · exact (checksRecord_approval record i).ifOn _ ho
  · exact (checksRecord_redaction record i).ifOn _ hr

/-- Every report before the first check that throws is about its record. -/
theorem about_of_getElem?_okPrefix {records : List (DraftValue ν)} {i k : Nat} {issues : List (ValidationIssue ν)}
    (h : (okPrefix (checksFrom v draft records i))[k]? = some issues) : About (i + k) issues := by
  induction records generalizing i k with
  | nil => cases h
  | cons record records ih =>
    rw [checksFrom] at h
    cases hrecord : validateRecord v record i draft with
    | error e =>
      rw [hrecord, okPrefix] at h
      · cases h
      · intro b _ heq
        cases heq
    | ok found =>
      rw [hrecord, okPrefix] at h
      cases k with
      | zero =>
        obtain rfl : found = issues := by simpa using h
        exact validateRecord_about record i found hrecord
      | succ k =>
        have hrest : About (i + 1 + k) issues := ih (by simpa using h)
        rwa [Nat.add_assoc, Nat.add_comm 1 k] at hrest

end Checks

/-! ## Records -/

/-- A record, with the properties that the validator reads. -/
structure PayrollDraftRecord where
  employeeId : String
  employeeName : Option String := none
  amount : Int
  asset : String
  period : String
  notes : Option String := none
  requiresApproval : Option Bool := none
  isApproved : Option Bool := none

/-- The value of an optional property. -/
def optional {α : Type} (value : α → DraftValue ν) (o : Option α) : DraftValue ν := (o.map value).getD .undefined

/-- The value is the record. -/
structure IsRecord (r : PayrollDraftRecord) (fields : List (String × DraftValue ν)) : Prop where
  employeeId : field fields "employeeId" = .str r.employeeId
  employeeName : field fields "employeeName" = optional .str r.employeeName
  amount : field fields "amount" = .bigint r.amount
  asset : field fields "asset" = .str r.asset
  period : field fields "period" = .str r.period
  notes : field fields "notes" = optional .str r.notes
  requiresApproval : field fields "requiresApproval" = optional .bool r.requiresApproval
  isApproved : field fields "isApproved" = optional .bool r.isApproved

/-- The records of the draft are these. -/
def HasRecords (draft : DraftValue ν) (records : List PayrollDraftRecord) : Prop :=
  List.Forall₂ (fun r value => ∃ fields, value = .obj fields ∧ IsRecord r fields) records (recordsOf draft)

namespace PayrollDraftRecord

/-- Whether the employee is redacted. -/
def redacted (r : PayrollDraftRecord) : Bool :=
  includesText r.employeeId "[REDACTED]" || includesText r.employeeId "***" || r.employeeId = "REDACTED"

/-- The same employee, asset and period. -/
def Repeats (r s : PayrollDraftRecord) : Prop :=
  r.employeeId = s.employeeId ∧ r.asset = s.asset ∧ r.period = s.period

instance (r s : PayrollDraftRecord) : Decidable (Repeats r s) := inferInstanceAs (Decidable (_ ∧ _))

def key (r : PayrollDraftRecord) : String := s!"{r.employeeId}:{r.asset}:{r.period}"

/-- The key under which the record is looked for. -/
def keyOf (r : PayrollDraftRecord) : Option String := if r.redacted then none else some r.key

end PayrollDraftRecord

/-! ## Checks that do not throw -/

theorem exists_bind_ok {α β : Type} {x : Except SdkError α} {f : α → Except SdkError β} (hx : ∃ a, x = .ok a)
    (hf : ∀ a, ∃ b, f a = .ok b) : ∃ b, (x >>= f) = .ok b := by
  obtain ⟨a, rfl⟩ := hx
  exact hf a

theorem exists_ite_ok {α : Type} {c : Prop} [Decidable c] {x y : Except SdkError α} (hx : ∃ a, x = .ok a)
    (hy : ∃ a, y = .ok a) : ∃ a, (if c then x else y) = .ok a := by
  split
  · exact hx
  · exact hy

theorem exists_isRedacted (s : String) : ∃ b, isRedacted (.str s : DraftValue ν) = .ok b := by
  refine exists_bind_ok ⟨_, rfl⟩ fun _ => exists_ite_ok ⟨_, rfl⟩ ?_
  exact exists_bind_ok ⟨_, rfl⟩ fun _ => exists_ite_ok ⟨_, rfl⟩ ⟨_, rfl⟩

theorem isRedacted_employeeId (r : PayrollDraftRecord) :
    isRedacted (.str r.employeeId : DraftValue ν) = .ok r.redacted := by
  have hmarked : includes "[REDACTED]" (.str r.employeeId : DraftValue ν) =
      .ok (includesText r.employeeId "[REDACTED]") := rfl
  have hstars : includes "***" (.str r.employeeId : DraftValue ν) = .ok (includesText r.employeeId "***") := rfl
  rw [isRedacted, hmarked, hstars, PayrollDraftRecord.redacted]
  cases includesText r.employeeId "[REDACTED]" with
  | true => rfl
  | false =>
    cases includesText r.employeeId "***" with
    | true => rfl
    | false => rfl

theorem exists_ifOn (flag : Setting Bool) {check : Except SdkError (List (ValidationIssue ν))}
    (h : ∃ issues, check = .ok issues) : ∃ issues, ifOn flag check = .ok issues := exists_ite_ok h ⟨_, rfl⟩

section Checks

variable [CommRing ν] [LinearOrder ν] {v : OfflineDraftValidator ν} {draft : DraftValue ν}
  {r : PayrollDraftRecord} {fields : List (String × DraftValue ν)}

/-- A value that counts as true has properties. -/
theorem exists_property {value : DraftValue ν} (h : value.truthy = true) (name : String) :
    ∃ a, property value name = .ok a := by
  cases value with
  | undefined => cases h
  | null => cases h
  | _ => exact ⟨_, rfl⟩

theorem exists_redact (hdraft : draft.truthy = true) (value : String) : ∃ text, redact value draft = .ok text :=
  exists_bind_ok (exists_property hdraft "redactionPolicy") fun _ => ⟨_, rfl⟩

theorem exists_requiredText {name s : String} {missing : ValidationIssue ν}
    {check : String → Except SdkError (List (ValidationIssue ν))} (h : ∀ s, ∃ issues, check s = .ok issues) :
    ∃ issues, requiredText name (.str s) missing check = .ok issues :=
  exists_ite_ok (exists_ite_ok ⟨_, rfl⟩ (h s)) ⟨_, rfl⟩

theorem exists_isValidEmployeeId (id : String) : ∃ valid, isValidEmployeeId id = .ok valid :=
  exists_bind_ok (exists_isRedacted id) fun _ => exists_ite_ok ⟨_, rfl⟩ ⟨_, rfl⟩

/-- An optional text that is there is searched for a redaction. -/
theorem exists_redactionOf {policy : DraftValue ν} (hpolicy : policy.truthy = true) {flag name : String}
    {text : Option String} (h : field fields name = optional .str text) (issue : ValidationIssue ν) :
    ∃ issues, redactionOf policy (.obj fields) flag name issue = .ok issues := by
  refine exists_bind_ok (exists_property hpolicy flag) fun _ => exists_ite_ok ?_ ⟨_, rfl⟩
  show ∃ issues, (do
    if (field fields name).truthy then
      if ← isRedacted (field fields name) then return [] else return [issue]
    else return [] : Except SdkError (List (ValidationIssue ν))) = .ok issues
  rw [h]
  cases text with
  | none => exact ⟨_, rfl⟩
  | some s => exact exists_ite_ok (exists_bind_ok (exists_isRedacted s) fun _ => exists_ite_ok ⟨_, rfl⟩ ⟨_, rfl⟩) ⟨_, rfl⟩

/-! ### The check of a record -/

theorem exists_validateEmployeeId (hdraft : draft.truthy = true) (hr : IsRecord r fields) (i : Nat) :
    ∃ issues, validateEmployeeId (.obj fields) draft i = .ok issues := by
  show ∃ issues, requiredText "record.employeeId" (field fields "employeeId") _ _ = .ok issues
  rw [hr.employeeId]
  apply exists_requiredText
  intro id
  refine exists_bind_ok (exists_isValidEmployeeId id) fun _ => exists_ite_ok ⟨_, rfl⟩ ?_
  exact exists_bind_ok (exists_redact hdraft id) fun _ => ⟨_, rfl⟩

theorem exists_validateAsset (hr : IsRecord r fields) (i : Nat) :
    ∃ issues, validateAsset (.obj fields) i = .ok issues := by
  show ∃ issues, requiredText "record.asset" (field fields "asset") _ _ = .ok issues
  rw [hr.asset]
  exact exists_requiredText fun asset => ⟨_, rfl⟩

theorem exists_validatePeriod (hr : IsRecord r fields) (i : Nat) :
    ∃ issues, validatePeriod (.obj fields) i = .ok issues := by
  show ∃ issues, requiredText "record.period" (field fields "period") _ _ = .ok issues
  rw [hr.period]
  exact exists_requiredText fun period => ⟨_, rfl⟩

theorem exists_validateApproval (fields : List (String × DraftValue ν)) (i : Nat) :
    ∃ issues, validateApproval v (.obj fields) i = .ok issues :=
  exists_bind_ok ⟨_, rfl⟩ fun _ => exists_ite_ok (exists_bind_ok ⟨_, rfl⟩ fun _ => exists_ite_ok ⟨_, rfl⟩ ⟨_, rfl⟩) ⟨_, rfl⟩

variable [NumberFormat ν]

theorem exists_isAbove (n m : Int) : ∃ b, isAbove (.bigint n : DraftValue ν) m = .ok b := ⟨_, rfl⟩

theorem exists_isBelow (n m : Int) : ∃ b, isBelow (.bigint n : DraftValue ν) m = .ok b := ⟨_, rfl⟩

theorem exists_validateAmount (hdraft : draft.truthy = true) (amount : Int) (i : Nat) :
    ∃ issues, validateAmount v (.bigint amount) i draft = .ok issues := by
  have hsmall : ∃ issues, amountBelowMin v (.bigint amount) i draft = .ok issues := by
    unfold amountBelowMin
    split
    · refine exists_bind_ok (exists_isAbove amount 0) fun _ =>
        exists_bind_ok (exists_isBelow amount _) fun _ => exists_ite_ok ?_ ⟨_, rfl⟩
      exact exists_bind_ok ⟨toString amount, rfl⟩ fun text =>
        exists_bind_ok (exists_redact hdraft text) fun _ => ⟨_, rfl⟩
    · exact ⟨_, rfl⟩
  have hlarge : ∃ issues, amountAboveMax v (.bigint amount) i = .ok issues := by
    unfold amountAboveMax
    split
    · exact exists_bind_ok (exists_isAbove amount _) fun _ => exists_ite_ok ⟨_, rfl⟩ ⟨_, rfl⟩
    · exact ⟨_, rfl⟩
  refine exists_bind_ok (exists_isBelow amount 0) fun _ => exists_ite_ok ⟨_, rfl⟩ ?_
  exact exists_bind_ok hsmall fun _ => exists_bind_ok hlarge fun _ => ⟨_, rfl⟩

theorem exists_validateRedaction (hdraft : draft.truthy = true) (hr : IsRecord r fields) (i : Nat) :
    ∃ issues, validateRedaction (.obj fields) i draft = .ok issues := by
  have hid : field fields "employeeId" = optional .str (some r.employeeId) := hr.employeeId
  refine exists_bind_ok (exists_property hdraft "redactionPolicy") fun policy => ?_
  by_cases hpolicy : policy.truthy = true
  · rw [if_pos hpolicy]
    refine exists_bind_ok (exists_redactionOf hpolicy hr.employeeName _) fun _ => exists_bind_ok ?_ fun _ =>
      exists_bind_ok (exists_redactionOf hpolicy hid _) fun _ =>
        exists_bind_ok (exists_redactionOf hpolicy hr.notes _) fun _ => ⟨_, rfl⟩
    refine exists_bind_ok (exists_property hpolicy _) fun _ => exists_ite_ok ?_ ⟨_, rfl⟩
    show ∃ issues, (textOf "record.amount" (field fields "amount") >>= _) = .ok issues
    rw [hr.amount]
    refine exists_bind_ok ⟨toString r.amount, rfl⟩ fun text => ?_
    exact exists_bind_ok (exists_isRedacted text) fun _ => exists_ite_ok ⟨_, rfl⟩ ⟨_, rfl⟩
  · rw [if_neg hpolicy]
    exact ⟨_, rfl⟩

/-- A well-typed record is checked. -/
theorem exists_validateRecord (hdraft : draft.truthy = true) (hr : IsRecord r fields) (i : Nat) :
    ∃ issues, validateRecord v (.obj fields) i draft = .ok issues := by
  have hamount : ∃ issues, (do validateAmount v (← property (.obj fields) "amount") i draft) = .ok issues := by
    show ∃ issues, validateAmount v (field fields "amount") i draft = .ok issues
    rw [hr.amount]
    exact exists_validateAmount hdraft r.amount i
  refine exists_bind_ok (exists_ifOn _ (exists_validateEmployeeId hdraft hr i)) fun _ => ?_
  refine exists_bind_ok (exists_ifOn _ (exists_validateAsset hr i)) fun _ => ?_
  refine exists_bind_ok (exists_ifOn _ hamount) fun _ => ?_
  refine exists_bind_ok (exists_ifOn _ (exists_validatePeriod hr i)) fun _ => ?_
  refine exists_bind_ok (exists_ifOn _ (exists_validateApproval fields i)) fun _ => ?_
  exact exists_bind_ok (exists_ifOn _ (exists_validateRedaction hdraft hr i)) fun _ => ⟨_, rfl⟩

end Checks

/-! ## Duplicates -/

section Duplicates

variable [CommRing ν] [NumberFormat ν] {draft : DraftValue ν} {r : PayrollDraftRecord}
  {fields : List (String × DraftValue ν)} {records : List PayrollDraftRecord}

theorem duplicateKey_of_isRecord (hr : IsRecord r fields) : duplicateKey (.obj fields) = .ok r.keyOf := by
  show (do
    if ← isRedacted (field fields "employeeId") then return none
    else
      let employee ← stringOf (field fields "employeeId")
      let asset ← stringOf (field fields "asset")
      let period ← stringOf (field fields "period")
      return some s!"{employee}:{asset}:{period}" : Except SdkError (Option String)) = _
  rw [hr.employeeId, hr.asset, hr.period, isRedacted_employeeId, PayrollDraftRecord.keyOf]
  cases r.redacted with
  | true => rfl
  | false => rfl

/-- The key at place `k` was seen before or is at an earlier place. -/
def SeenBefore (seen : List (String × Nat)) (keys : List (Option String)) (k : Nat) (key : Option String) : Prop :=
  ∃ text, key = some text ∧ ((seen.lookup text).isSome = true ∨ ∃ l < k, keys[l]? = some (some text))

theorem exists_lt_succ_getElem?_cons {α : Type} {a b : α} {xs : List α} {k : Nat} :
    (∃ l < k + 1, (a :: xs)[l]? = some b) ↔ a = b ∨ ∃ l < k, xs[l]? = some b := by
  constructor
  · rintro ⟨l, hl, hb⟩
    cases l with
    | zero => exact .inl (by simpa using hb)
    | succ l => exact .inr ⟨l, by omega, by simpa using hb⟩
  · rintro (rfl | ⟨l, hl, hb⟩)
    · exact ⟨0, by omega, rfl⟩
    · exact ⟨l + 1, by omega, by simpa using hb⟩

variable {keys : List (Option String)}
variable {seen seen' : List (String × Nat)}

/-- A key in front counts as seen for the places after it. -/
theorem seenBefore_succ {key : Option String}
    (hseen : ∀ text, (seen'.lookup text).isSome = true ↔ (seen.lookup text).isSome = true ∨ key = some text)
    (k : Nat) (other : Option String) : SeenBefore seen (key :: keys) (k + 1) other ↔ SeenBefore seen' keys k other := by
  unfold SeenBefore
  simp only [hseen, exists_lt_succ_getElem?_cons, or_assoc]

theorem seenBefore_zero {seen : List (String × Nat)} {key : String} :
    SeenBefore seen keys 0 (some key) ↔ (seen.lookup key).isSome = true := by
  simp [SeenBefore]

/-- Of a list of keys, the first was seen before or one of the others was, with the first seen too. -/
theorem exists_seenBefore_cons {key : Option String}
    (hseen : ∀ text, (seen'.lookup text).isSome = true ↔ (seen.lookup text).isSome = true ∨ key = some text)
    (i j : Nat) :
    (∃ k other, (key :: keys)[k]? = some other ∧ SeenBefore seen (key :: keys) k other ∧ j = i + k) ↔
      SeenBefore seen (key :: keys) 0 key ∧ j = i ∨
        ∃ k other, keys[k]? = some other ∧ SeenBefore seen' keys k other ∧ j = i + 1 + k := by
  rw [exists_getElem?_cons (P := fun k other => SeenBefore seen (key :: keys) k other ∧ j = i + k)]
  simp only [seenBefore_succ hseen, Nat.add_zero, Nat.add_assoc, Nat.add_comm 1]

/-- Setting a key makes it a seen one. -/
theorem isSome_lookup_setKey {α : Type} (seen : List (String × α)) (key : String) (a : α) (text : String) :
    ((setKey key a seen).lookup text).isSome = true ↔ (seen.lookup text).isSome = true ∨ some key = some text := by
  rw [lookup_setKey]
  by_cases htext : text = key
  · simp [htext]
  · simp [htext, Ne.symm htext]

/-- A key that was seen is no new one. -/
theorem isSome_lookup_or {α : Type} {seen : List (String × α)} {key : String}
    (hkey : (seen.lookup key).isSome = true) (text : String) :
    (seen.lookup text).isSome = true ↔ (seen.lookup text).isSome = true ∨ some key = some text := by
  constructor
  · exact .inl
  · rintro (hseen | heq)
    · exact hseen
    · rwa [← Option.some.inj heq]

/-- The loop reports a record exactly if its key was seen before. -/
theorem duplicatesFrom_keys {records : List (DraftValue ν)}
    (h : List.Forall₂ (fun record key => duplicateKey record = .ok key) records keys) (i : Nat)
    (seen : List (String × Nat)) :
    ∃ issues, duplicatesFrom records i seen = .ok issues ∧
      (∀ b ∈ issues, b.severity = .blocker ∧ b.category = .duplicate) ∧
      ∀ j, (∃ b ∈ issues, b.recordIndex = some j) ↔
        ∃ k key, keys[k]? = some key ∧ SeenBefore seen keys k key ∧ j = i + k := by
  induction h generalizing i seen with
  | nil => exact ⟨[], rfl, List.forall_mem_nil _, by simp⟩
  | @cons record key records keys hkey _ ih =>
    cases key with
    | none =>
      obtain ⟨issues, hissues, hkind, hreported⟩ := ih (i + 1) seen
      refine ⟨issues, ?_, hkind, fun j => ?_⟩
      · rw [duplicatesFrom, hkey]
        exact hissues
      · rw [hreported, exists_seenBefore_cons fun text => (or_iff_left (Option.some_ne_none text).symm).symm]
        simp [SeenBefore]
    | some key =>
      cases hlookup : seen.lookup key with
      | some originalIndex =>
        have hseen : (seen.lookup key).isSome = true := by rw [hlookup, Option.isSome_some]
        obtain ⟨issues, hissues, hkind, hreported⟩ := ih (i + 1) seen
        refine ⟨duplicateIssue i originalIndex :: issues, ?_, ?_, fun j => ?_⟩
        · rw [duplicatesFrom, hkey]
          simp only [bind, Except.bind, hlookup, hissues]
          rfl
        · rw [List.forall_mem_cons]
          exact ⟨⟨rfl, rfl⟩, hkind⟩
        · have hindex : (duplicateIssue (ν := ν) i originalIndex).recordIndex = some j ↔ j = i :=
            ⟨fun h => (Option.some.inj h).symm, fun h => by rw [h]; rfl⟩
          rw [exists_seenBefore_cons (isSome_lookup_or hseen), ← hreported, List.exists_mem_cons_iff, hindex,
            and_iff_right (seenBefore_zero.mpr hseen)]
      | none =>
        have hnew : ¬(seen.lookup key).isSome = true := by simp [hlookup]
        obtain ⟨issues, hissues, hkind, hreported⟩ := ih (i + 1) (setKey key i seen)
        refine ⟨issues, ?_, hkind, fun j => ?_⟩
        · rw [duplicatesFrom, hkey]
          simp only [bind, Except.bind, hlookup]
          exact hissues
        · rw [hreported, exists_seenBefore_cons (isSome_lookup_setKey seen key i),
            or_iff_right fun h => hnew (seenBefore_zero.mp h.1)]

/-- A record that has the key of an earlier one. -/
def KeyRepeats (records : List PayrollDraftRecord) (j : Nat) : Prop :=
  ∃ r, records[j]? = some r ∧ r.redacted = false ∧
    ∃ i < j, ∃ s, records[i]? = some s ∧ s.redacted = false ∧ s.key = r.key

theorem keyOf_eq_some {r : PayrollDraftRecord} {text : String} :
    r.keyOf = some text ↔ r.redacted = false ∧ r.key = text := by
  unfold PayrollDraftRecord.keyOf
  cases r.redacted with
  | true => simp
  | false => simp

/-- The keys that are seen before, for the records that have them. -/
theorem seenBefore_keyOf {j : Nat} :
    (∃ k key, (records.map PayrollDraftRecord.keyOf)[k]? = some key ∧
        SeenBefore [] (records.map PayrollDraftRecord.keyOf) k key ∧ j = 0 + k) ↔ KeyRepeats records j := by
  have hkey (k : Nat) (text : String) : (records.map PayrollDraftRecord.keyOf)[k]? = some (some text) ↔
      ∃ r, records[k]? = some r ∧ r.redacted = false ∧ r.key = text := by
    rw [List.getElem?_map, Option.map_eq_some_iff]
    simp only [keyOf_eq_some]
  constructor
  · rintro ⟨k, _, hk, ⟨text, rfl, hseen | ⟨l, hl, hlk⟩⟩, hj⟩
    · cases hseen
    · obtain ⟨r, hr, hredacted, hrk⟩ := (hkey k text).mp hk
      obtain ⟨s, hs, hsredacted, hsk⟩ := (hkey l text).mp hlk
      rw [Nat.zero_add] at hj
      rw [hj]
      exact ⟨r, hr, hredacted, l, hl, s, hs, hsredacted, hsk.trans hrk.symm⟩
  · rintro ⟨r, hr, hredacted, i, hi, s, hs, hsredacted, heq⟩
    have hk := (hkey j r.key).mpr ⟨r, hr, hredacted, rfl⟩
    have hl := (hkey i r.key).mpr ⟨s, hs, hsredacted, heq⟩
    exact ⟨j, _, hk, ⟨r.key, rfl, .inr ⟨i, hi, hl⟩⟩, (Nat.zero_add j).symm⟩

/-- Well-typed records are searched for duplicates, and those found have the key
of an earlier one. -/
theorem checkDuplicates_keys (h : HasRecords draft records) :
    ∃ issues, checkDuplicates draft = .ok issues ∧
      (∀ b ∈ issues, b.severity = .blocker ∧ b.category = .duplicate) ∧
      ∀ j, (∃ b ∈ issues, b.recordIndex = some j) ↔ KeyRepeats records j := by
  have hkeys : List.Forall₂ (fun record key => duplicateKey record = .ok key) (recordsOf draft)
      (records.map PayrollDraftRecord.keyOf) := by
    rw [List.forall₂_map_right_iff]
    refine (List.Forall₂.imp ?_ h).flip
    rintro r value ⟨fields, rfl, hr⟩
    exact duplicateKey_of_isRecord hr
  obtain ⟨issues, hissues, hkind, hreported⟩ := duplicatesFrom_keys hkeys 0 []
  exact ⟨issues, hissues, hkind, fun j => (hreported j).trans seenBefore_keyOf⟩

/-! ## Amounts -/

theorem exists_totalAmountFrom {values : List (DraftValue ν)}
    (h : List.Forall₂ (fun r value => ∃ fields, value = .obj fields ∧ IsRecord r fields) records values) (total : Int) :
    ∃ sum, totalAmountFrom (.bigint total : DraftValue ν) values = .ok (.bigint sum) := by
  induction h generalizing total with
  | nil => exact ⟨total, rfl⟩
  | @cons r value records values hvalue _ ih =>
    obtain ⟨fields, rfl, hr⟩ := hvalue
    obtain ⟨sum, hsum⟩ := ih (total + r.amount)
    refine ⟨sum, ?_⟩
    show (addTo (.bigint total) (field fields "amount") >>= fun t => totalAmountFrom t values) = _
    rw [hr.amount]
    exact hsum

theorem exists_validateBatchConstraints (h : HasRecords draft records) :
    ∃ issues, validateBatchConstraints draft = .ok issues := by
  obtain ⟨sum, hsum⟩ := exists_totalAmountFrom h 0
  refine exists_ite_ok ⟨_, rfl⟩ ?_
  rw [hsum]
  exact ⟨_, rfl⟩

theorem general_validateBatchConstraints {issues : List (ValidationIssue ν)}
    (h : validateBatchConstraints draft = .ok issues) : ∀ b ∈ issues, General b := by
  intro b hb
  simp only [validateBatchConstraints] at h
  split at h
  · cases h
    rw [List.mem_singleton.mp hb]
    exact ⟨rfl, nofun⟩
  · obtain ⟨total, -, h⟩ := except_bind_eq_ok.mp h
    cases h
    split at hb
    · rw [List.mem_singleton.mp hb]
      exact ⟨rfl, nofun⟩
    · cases hb

end Duplicates

end ZkPayroll.Validation
