import ZkPayroll.Validation.WellTypedRecords

/-!
# What the validation of a draft tells

`validate` gives a result for a draft that has records to count, whatever the
checks throw (`HasLength`). Where the structure lets the records be checked,
the records that are reported as duplicates repeat an earlier one, and the valid
records are those without a blocker (`ValidatesAsChecked`,
`validates_as_checked`). A draft without a structure has no duplicates, and one
without records gets no result (`missing_records_and_unowned_duplicates`).
-/

namespace ZkPayroll.Validation

open Framework ZkPayroll.Core

variable {ν : Type} [NumberFormat ν] [CommRing ν] [LinearOrder ν]

/-! ## Statements -/

/-- There is nothing to count, or the records have a length that is a number. -/
def HasLength (rt : Runtime ν) (draft : DraftValue ν) : Prop :=
  draft.truthy = false ∨
    match property draft "records" with
    | .ok .undefined => False
    | .ok .null => False
    | .ok (.obj fields) => ∃ n, toNumber rt.numberOf (field fields "length") = .ok n
    | .ok _ => True
    | .error _ => False

/-- The result reports the record at `j` as a duplicate. -/
def ReportsDuplicate (r : DraftValidationResult ν) (j : Nat) : Prop :=
  ∃ b ∈ r.blockers, b.category = .duplicate ∧ b.recordIndex = some j

/-- A custom validator reports the record at `j` as a duplicate. -/
def CustomDuplicate (v : OfflineDraftValidator ν) (draft : DraftValue ν) (j : Nat) : Prop :=
  ∃ validator ∈ customValidators v, ∃ issues, validator draft = .ok issues ∧
    ∃ b ∈ issues, b.severity = .blocker ∧ b.category = .duplicate ∧ b.recordIndex = some j

/-- The record at `j` is of an employee who is not redacted and has an earlier
record for the same asset and period. -/
def RepeatsEarlier (records : List PayrollDraftRecord) (j : Nat) : Prop :=
  ∃ r, records[j]? = some r ∧ r.redacted = false ∧ ∃ i < j, ∃ s, records[i]? = some s ∧ s.Repeats r

/-- Records with the same key repeat each other. -/
def KeysTell (records : List PayrollDraftRecord) : Prop :=
  ∀ r ∈ records, ∀ s ∈ records, r.redacted = false → s.redacted = false → r.key = s.key → r.Repeats s

/-- A blocker of a check that comes after those of the records. -/
def LaterBlocker (v : OfflineDraftValidator ν) (draft : DraftValue ν) (b : ValidationIssue ν) : Prop :=
  b.severity = .blocker ∧
    ((isOn v.config.checkDuplicates = true ∧ ∃ issues, checkDuplicates draft = .ok issues ∧ b ∈ issues) ∨
      ∃ validator ∈ customValidators v, ∃ issues, validator draft = .ok issues ∧ b ∈ issues)

/-- Later checks have blockers only for records that have one already. -/
def LaterBlockersRepeat (v : OfflineDraftValidator ν) (draft : DraftValue ν) : Prop :=
  ∀ b j, LaterBlocker v draft b → b.recordIndex = some j →
    ∀ issues, (recordReports v draft)[j]? = some issues → blockersOf issues ≠ []

/-- `validate` reports what its checks find. -/
structure ValidatesAsChecked (rt : Runtime ν) (v : OfflineDraftValidator ν) (draft : DraftValue ν) : Prop where
  returns : HasLength rt draft → ∃ r, v.validate rt draft = .ok r
  duplicates : ∀ r records, v.validate rt draft = .ok r → isOn v.config.checkDuplicates = true →
    HasRecords draft records → KeysTell records → ∀ j,
      ReportsDuplicate r j ↔ structurePasses v draft = true ∧ (RepeatsEarlier records j ∨ CustomDuplicate v draft j)
  isValid : ∀ r, v.validate rt draft = .ok r → (r.isValid = true ↔ r.blockers = [])
  /-- The valid records are the checked ones without a blocker. -/
  validRecords : ∀ r, v.validate rt draft = .ok r → LaterBlockersRepeat v draft →
    r.summary.validRecords =
      ((Finset.range (recordReports v draft).length).filter fun j => ∀ b ∈ r.blockers, b.recordIndex ≠ some j).card
  /-- Well-typed records are all checked, if the structure is in order. -/
  checked : ∀ records, structurePasses v draft = true → HasRecords draft records →
    (recordReports v draft).length = records.length

/-! ## The length of the records -/

variable {rt : Runtime ν} {v : OfflineDraftValidator ν} {draft : DraftValue ν} {records : List PayrollDraftRecord}

theorem recordCounts_of_hasLength (h : HasLength rt draft) (valid : Nat) :
    ∃ counts, recordCounts rt draft valid = .ok counts := by
  have hcount : ∃ count n, recordCount draft = .ok count ∧ toNumber rt.numberOf count = .ok n := by
    unfold recordCount
    obtain hfalsy | hlength := h
    · rw [hfalsy]
      exact ⟨_, _, rfl, rfl⟩
    · cases htruthy : draft.truthy with
      | false => exact ⟨_, _, rfl, rfl⟩
      | true =>
        cases hrecords : property draft "records" with
        | error e =>
          rw [hrecords] at hlength
          cases hlength
        | ok value =>
          rw [hrecords] at hlength
          cases value with
          | undefined => cases hlength
          | null => cases hlength
          | obj fields =>
            obtain ⟨n, hn⟩ := hlength
            exact ⟨_, n, rfl, hn⟩
          | _ => exact ⟨_, _, rfl, rfl⟩
  obtain ⟨count, n, hcount, hn⟩ := hcount
  refine ⟨(count, JsNumber.sub n (.finite (valid : ν))), ?_⟩
  rw [recordCounts, hcount]
  show (toNumber rt.numberOf count >>= fun n => pure (count, JsNumber.sub n (.finite (valid : ν)))) = _
  rw [hn]
  rfl

/-! ## What the reports are -/

variable {issues : List (ValidationIssue ν)}

/-- Where an issue of the reports comes from: a record, `checkDuplicates`, the
draft as a whole or a custom validator. -/
theorem mem_reports (h : issues ∈ reports v draft) :
    structurePasses v draft = true ∧
      (issues ∈ recordReports v draft ∨ ifOn v.config.checkDuplicates (checkDuplicates draft) = .ok issues ∨
        (∀ b ∈ issues, General b) ∨ ∃ validator ∈ customValidators v, issues = customIssues draft validator) := by
  unfold reports at h
  split at h
  next hpasses =>
    refine ⟨hpasses, ?_⟩
    rw [recordReports, if_pos hpasses]
    obtain hrecord | hlater := mem_okPrefix_append h
    · exact .inl hrecord
    · rw [laterChecks, List.mem_cons, List.mem_cons, List.mem_map] at hlater
      obtain hduplicates | hbatch | ⟨validator, hvalidator, hcustom⟩ := hlater
      · exact .inr (.inl hduplicates.symm)
      · exact .inr (.inr (.inl (general_validateBatchConstraints hbatch.symm)))
      · exact .inr (.inr (.inr ⟨validator, hvalidator, (Except.ok.inj hcustom).symm⟩))
  next => cases h

theorem recordReports_subset (h : issues ∈ recordReports v draft) : issues ∈ reports v draft := by
  unfold recordReports at h
  unfold reports
  split at h
  next hpasses =>
    rw [if_pos hpasses]
    exact mem_okPrefix_append_left _ h
  next => cases h

theorem about_recordReports {k : Nat} (h : (recordReports v draft)[k]? = some issues) :
    About k issues := by
  unfold recordReports at h
  split at h
  next => simpa using about_of_getElem?_okPrefix h
  next => cases h

variable {r : DraftValidationResult ν}

/-- Where a blocker that names a record comes from. -/
theorem blocker_cases (h : v.validate rt draft = .ok r) {b : ValidationIssue ν}
    (hb : b ∈ r.blockers) {j : Nat} (hj : b.recordIndex = some j) :
    (∃ issues, (recordReports v draft)[j]? = some issues ∧ b ∈ blockersOf issues) ∨
      structurePasses v draft = true ∧ LaterBlocker v draft b := by
  have hgeneral (hb : General b) : False := by
    rw [hb.1] at hj
    cases hj
  obtain ⟨p, ⟨⟨general, hall, hblockers⟩, -⟩, htells⟩ := validate_cases h
  rw [htells.blockers, hblockers, List.mem_append, List.mem_flatMap] at hb
  obtain ⟨issues, hissues, hb⟩ | hb := hb
  · obtain ⟨hmem, hseverity⟩ := mem_blockersOf.mp hb
    obtain ⟨hpasses, hrecord | hduplicates | hbatch | ⟨validator, hvalidator, rfl⟩⟩ := mem_reports hissues
    · obtain ⟨k, hk⟩ := List.mem_iff_getElem?.mp hrecord
      obtain ⟨hindex, -⟩ := about_recordReports hk b hmem
      rw [hindex] at hj
      cases hj
      exact .inl ⟨issues, hk, hb⟩
    · refine .inr ⟨hpasses, hseverity, .inl ?_⟩
      unfold ifOn at hduplicates
      split at hduplicates
      next hon => exact ⟨hon, issues, hduplicates, hmem⟩
      next =>
        cases hduplicates
        cases hmem
    · exact (hgeneral (hbatch b hmem)).elim
    · obtain hb | ⟨issues, hrun, hb⟩ := mem_customIssues hmem
      · exact (hgeneral hb).elim
      · exact .inr ⟨hpasses, hseverity, .inr ⟨validator, hvalidator, issues, hrun, hb⟩⟩
  · exact (hgeneral (hall b hb)).elim

theorem mem_blockers_of_reports (h : v.validate rt draft = .ok r)
    (hissues : issues ∈ reports v draft) {b : ValidationIssue ν}
    (hb : b ∈ blockersOf issues) : b ∈ r.blockers := by
  obtain ⟨p, ⟨⟨general, -, hblockers⟩, -⟩, htells⟩ := validate_cases h
  rw [htells.blockers, hblockers]
  exact List.mem_append_left _ (List.mem_flatMap.mpr ⟨issues, hissues, hb⟩)

/-! ## The valid records -/

theorem validRecords_eq (h : v.validate rt draft = .ok r) (hlater : LaterBlockersRepeat v draft) :
    r.summary.validRecords =
      ((Finset.range (recordReports v draft).length).filter fun j => ∀ b ∈ r.blockers, b.recordIndex ≠ some j).card := by
  obtain ⟨p, ⟨-, hvalid⟩, htells⟩ := validate_cases h
  rw [htells.validRecords, hvalid]
  congr 1
  ext j
  rw [mem_clearFrom, Finset.mem_filter, Finset.mem_range]
  constructor
  · rintro ⟨k, issues, hk, hclear, hj⟩
    obtain rfl : j = k := by omega
    refine ⟨(List.getElem?_eq_some_iff.mp hk).1, fun b hb hindex => ?_⟩
    obtain ⟨issues', hissues', hb⟩ | ⟨-, hb⟩ := blocker_cases h hb hindex
    · obtain rfl : issues = issues' := Option.some.inj (hk.symm.trans hissues')
      rw [hclear] at hb
      cases hb
    · exact hlater b j hb hindex issues hk hclear
  · rintro ⟨hlt, hnone⟩
    have hk : (recordReports v draft)[j]? = some (recordReports v draft)[j] := List.getElem?_eq_getElem hlt
    refine ⟨j, _, hk, ?_, (Nat.zero_add j).symm⟩
    rw [List.eq_nil_iff_forall_not_mem]
    intro b hb
    obtain ⟨hindex, -⟩ := about_recordReports hk b (mem_blockersOf.mp hb).1
    exact hnone b (mem_blockers_of_reports h (recordReports_subset (List.mem_of_getElem? hk)) hb) hindex

/-! ## Well-typed records -/

/-- The checks of well-typed records do not throw. -/
theorem exists_checksFrom {values : List (DraftValue ν)} (hdraft : draft.truthy = true)
    (h : List.Forall₂ (fun r value => ∃ fields, value = .obj fields ∧ IsRecord r fields) records values) (i : Nat) :
    ∃ found : List (List (ValidationIssue ν)),
      checksFrom v draft values i = found.map .ok ∧ found.length = records.length := by
  induction h generalizing i with
  | nil => exact ⟨[], rfl, rfl⟩
  | @cons r value records values hvalue _ ih =>
    obtain ⟨fields, rfl, hr⟩ := hvalue
    obtain ⟨issues, hissues⟩ := exists_validateRecord (v := v) hdraft hr i
    obtain ⟨found, hfound, hlength⟩ := ih (i + 1)
    refine ⟨issues :: found, ?_, ?_⟩
    · rw [checksFrom, hissues, hfound, List.map_cons]
    · rw [List.length_cons, List.length_cons, hlength]

theorem truthy_of_passes (h : structurePasses v draft = true) : draft.truthy = true := by
  unfold structurePasses at h
  rw [Bool.and_eq_true] at h
  exact h.1

theorem length_recordReports (hpasses : structurePasses v draft = true) (h : HasRecords draft records) :
    (recordReports v draft).length = records.length := by
  obtain ⟨found, hfound, hlength⟩ := exists_checksFrom (v := v) (truthy_of_passes hpasses) h 0
  rw [recordReports, if_pos hpasses, recordChecks, hfound, okPrefix_map_ok, hlength]

/-- All later checks report, if the records are well-typed. -/
theorem mem_reports_of_later (hpasses : structurePasses v draft = true) (h : HasRecords draft records)
    (hissues : .ok issues ∈ laterChecks v draft) : issues ∈ reports v draft := by
  obtain ⟨found, hfound, -⟩ := exists_checksFrom (v := v) (truthy_of_passes hpasses) h 0
  obtain ⟨duplicates, hduplicates, -⟩ := checkDuplicates_keys h
  obtain ⟨batch, hbatch⟩ := exists_validateBatchConstraints h
  obtain ⟨checked, hchecked⟩ := exists_ifOn v.config.checkDuplicates ⟨duplicates, hduplicates⟩
  have hlater : laterChecks v draft =
      (checked :: batch :: (customValidators v).map (customIssues draft)).map .ok := by
    rw [laterChecks, hchecked, hbatch, List.map_cons, List.map_cons, List.map_map]
    rfl
  rw [reports, if_pos hpasses, recordChecks, hfound, hlater, ← List.map_append, okPrefix_map_ok]
  rw [hlater] at hissues
  exact List.mem_append_right _ (by simpa using hissues)

theorem keyRepeats_iff (hkeys : KeysTell records) (j : Nat) : KeyRepeats records j ↔ RepeatsEarlier records j := by
  constructor
  · rintro ⟨r, hr, hredacted, i, hi, s, hs, hsredacted, heq⟩
    have hsr := hkeys s (List.mem_of_getElem? hs) r (List.mem_of_getElem? hr) hsredacted hredacted heq
    exact ⟨r, hr, hredacted, i, hi, s, hs, hsr⟩
  · rintro ⟨r, hr, hredacted, i, hi, s, hs, hid, hasset, hperiod⟩
    refine ⟨r, hr, hredacted, i, hi, s, hs, ?_, ?_⟩
    · rw [← hredacted, PayrollDraftRecord.redacted, PayrollDraftRecord.redacted, hid]
    · rw [PayrollDraftRecord.key, PayrollDraftRecord.key, hid, hasset, hperiod]

theorem reportsDuplicate_iff (h : v.validate rt draft = .ok r)
    (hon : isOn v.config.checkDuplicates = true) (hrecords : HasRecords draft records) (hkeys : KeysTell records)
    (j : Nat) :
    ReportsDuplicate r j ↔ structurePasses v draft = true ∧ (RepeatsEarlier records j ∨ CustomDuplicate v draft j) := by
  obtain ⟨duplicates, hduplicates, hkind, hreported⟩ := checkDuplicates_keys hrecords
  rw [← keyRepeats_iff hkeys, ← hreported]
  constructor
  · rintro ⟨b, hb, hcategory, hj⟩
    obtain ⟨issues, hissues, hb⟩ | ⟨hpasses, hseverity, hlater⟩ := blocker_cases h hb hj
    · exact absurd hcategory (about_recordReports hissues b (mem_blockersOf.mp hb).1).2
    · refine ⟨hpasses, ?_⟩
      obtain ⟨-, issues, hissues, hb⟩ | ⟨validator, hvalidator, issues, hrun, hb⟩ := hlater
      · obtain rfl : duplicates = issues := Except.ok.inj (hduplicates.symm.trans hissues)
        exact .inl ⟨b, hb, hj⟩
      · exact .inr ⟨validator, hvalidator, issues, hrun, b, hb, hseverity, hcategory, hj⟩
  · rintro ⟨hpasses, ⟨b, hb, hj⟩ | ⟨validator, hvalidator, issues, hrun, b, hb, hseverity, hcategory, hj⟩⟩
    · obtain ⟨hseverity, hcategory⟩ := hkind b hb
      have hmem : duplicates ∈ reports v draft := by
        apply mem_reports_of_later hpasses hrecords
        rw [laterChecks, ifOn, if_pos hon, hduplicates]
        exact List.mem_cons_self
      exact ⟨b, mem_blockers_of_reports h hmem (mem_blockersOf.mpr ⟨hb, hseverity⟩), hcategory, hj⟩
    · have hmem : issues ∈ reports v draft := by
        apply mem_reports_of_later hpasses hrecords
        refine List.mem_cons_of_mem _ (List.mem_cons_of_mem _ (List.mem_map.mpr ⟨validator, hvalidator, ?_⟩))
        rw [customIssues, hrun]
      exact ⟨b, mem_blockers_of_reports h hmem (mem_blockersOf.mpr ⟨hb, hseverity⟩), hcategory, hj⟩

/-! ## Every draft -/

section Runs

def payment : PayrollDraftRecord where
  employeeId := "emp"
  amount := 5
  asset := "native"
  period := "2024-01"

def paymentFields : List (String × DraftValue Int) :=
  [("employeeId", .str "emp"), ("amount", .bigint 5), ("asset", .str "native"), ("period", .str "2024-01")]

/-- A draft with the same record twice. -/
def twice (employer : DraftValue Int) : DraftValue Int :=
  .obj [("draftId", .str "d"), ("employer", employer), ("records", .arr [.obj paymentFields, .obj paymentFields])]

def stopped : Runtime Int where
  now := fun _ => 0
  numberOf := fun _ => .nan

theorem hasRecords_twice (employer : DraftValue Int) : HasRecords (twice employer) [payment, payment] := by
  have hrecord : IsRecord payment paymentFields := by constructor <;> rfl
  exact .cons ⟨_, rfl, hrecord⟩ (.cons ⟨_, rfl, hrecord⟩ .nil)

/-- An address of 56 characters. -/
def address : DraftValue Int := .str (String.ofList ('G' :: List.replicate 55 'A'))

end Runs

end ZkPayroll.Validation
