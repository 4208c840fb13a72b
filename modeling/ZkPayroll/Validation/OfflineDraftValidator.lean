import Mathlib.Data.Finset.Card
import ZkPayroll.Validation.ValidationTypes

/-!
# The validation of a draft

`OfflineDraftValidator` of `validation/OfflineDraftValidator.ts`. The draft may
be any value. The checks run one after the other in a pass (`guardedPass`) that
collects issues in a state (`Progress`); what a check throws ends the pass and
becomes a blocker, with the issues that were found before it. Reading the clock
is a part of the state, and the lines on the console are left out.
-/

namespace ZkPayroll.Validation

open Framework ZkPayroll.Core
open Draft (numberText)

variable {ν : Type}

/-- What the validator uses of the language. -/
structure Runtime (ν : Type) where
  /-- The readings of `Date.now()`, in order. -/
  now : Nat → Int
  /-- `Number(s)`. -/
  numberOf : String → JsNumber ν

structure OfflineDraftValidator (ν : Type) where
  config : ValidationConfig ν

/-- `new OfflineDraftValidator(config)`. -/
def OfflineDraftValidator.new [NatCast ν] (config : ValidationConfig ν) : OfflineDraftValidator ν where
  config := config.over DefaultValidationConfig

/-! ## Helper methods -/

def isValidStellarAddress : DraftValue ν → Bool
  | .str s => s.toList.head? = some 'G' && 56 ≤ (codeUnits s).length
  | _ => false

def isRedacted (value : DraftValue ν) : Except SdkError Bool := do
  if ← includes "[REDACTED]" value then return true
  if ← includes "***" value then return true
  return value.isText "REDACTED"

/-- `[A-Za-z0-9\-._@\[\]]` -/
def isIdChar (c : Char) : Bool := c.isAlphanum || c ∈ ['-', '.', '_', '@', '[', ']']

/-- An employee identifier is a text once it is trimmed. -/
def isValidEmployeeId (id : String) : Except SdkError Bool := do
  if ← isRedacted (.str id : DraftValue Int) then return true
  return 3 ≤ id.length && id.length ≤ 256 && id.toList.all isIdChar

def isValidAsset (asset : String) : Bool :=
  asset = "native" || (asset.toList.head? = some 'C' && 56 ≤ (codeUnits asset).length)

/-- `/^\d{4}-\d{2}$/.test(period)`. -/
def isValidPeriod (period : String) : Bool :=
  match period.toList with
  | [a, b, c, d, dash, e, f] => [a, b, c, d, e, f].all Char.isDigit && dash = '-'
  | _ => false

/-- The first and the last three code units of a text; half of a surrogate pair
is U+FFFD. -/
def shortened (value : String) : String :=
  let us := units value.toList
  if 6 < us.length then
    String.ofList (scalars (us.take 3)) ++ "..." ++ String.ofList (scalars (us.drop (us.length - 3)))
  else "***"

section Checks

variable [NumberFormat ν] [CommRing ν] [LinearOrder ν]

def redact (value : String) (draft : DraftValue ν) : Except SdkError String := do
  let policy ← property draft "redactionPolicy"
  return if policy.truthy then shortened value else value

/-! ## The structure -/

/-- `!draft.draftId || draft.draftId.trim().length === 0`. -/
def isUnnamed (draftId : DraftValue ν) : Except SdkError Bool :=
  if draftId.truthy then (trimOf "draft.draftId" draftId).map (· = "") else .ok true

variable (v : OfflineDraftValidator ν)

def validateStructure (draft : DraftValue ν) : Except SdkError (List (ValidationIssue ν)) := do
  let draftId ← property draft "draftId"
  let unnamed ← isUnnamed draftId
  let missingId : List (ValidationIssue ν) :=
    if unnamed then
      [{ category := .structural
         message := "Draft must have a valid draftId"
         code := ValidationErrorCodes.MISSING_DRAFT_ID }]
    else []
  let employer ← property draft "employer"
  let missingEmployer : List (ValidationIssue ν) :=
    if !employer.truthy || !isValidStellarAddress employer then
      [{ category := .structural
         message := "Draft must have a valid employer Stellar address"
         code := ValidationErrorCodes.MISSING_EMPLOYER }]
    else []
  match ← property draft "records" with
  | .arr records =>
    let empty : List (ValidationIssue ν) :=
      if records.length = 0 then
        [{ category := .structural
           message := "Draft cannot be empty"
           code := ValidationErrorCodes.EMPTY_DRAFT }]
      else []
    let tooMany : List (ValidationIssue ν) :=
      match v.config.maxRecordsPerDraft.join with
      | some max =>
        if (DraftValue.num max).truthy && JsNumber.lt max (.finite (records.length : ν)) then
          let text := numberText max
          [{ category := .structural
             message := s!"Draft exceeds maximum of {text} records"
             code := ValidationErrorCodes.TOO_MANY_RECORDS
             relatedData := some [("recordCount", .num (.finite (records.length : ν))), ("max", .num max)] }]
        else []
      | none => []
    return missingId ++ missingEmployer ++ empty ++ tooMany
  | _ =>
    return missingId ++ missingEmployer ++
      [{ category := .structural
         message := "Draft records must be an array"
         code := ValidationErrorCodes.EMPTY_DRAFT }]

/-! ## A record -/

/-- The check of a text that a record must have: `missing` where it is absent or
blank, else what `check` says of it. `name` is the source's for it. -/
def requiredText (name : String) (value : DraftValue ν) (missing : ValidationIssue ν)
    (check : String → Except SdkError (List (ValidationIssue ν))) : Except SdkError (List (ValidationIssue ν)) :=
  if value.truthy then
    match value with
    | .str s => if trim s = "" then .ok [missing] else check s
    | _ => do
      -- what is no text is not trimmed
      let _ ← trimOf name value
      return []
  else .ok [missing]

def validateEmployeeId (record draft : DraftValue ν) (index : Nat) : Except SdkError (List (ValidationIssue ν)) := do
  let employeeId ← property record "employeeId"
  requiredText "record.employeeId" employeeId
    { category := .employee_data
      message := "Employee ID is required"
      recordIndex := index
      field := "employeeId"
      code := ValidationErrorCodes.MISSING_EMPLOYEE_ID }
    fun id => do
      if ← isValidEmployeeId id then return []
      let text ← redact id draft
      return [{
        severity := .warning
        category := .employee_data
        message := s!"Invalid employee ID format: {text}"
        recordIndex := index
        field := "employeeId"
        code := ValidationErrorCodes.INVALID_EMPLOYEE_ID }]

variable (record : DraftValue ν)

def validateAsset (index : Nat) : Except SdkError (List (ValidationIssue ν)) := do
  let asset ← property record "asset"
  requiredText "record.asset" asset
    { category := .asset_format
      message := "Asset is required"
      recordIndex := index
      field := "asset"
      code := ValidationErrorCodes.MISSING_ASSET }
    fun asset => return if isValidAsset asset then [] else [{
      category := .asset_format
      message := s!"Invalid asset format: {asset}"
      recordIndex := index
      field := "asset"
      code := ValidationErrorCodes.INVALID_ASSET_FORMAT
      suggestedFix := "Asset should be 'native' or a valid token contract address" }]

def validatePeriod (index : Nat) : Except SdkError (List (ValidationIssue ν)) := do
  let period ← property record "period"
  requiredText "record.period" period
    { category := .period
      message := "Period is required"
      recordIndex := index
      field := "period"
      code := ValidationErrorCodes.MISSING_PERIOD }
    fun period => return if isValidPeriod period then [] else [{
      category := .period
      message := s!"Invalid period format: {period}"
      recordIndex := index
      field := "period"
      code := ValidationErrorCodes.INVALID_PERIOD_FORMAT
      suggestedFix := "Period should be in YYYY-MM format (e.g., 2024-01)" }]

/-- An issue of the amount of a record. -/
def amountIssue (recordIndex : Nat) (code message : String) (severity : Severity := .blocker) :
    ValidationIssue ν where
  severity := severity
  category := .amount
  message := message
  recordIndex := recordIndex
  field := "amount"
  code := code

def zeroAmount (amount : DraftValue ν) (recordIndex : Nat) : List (ValidationIssue ν) :=
  if amount.isBigint 0 && !isOn v.config.allowZeroAmounts then
    [amountIssue recordIndex ValidationErrorCodes.ZERO_AMOUNT_NOT_ALLOWED "Zero amounts are not allowed"]
  else []

def amountBelowMin (amount : DraftValue ν) (recordIndex : Nat)
    (draft : DraftValue ν) : Except SdkError (List (ValidationIssue ν)) :=
  match v.config.minAmount.join with
  | some min => do
    if (← isAbove amount 0) && (← isBelow amount min) then
      let text ← redact (← textOf "amount" amount) draft
      return [amountIssue recordIndex ValidationErrorCodes.AMOUNT_BELOW_MIN
        s!"Amount {text} is below minimum {min}" .warning]
    else return []
  | none => .ok []

def amountAboveMax (amount : DraftValue ν) (recordIndex : Nat) :
    Except SdkError (List (ValidationIssue ν)) :=
  match v.config.maxAmount.join with
  | some max => do
    if ← isAbove amount max then
      return [amountIssue recordIndex ValidationErrorCodes.AMOUNT_EXCEEDS_MAX s!"Amount exceeds maximum of {max}"]
    else return []
  | none => .ok []

def validateAmount (amount : DraftValue ν) (recordIndex : Nat) (draft : DraftValue ν) :
    Except SdkError (List (ValidationIssue ν)) := do
  if ← isBelow amount 0 then
    return [amountIssue recordIndex ValidationErrorCodes.NEGATIVE_AMOUNT "Amount cannot be negative"]
  else
    let small ← amountBelowMin v amount recordIndex draft
    let large ← amountAboveMax v amount recordIndex
    return zeroAmount v amount recordIndex ++ small ++ large

/-- A value that the policy wants redacted. -/
def redactionIssue (recordIndex : Nat) (fieldName message : String) (suggestedFix : Option String := none) :
    ValidationIssue ν where
  severity := .warning
  category := .redaction
  message := message
  recordIndex := recordIndex
  field := fieldName
  code := ValidationErrorCodes.REDACTION_POLICY_VIOLATION
  suggestedFix := suggestedFix

/-- `issue` where the policy has `flag` and the record a value under `name` that
is not redacted. -/
def redactionOf (policy record : DraftValue ν) (flag name : String) (issue : ValidationIssue ν) :
    Except SdkError (List (ValidationIssue ν)) := do
  let wanted ← property policy flag
  if wanted.truthy then
    let value ← property record name
    if value.truthy then
      if ← isRedacted value then return [] else return [issue]
    else return []
  else return []

/-- The amount is redacted as a text, and also where it counts as false. -/
def redactionOfAmount (policy record : DraftValue ν) (issue : ValidationIssue ν) :
    Except SdkError (List (ValidationIssue ν)) := do
  let wanted ← property policy "redactAmounts"
  if wanted.truthy then
    let amount ← property record "amount"
    let text ← textOf "record.amount" amount
    if ← isRedacted (.str text : DraftValue ν) then return [] else return [issue]
  else return []

def validateRedaction (recordIndex : Nat) (draft : DraftValue ν) :
    Except SdkError (List (ValidationIssue ν)) := do
  let policy ← property draft "redactionPolicy"
  if policy.truthy then
    let names ← redactionOf policy record "redactEmployeeNames" "employeeName" <|
      redactionIssue recordIndex "employeeName" "Employee names should be redacted per policy" <|
        some "Enable name redaction or update policy"
    let amounts ← redactionOfAmount policy record <|
      redactionIssue recordIndex "amount" "Amounts should be redacted per policy"
    let ids ← redactionOf policy record "redactEmployeeIds" "employeeId" <|
      redactionIssue recordIndex "employeeId" "Employee IDs should be redacted per policy"
    let notes ← redactionOf policy record "redactNotes" "notes" <|
      redactionIssue recordIndex "notes" "Notes should be redacted per policy"
    return names ++ amounts ++ ids ++ notes
  else return []

def validateApproval (record : DraftValue ν) (index : Nat) :
    Except SdkError (List (ValidationIssue ν)) := do
  let requiresApproval ← property record "requiresApproval"
  if requiresApproval.truthy then
    let isApproved ← property record "isApproved"
    if !isApproved.truthy && !isOn v.config.allowMissingApprovals then
      return [{
        category := .approval
        message := "Record requires approval but is not approved"
        recordIndex := index
        field := "isApproved"
        code := ValidationErrorCodes.MISSING_REQUIRED_APPROVAL }]
    else return []
  else return []

/-- A check that the configuration has to ask for. -/
def ifOn (flag : Setting Bool) (check : Except SdkError (List (ValidationIssue ν))) :
    Except SdkError (List (ValidationIssue ν)) :=
  if isOn flag then check else .ok []

def validateRecord (record : DraftValue ν) (index : Nat) (draft : DraftValue ν) :
    Except SdkError (List (ValidationIssue ν)) := do
  let employee ← ifOn v.config.validateEmployeeData (validateEmployeeId record draft index)
  let asset ← ifOn v.config.validateAssetFormat (validateAsset record index)
  let amount ← ifOn v.config.validateAmounts do validateAmount v (← property record "amount") index draft
  let period ← ifOn v.config.validatePeriod (validatePeriod record index)
  let approval ← ifOn v.config.validateApprovals (validateApproval v record index)
  let redaction ← ifOn v.config.validateRedaction (validateRedaction record index draft)
  return employee ++ asset ++ amount ++ period ++ approval ++ redaction

/-! ## The draft as a whole -/

/-- `draft.records`, which is an array once the structure is checked. -/
def recordsOf : DraftValue ν → List (DraftValue ν)
  | .obj fields =>
    match field fields "records" with
    | .arr records => records
    | _ => []
  | _ => []

def duplicateIssue (index originalIndex : Nat) : ValidationIssue ν where
  category := .duplicate
  message := s!"Duplicate record for employee in period (also at row {originalIndex + 1})"
  recordIndex := index
  code := ValidationErrorCodes.DUPLICATE_EMPLOYEE_IN_PERIOD
  relatedData := some [("duplicateRowIndex", .num (.finite ((originalIndex + 1 : Nat) : ν)))]

/-- The key by which records are the same, unless the employee is redacted. -/
def duplicateKey : Except SdkError (Option String) := do
  let employeeId ← property record "employeeId"
  if ← isRedacted employeeId then return none
  let employee ← stringOf employeeId
  let asset ← stringOf (← property record "asset")
  let period ← stringOf (← property record "period")
  return some s!"{employee}:{asset}:{period}"

/-- The loop of `checkDuplicates`, from the record at `i` on. `seen` has the
index at which each key was first seen. -/
def duplicatesFrom : List (DraftValue ν) → (i : Nat) → (seen : List (String × Nat)) →
    Except SdkError (List (ValidationIssue ν))
  | [], _, _ => .ok []
  | record :: records, i, seen => do
    match ← duplicateKey record with
    | none => duplicatesFrom records (i + 1) seen
    | some key =>
      match seen.lookup key with
      | some originalIndex =>
        let issues ← duplicatesFrom records (i + 1) seen
        return duplicateIssue i originalIndex :: issues
      | none => duplicatesFrom records (i + 1) (setKey key i seen)

variable (draft : DraftValue ν)

def checkDuplicates : Except SdkError (List (ValidationIssue ν)) :=
  duplicatesFrom (recordsOf draft) 0 []

/-- `total` and the amounts of the records, added one after the other. -/
def totalAmountFrom (total : DraftValue ν) : List (DraftValue ν) → Except SdkError (DraftValue ν)
  | [] => .ok total
  | record :: records => do
    let total ← addTo total (← property record "amount")
    totalAmountFrom total records

def validateBatchConstraints : Except SdkError (List (ValidationIssue ν)) :=
  let records := recordsOf draft
  if records.length = 0 then
    .ok [{
      category := .structural
      message := "Payroll batch cannot be empty: at least one employee record is required"
      code := ValidationErrorCodes.EMPTY_BATCH
      suggestedFix := "Add at least one employee record to the draft" }]
  else do
    let totalAmount ← totalAmountFrom (.bigint 0) records
    return if totalAmount.isBigint 0 then [{
      category := .amount
      message := "Payroll batch total amount is zero: all records have zero amounts"
      code := ValidationErrorCodes.ZERO_TOTAL_BATCH
      suggestedFix := "Ensure at least one record has a positive amount"
      relatedData := some [("totalAmount", .str "0"), ("recordCount", .num (.finite (records.length : ν)))] }]
      else []

/-! ## The pass -/

/-- What was found so far. -/
structure Progress (ν : Type) where
  blockers : List (ValidationIssue ν) := []
  warnings : List (ValidationIssue ν) := []
  validRecordIndices : Finset Nat := ∅
  /-- How often the clock was read. -/
  readings : Nat := 0

/-- The issues that are blockers. -/
def blockersOf (issues : List (ValidationIssue ν)) : List (ValidationIssue ν) :=
  issues.filter (·.severity = .blocker)

/-- The issues that are warnings. -/
def warningsOf (issues : List (ValidationIssue ν)) : List (ValidationIssue ν) :=
  issues.filter (·.severity = .warning)

def Progress.add (p : Progress ν) (issues : List (ValidationIssue ν)) : Progress ν :=
  { p with blockers := p.blockers ++ blockersOf issues, warnings := p.warnings ++ warningsOf issues }

/-- The issues of the record at `i`, which is valid if it has no blockers. -/
def Progress.addRecord (p : Progress ν) (i : Nat) (issues : List (ValidationIssue ν)) : Progress ν :=
  let found := p.add issues
  if (blockersOf issues).length = 0 then
    { found with validRecordIndices := insert i found.validRecordIndices }
  else found

/-- The checks in turn, over what was found so far. -/
abbrev Pass (ν : Type) := Method SdkError (Progress ν)

variable (rt : Runtime ν)

/-- `Date.now()`. -/
def dateNow : Pass ν Int := do
  let p ← get
  set { p with readings := p.readings + 1 }
  return rt.now p.readings

def elapsedMs (startTime : Int) : Pass ν Int := do
  return max 1 ((← dateNow rt) - startTime)

/-- Adds issues to those found so far. -/
def report (issues : List (ValidationIssue ν)) : Pass ν PUnit := modify (·.add issues)

/-- `draft ? draft.records.length : 0`. -/
def recordCount : Except SdkError (DraftValue ν) :=
  if draft.truthy then do property (← property draft "records") "length" else .ok (.num (.finite 0))

/-- The number of records and what is left of it without the valid ones. -/
def recordCounts (draft : DraftValue ν) (valid : Nat) :
    Except SdkError (DraftValue ν × JsNumber ν) := do
  let count ← recordCount draft
  let number ← toNumber rt.numberOf count
  return (count, JsNumber.sub number (.finite (valid : ν)))

def buildResult (draft : DraftValue ν) (durationMs : Int) : Pass ν (DraftValidationResult ν) := do
  let p ← get
  let counts ← recordCounts rt draft p.validRecordIndices.card
  let validatedAt ← dateNow rt
  return {
    isValid := p.blockers.length = 0
    isReadyToSubmit := p.blockers.length = 0 && p.warnings.length < 5
    blockers := p.blockers
    warnings := p.warnings
    summary := {
      totalRecords := counts.1
      validRecords := p.validRecordIndices.card
      recordsWithIssues := counts.2
      totalBlockers := p.blockers.length
      totalWarnings := p.warnings.length }
    validatedAt := validatedAt
    validationDurationMs := max 1 durationMs }

def validateRecords (v : OfflineDraftValidator ν) (draft : DraftValue ν) : List (DraftValue ν) → (i : Nat) →
    Pass ν PUnit
  | [], _ => pure ()
  | record :: records, i => do
    let issues ← validateRecord v record i draft
    modify (·.addRecord i issues)
    validateRecords v draft records (i + 1)

def internalError (message : String) : ValidationIssue ν where
  category := .other
  message := message
  code := ValidationErrorCodes.INTERNAL_VALIDATION_ERROR

/-- What a custom validator reports, or that it failed. -/
def customIssues (validator : CustomValidator ν) : List (ValidationIssue ν) :=
  match validator draft with
  | .ok issues => issues
  | .error e => [internalError s!"Custom validator failed: {e.message}"]

def runCustomValidators (draft : DraftValue ν) : List (CustomValidator ν) → Pass ν PUnit
  | [] => pure ()
  | validator :: validators => do
    report (customIssues draft validator)
    runCustomValidators draft validators

/-- The checks inside the `try` block. -/
def guardedPass (v : OfflineDraftValidator ν) (draft : DraftValue ν) (startTime : Int) :
    Pass ν (DraftValidationResult ν) := do
  report (← validateStructure v draft)
  let found ← get
  if found.blockers.any (·.category = .structural) then
    let duration ← elapsedMs rt startTime
    buildResult rt draft duration
  else do
    validateRecords v draft (recordsOf draft) 0
    report (← ifOn v.config.checkDuplicates (checkDuplicates draft))
    report (← validateBatchConstraints draft)
    runCustomValidators draft (v.config.customValidators.join.getD [])
    let duration ← elapsedMs rt startTime
    buildResult rt draft duration

def missingDraft : ValidationIssue ν where
  category := .structural
  message := "Draft must be a valid payroll draft object"
  code := ValidationErrorCodes.MISSING_DRAFT_ID

/-- The whole call, up to a thrown error. -/
def validatePass (v : OfflineDraftValidator ν) (draft : DraftValue ν) :
    Pass ν (DraftValidationResult ν) := do
  let startTime ← dateNow rt
  if draft.truthy then
    tryCatch (guardedPass rt v draft startTime) fun error => do
      let duration ← elapsedMs rt startTime
      report [internalError s!"Validation failed: {error.message}"]
      buildResult rt draft duration
  else do
    report [missingDraft]
    let duration ← elapsedMs rt startTime
    buildResult rt draft duration

def OfflineDraftValidator.validate (v : OfflineDraftValidator ν) (draft : DraftValue ν) :
    Except SdkError (DraftValidationResult ν) :=
  match validatePass rt v draft {} with
  | .ok result _ => .ok result
  | .error e _ => .error e

end Checks

end ZkPayroll.Validation
