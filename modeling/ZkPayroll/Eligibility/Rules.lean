import ZkPayroll.Core.Errors
import ZkPayroll.Framework.Guards
import ZkPayroll.Framework.JsArithmetic

/-!
# Rules of payroll eligibility

The rules of `eligibility/rules.ts` that need no contract, with the reasons
that they give. What they use of the platform and of the Stellar SDK is in
`Runtime`. A rule gives its reasons, or throws where a date has no text.
-/

namespace ZkPayroll.Eligibility

open Framework ZkPayroll.Core

variable {ν : Type}

/-! ## Data -/

/-- The codes of the reasons that the rules give. -/
inductive EligibilityReasonCode where
  | MISSING_RECIPIENT_ADDRESS
  | INVALID_RECIPIENT_ADDRESS
  | MISSING_EMPLOYEE_ID
  | DUPLICATE_EMPLOYEE_ID
  | DUPLICATE_RECIPIENT_ADDRESS
  | INACTIVE_EMPLOYEE_STATUS
  | EMPLOYEE_SUSPENDED
  | EMPLOYEE_TERMINATED
  | EFFECTIVE_DATE_FUTURE
  | EFFECTIVE_DATE_EXPIRED
  | ZERO_OR_NEGATIVE_SALARY
  | SALARY_EXCEEDS_MAX_LIMIT
  | SALARY_BELOW_MIN_LIMIT
  | MISSING_ASSET_IDENTIFIER
  | UNSUPPORTED_ASSET
  | COMPLIANCE_BLOCKED
  | PAYROLL_LOCKED
  | SANCTION_LISTED
  deriving DecidableEq

def EligibilityReasonCode.name : EligibilityReasonCode → String
  | .MISSING_RECIPIENT_ADDRESS => "MISSING_RECIPIENT_ADDRESS"
  | .INVALID_RECIPIENT_ADDRESS => "INVALID_RECIPIENT_ADDRESS"
  | .MISSING_EMPLOYEE_ID => "MISSING_EMPLOYEE_ID"
  | .DUPLICATE_EMPLOYEE_ID => "DUPLICATE_EMPLOYEE_ID"
  | .DUPLICATE_RECIPIENT_ADDRESS => "DUPLICATE_RECIPIENT_ADDRESS"
  | .INACTIVE_EMPLOYEE_STATUS => "INACTIVE_EMPLOYEE_STATUS"
  | .EMPLOYEE_SUSPENDED => "EMPLOYEE_SUSPENDED"
  | .EMPLOYEE_TERMINATED => "EMPLOYEE_TERMINATED"
  | .EFFECTIVE_DATE_FUTURE => "EFFECTIVE_DATE_FUTURE"
  | .EFFECTIVE_DATE_EXPIRED => "EFFECTIVE_DATE_EXPIRED"
  | .ZERO_OR_NEGATIVE_SALARY => "ZERO_OR_NEGATIVE_SALARY"
  | .SALARY_EXCEEDS_MAX_LIMIT => "SALARY_EXCEEDS_MAX_LIMIT"
  | .SALARY_BELOW_MIN_LIMIT => "SALARY_BELOW_MIN_LIMIT"
  | .MISSING_ASSET_IDENTIFIER => "MISSING_ASSET_IDENTIFIER"
  | .UNSUPPORTED_ASSET => "UNSUPPORTED_ASSET"
  | .COMPLIANCE_BLOCKED => "COMPLIANCE_BLOCKED"
  | .PAYROLL_LOCKED => "PAYROLL_LOCKED"
  | .SANCTION_LISTED => "SANCTION_LISTED"

def getReasonCodeDescription : EligibilityReasonCode → String
  | .MISSING_RECIPIENT_ADDRESS => "Employee record does not have a destination recipient address specified."
  | .INVALID_RECIPIENT_ADDRESS => "Recipient address format is invalid or malformed."
  | .MISSING_EMPLOYEE_ID => "Employee record is missing an identifier."
  | .DUPLICATE_EMPLOYEE_ID => "Multiple records in the payroll batch share the same employee ID."
  | .DUPLICATE_RECIPIENT_ADDRESS => "Multiple records in the payroll batch share the same destination address."
  | .INACTIVE_EMPLOYEE_STATUS => "Employee account is flagged as inactive."
  | .EMPLOYEE_SUSPENDED => "Employee account is currently suspended."
  | .EMPLOYEE_TERMINATED => "Employee is terminated and no longer eligible for standard payroll runs."
  | .EFFECTIVE_DATE_FUTURE => "Employee employment or eligibility start date is in the future."
  | .EFFECTIVE_DATE_EXPIRED => "Employee contract or eligibility period has ended prior to this payroll cycle."
  | .ZERO_OR_NEGATIVE_SALARY => "Configured salary or payment amount is zero or negative."
  | .SALARY_EXCEEDS_MAX_LIMIT => "Configured salary exceeds the maximum allowable single-payout ceiling."
  | .SALARY_BELOW_MIN_LIMIT => "Configured salary is below the minimum threshold required for payout resolution."
  | .MISSING_ASSET_IDENTIFIER => "Asset or token identifier is not specified."
  | .UNSUPPORTED_ASSET => "The requested asset is not permitted in this payroll configuration."
  | .COMPLIANCE_BLOCKED => "Employee record failed KYC, AML, or compliance verification policy."
  | .PAYROLL_LOCKED => "Employee payout is temporarily locked due to an administrative or security hold."
  | .SANCTION_LISTED => "Recipient address matches a prohibited sanctions screening filter."

def getReasonCodeAction : EligibilityReasonCode → String
  | .MISSING_RECIPIENT_ADDRESS => "Provide a valid destination Stellar address for the employee."
  | .INVALID_RECIPIENT_ADDRESS =>
    "Verify and correct the public key address format (e.g. valid Stellar G... address)."
  | .MISSING_EMPLOYEE_ID => "Assign a unique employee ID to the record before resolution."
  | .DUPLICATE_EMPLOYEE_ID => "Deduplicate or merge records for this employee ID in the batch payload."
  | .DUPLICATE_RECIPIENT_ADDRESS => "Ensure each recipient address appears only once per payroll batch."
  | .INACTIVE_EMPLOYEE_STATUS => "Activate the employee account in the HR/payroll system before processing."
  | .EMPLOYEE_SUSPENDED => "Resolve the administrative suspension prior to releasing payroll disbursements."
  | .EMPLOYEE_TERMINATED => "Process any final severance through dedicated settlement workflows."
  | .EFFECTIVE_DATE_FUTURE => "Schedule payroll disbursement for on or after the employee effective start date."
  | .EFFECTIVE_DATE_EXPIRED => "Renew the employee contract or adjust payroll cycle boundaries."
  | .ZERO_OR_NEGATIVE_SALARY => "Set a positive non-zero payout amount for the recipient."
  | .SALARY_EXCEEDS_MAX_LIMIT => "Split the transaction or request executive limit elevation approval."
  | .SALARY_BELOW_MIN_LIMIT => "Verify salary amount meets the minimum threshold or combine into next cycle."
  | .MISSING_ASSET_IDENTIFIER => "Provide a valid token contract address or native asset identifier."
  | .UNSUPPORTED_ASSET => "Use an approved asset token supported by the payroll contract configuration."
  | .COMPLIANCE_BLOCKED => "Review compliance documentation and complete required identity verification."
  | .PAYROLL_LOCKED => "Release the administrative lock in the payroll dashboard."
  | .SANCTION_LISTED => "Escalate to the legal and compliance team for review."

/-- A date as it is given: epoch milliseconds, a text, or a `Date` by its time. -/
inductive DateValue (ν : Type) where
  | number (ms : JsNumber ν)
  | text (s : String)
  | date (time : JsNumber ν)

/-- A record, without the fields that nothing reads. -/
structure EmployeeEligibilityRecord (ν : Type) where
  employeeId : Option String
  recipient : Option String
  salary : Option Int := none
  amount : Option Int := none
  asset : Option String := none
  token : Option String := none
  status : Option String := none
  effectiveDate : Option (DateValue ν) := none
  expiryDate : Option (DateValue ν) := none
  isBlocked : Option Bool := none
  isLocked : Option Bool := none
  complianceStatus : Option String := none

inductive EligibilitySeverity where
  | error
  | warning
  deriving DecidableEq

structure EligibilityReason where
  code : String
  message : String
  field : Option String := none
  severity : Option EligibilitySeverity := none
  action : Option String := none
  /-- The date of a reason about a date, under its name. -/
  details : Option (String × String) := none
  deriving DecidableEq

/-- The reference time of an evaluation. -/
inductive TimeValue (ν : Type) where
  | number (ms : JsNumber ν)
  | date (time : JsNumber ν)

/-- The options of an evaluation, but for the custom rules and the registry. A
property is absent (`none`) or has a value, which may be `undefined`. -/
structure EligibilityEvaluationOptions (ν : Type) where
  referenceTimestamp : Option (Option (TimeValue ν)) := none
  allowedAssets : Option (Option (List String)) := none
  minSalary : Option (Option Int) := none
  maxSalary : Option (Option Int) := none
  requireValidStellarAddress : Option (Option Bool) := none
  allowedStatuses : Option (Option (List String)) := none
  strictCompliance : Option (Option Bool) := none
  checkDuplicates : Option (Option Bool) := none

/-- `{ ...options, ...overrideOptions }` -/
def EligibilityEvaluationOptions.spread (options overrideOptions : EligibilityEvaluationOptions ν) :
    EligibilityEvaluationOptions ν where
  referenceTimestamp := overrideOptions.referenceTimestamp <|> options.referenceTimestamp
  allowedAssets := overrideOptions.allowedAssets <|> options.allowedAssets
  minSalary := overrideOptions.minSalary <|> options.minSalary
  maxSalary := overrideOptions.maxSalary <|> options.maxSalary
  requireValidStellarAddress := overrideOptions.requireValidStellarAddress <|> options.requireValidStellarAddress
  allowedStatuses := overrideOptions.allowedStatuses <|> options.allowedStatuses
  strictCompliance := overrideOptions.strictCompliance <|> options.strictCompliance
  checkDuplicates := overrideOptions.checkDuplicates <|> options.checkDuplicates

structure EligibilityRuleContext (ν : Type) where
  referenceTimestamp : JsNumber ν
  options : EligibilityEvaluationOptions ν
  batchRecords : Option (List (EmployeeEligibilityRecord ν)) := none
  index : Option Nat := none

/-- What the rules use of the language. -/
structure Runtime (ν : Type) where
  /-- `Date.now()`. -/
  dateNow : JsNumber ν
  /-- `Date.parse(s)`. -/
  parseDate : String → JsNumber ν
  /-- `new Date(ms).toISOString()`, or nothing where that throws. -/
  toISOString : JsNumber ν → Option String
  /-- `s.toLowerCase()`. -/
  toLowerCase : String → String
  /-- `StrKey.isValidEd25519PublicKey(s)`, or nothing where that throws. -/
  isValidEd25519PublicKey : String → Option Bool
  /-- `StrKey.isValidContract(s)`, or nothing where that throws. -/
  isValidContract : String → Option Bool

/-! ## The rules -/

/-- A reason with the texts of its code. -/
def reasonOf (code : EligibilityReasonCode) (field : String) : EligibilityReason where
  code := code.name
  message := getReasonCodeDescription code
  field := some field
  severity := some .error
  action := some (getReasonCodeAction code)

/-- The text of a field that is there and not blank. -/
def givenText (value : Option String) : Option String :=
  match value with
  | none => none
  | some s => if isBlank s then none else some s

/-- The address is one of the SDK, or looks like one where the SDK throws. -/
def isStellarAddress (rt : Runtime ν) (trimmed : String) : Bool :=
  match rt.isValidEd25519PublicKey trimmed with
  | none => matchesAddress trimmed
  | some true => true
  | some false => (rt.isValidContract trimmed).getD (matchesAddress trimmed)

def validateRecipientRule (rt : Runtime ν) (record : EmployeeEligibilityRecord ν)
    (context : EligibilityRuleContext ν) : List EligibilityReason :=
  match givenText record.recipient with
  | none => [reasonOf .MISSING_RECIPIENT_ADDRESS "recipient"]
  | some recipient =>
    if context.options.requireValidStellarAddress.join ≠ some false ∧ isStellarAddress rt (trim recipient) = false then
      [reasonOf .INVALID_RECIPIENT_ADDRESS "recipient"]
    else []

def validateEmployeeIdRule (record : EmployeeEligibilityRecord ν) : List EligibilityReason :=
  match givenText record.employeeId with
  | none => [reasonOf .MISSING_EMPLOYEE_ID "employeeId"]
  | some _ => []

def validateSalaryRule (record : EmployeeEligibilityRecord ν) (context : EligibilityRuleContext ν) :
    List EligibilityReason :=
  match record.salary <|> record.amount with
  | none => [reasonOf .ZERO_OR_NEGATIVE_SALARY "salary"]
  | some rawAmount =>
    if rawAmount ≤ 0 then [reasonOf .ZERO_OR_NEGATIVE_SALARY "salary"]
    else
      (match context.options.minSalary.join with
        | some minSalary => if rawAmount < minSalary then [reasonOf .SALARY_BELOW_MIN_LIMIT "salary"] else []
        | none => []) ++
      (match context.options.maxSalary.join with
        | some maxSalary => if rawAmount > maxSalary then [reasonOf .SALARY_EXCEEDS_MAX_LIMIT "salary"] else []
        | none => [])

def validateAssetRule (record : EmployeeEligibilityRecord ν) (context : EligibilityRuleContext ν) :
    List EligibilityReason :=
  match givenText (record.asset <|> record.token) with
  | none => [reasonOf .MISSING_ASSET_IDENTIFIER "asset"]
  | some asset =>
    match context.options.allowedAssets.join with
    | none => []
    | some allowed =>
      if allowed.length > 0 ∧ trim asset ∉ allowed then
        [{ reasonOf .UNSUPPORTED_ASSET "asset" with
            message := getReasonCodeDescription .UNSUPPORTED_ASSET ++ s!" (configured: {trim asset})" }]
      else []

def validateStatusRule (rt : Runtime ν) (record : EmployeeEligibilityRecord ν)
    (context : EligibilityRuleContext ν) : List EligibilityReason :=
  let rawStatus := trim (rt.toLowerCase (record.status.getD "active"))
  if rawStatus = "inactive" then [reasonOf .INACTIVE_EMPLOYEE_STATUS "status"]
  else if rawStatus = "suspended" then [reasonOf .EMPLOYEE_SUSPENDED "status"]
  else if rawStatus = "terminated" ∨ rawStatus = "offboarded" then [reasonOf .EMPLOYEE_TERMINATED "status"]
  else
    match context.options.allowedStatuses.join with
    | none => []
    | some allowedStatuses =>
      let normalizedAllowed := allowedStatuses.map fun s => trim (rt.toLowerCase s)
      if allowedStatuses.length > 0 ∧ rawStatus ∉ normalizedAllowed then
        [{ reasonOf .INACTIVE_EMPLOYEE_STATUS "status" with
            message := s!"Employee status '{rawStatus}' is not in allowed statuses (" ++
              ", ".intercalate normalizedAllowed ++ ")" }]
      else []

def parseDateToTimestamp (rt : Runtime ν) : Option (DateValue ν) → Option (JsNumber ν)
  | none => none
  | some (.number ms) => some ms
  | some (.date time) => some time
  | some (.text s) => if (rt.parseDate s).isNaN then none else some (rt.parseDate s)

/-- A reason about a date, with its text. -/
def dateReason (rt : Runtime ν) (code : EligibilityReasonCode) (field : String) (ts : JsNumber ν) :
    Except SdkError (List EligibilityReason) :=
  match rt.toISOString ts with
  | none => .error { genericError "Invalid time value" with name := "RangeError" }
  | some iso => .ok [{ reasonOf code field with details := some (field, iso) }]

def validateLifecycleDatesRule [LE ν] [DecidableLE ν] (rt : Runtime ν) (record : EmployeeEligibilityRecord ν)
    (context : EligibilityRuleContext ν) : Except SdkError (List EligibilityReason) := do
  let refTime := context.referenceTimestamp
  let future ← match parseDateToTimestamp rt record.effectiveDate with
    | none => .ok []
    | some effTs =>
      if JsNumber.lt refTime effTs then dateReason rt .EFFECTIVE_DATE_FUTURE "effectiveDate" effTs else .ok []
  let expired ← match parseDateToTimestamp rt record.expiryDate with
    | none => .ok []
    | some expTs =>
      if JsNumber.lt expTs refTime then dateReason rt .EFFECTIVE_DATE_EXPIRED "expiryDate" expTs else .ok []
  return future ++ expired

def validateComplianceRule (rt : Runtime ν) (record : EmployeeEligibilityRecord ν)
    (context : EligibilityRuleContext ν) : List EligibilityReason :=
  (if record.isBlocked = some true then [reasonOf .COMPLIANCE_BLOCKED "isBlocked"] else []) ++
  (if record.isLocked = some true then [reasonOf .PAYROLL_LOCKED "isLocked"] else []) ++
  match record.complianceStatus with
  | none => []
  | some complianceStatus =>
    let status := trim (rt.toLowerCase complianceStatus)
    if complianceStatus = "" then []
    else if status = "sanctioned" then [reasonOf .SANCTION_LISTED "complianceStatus"]
    else if status = "failed" ∨ status = "blocked" then [reasonOf .COMPLIANCE_BLOCKED "complianceStatus"]
    else if status = "pending" ∧ context.options.strictCompliance.join ≠ some false then
      [{ reasonOf .COMPLIANCE_BLOCKED "complianceStatus" with
          message := "Employee compliance verification is still pending."
          action := some "Complete KYC/AML verification prior to releasing payroll disbursements." }]
    else []

/-! ## Duplicates in a batch -/

/-- Both texts are there, not blank, and the same but for white space around
them. -/
def sameText (value prior : Option String) : Bool :=
  match value, prior with
  | some value, some prior => value != "" && prior != "" && trim value != "" && trim value == trim prior
  | _, _ => false

/-- One of the two loops of the rule: a reason for the first of the earlier
records with the same text. -/
def duplicateReasons (code : EligibilityReasonCode) (field : String)
    (text : EmployeeEligibilityRecord ν → Option String) (record : EmployeeEligibilityRecord ν)
    (earlier : List (EmployeeEligibilityRecord ν)) : List EligibilityReason :=
  match earlier.findIdx? fun prior => sameText (text record) (text prior) with
  | none => []
  | some i =>
    [{ reasonOf code field with
        message := getReasonCodeDescription code ++ s!" (duplicates record at index {i})" }]

def validateBatchDuplicatesRule (record : EmployeeEligibilityRecord ν) (context : EligibilityRuleContext ν) :
    List EligibilityReason :=
  match context.batchRecords, context.index with
  | some batch, some currentIndex =>
    if context.options.checkDuplicates.join = some false then []
    else
      duplicateReasons .DUPLICATE_EMPLOYEE_ID "employeeId" EmployeeEligibilityRecord.employeeId record
          (batch.take currentIndex) ++
        duplicateReasons .DUPLICATE_RECIPIENT_ADDRESS "recipient" EmployeeEligibilityRecord.recipient record
          (batch.take currentIndex)
  | _, _ => []

end ZkPayroll.Eligibility
