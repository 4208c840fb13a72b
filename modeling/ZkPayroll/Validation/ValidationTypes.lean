import ZkPayroll.Draft.DraftSerializer
import ZkPayroll.Framework.Utf8
import ZkPayroll.Import.FuzzyMatch

/-!
# Values of a draft and the types of the validation

A draft may be any value that holds data and no functions. The operations are
those of the language that the validator uses of such a value; each says what
it throws, in the words of V8 (`property`, `stringOf`, `trimOf`, `includes`,
`textOf`). `bigint`s are compared and added with any value (`isBelow`,
`isAbove`, `addTo`). `Number(s)` of a text is taken as it is given.

`validation/types.ts`: issues, their codes, the configuration with its presets,
and the result. A custom validator is a function of the draft that gives issues
or throws; it does not change the draft.
-/

namespace ZkPayroll.Validation

section

open Framework ZkPayroll.Core
open Draft (numberText typeError)

variable {ν : Type}

/-- A value without functions. -/
inductive DraftValue (ν : Type) where
  | undefined
  | null
  | bool (b : Bool)
  | num (n : JsNumber ν)
  | bigint (n : Int)
  | str (s : String)
  | arr (items : List (DraftValue ν))
  | obj (fields : List (String × DraftValue ν))

namespace DraftValue

/-- Whether a value counts as true. -/
def truthy [DecidableEq ν] [Zero ν] : DraftValue ν → Bool
  | .undefined | .null => false
  | .bool b => b
  | .num (.finite n) => n ≠ 0
  | .num .nan => false
  | .bigint n => n ≠ 0
  | .str s => s ≠ ""
  | _ => true

/-- `v === n` for a `bigint` `n`. -/
def isBigint (n : Int) : DraftValue ν → Bool
  | .bigint m => m = n
  | _ => false

/-- `v === s` for a text `s`. -/
def isText (s : String) : DraftValue ν → Bool
  | .str t => t = s
  | _ => false

end DraftValue

/-! ## Properties -/

/-- `fields[name]`, for a name that no object inherits. -/
def field (fields : List (String × DraftValue ν)) (name : String) : DraftValue ν :=
  (fields.lookup name).getD .undefined

/-- `v[name]`. -/
def property [NatCast ν] (v : DraftValue ν) (name : String) : Except SdkError (DraftValue ν) :=
  match v with
  | .undefined => .error (typeError s!"Cannot read properties of undefined (reading '{name}')")
  | .null => .error (typeError s!"Cannot read properties of null (reading '{name}')")
  | .str s => .ok (if name = "length" then .num (.finite ((codeUnits s).length : ν)) else .undefined)
  | .arr items => .ok (if name = "length" then .num (.finite (items.length : ν)) else .undefined)
  | .obj fields => .ok (field fields name)
  | _ => .ok .undefined

/-! ## Texts -/

/-- The text of an object. An own `toString`, which is no function, leaves it
without one. -/
def objectText (fields : List (String × DraftValue ν)) : Except SdkError String :=
  if "toString" ∈ fields.map Prod.fst then .error (typeError "Cannot convert object to primitive value")
  else .ok "[object Object]"

section Texts

variable [NumberFormat ν]

mutual

/-- `String(v)`. -/
def stringOf : DraftValue ν → Except SdkError String
  | .undefined => .ok "undefined"
  | .null => .ok "null"
  | .bool b => .ok (toString b)
  | .num n => .ok (numberText n)
  | .bigint n => .ok (toString n)
  | .str s => .ok s
  | .arr items => (itemTexts items).map (",".intercalate ·)
  | .obj fields => objectText fields

/-- The texts that `join` puts together. -/
def itemTexts : List (DraftValue ν) → Except SdkError (List String)
  | [] => .ok []
  | .undefined :: items => (itemTexts items).map ("" :: ·)
  | .null :: items => (itemTexts items).map ("" :: ·)
  | v :: items => do
    let text ← stringOf v
    let texts ← itemTexts items
    return text :: texts

end

/-- `v.toString()`, where the source has `name` for `v`. -/
def textOf (name : String) : DraftValue ν → Except SdkError String
  | .undefined => .error (typeError "Cannot read properties of undefined (reading 'toString')")
  | .null => .error (typeError "Cannot read properties of null (reading 'toString')")
  | .obj fields =>
    if "toString" ∈ fields.map Prod.fst then .error (typeError s!"{name}.toString is not a function")
    else .ok "[object Object]"
  | v => stringOf v

end Texts

/-- `v.trim()`, where the source has `name` for `v`; a `v` that counts as false
is not trimmed. -/
def trimOf (name : String) : DraftValue ν → Except SdkError String
  | .str s => .ok (trim s)
  | _ => .error (typeError s!"{name}.trim is not a function")

/-- `t.includes(s)` for texts. -/
def includesText (t s : String) : Bool := Import.includes (codeUnits t) (codeUnits s)

/-- `value.includes(s)`. -/
def includes (s : String) : DraftValue ν → Except SdkError Bool
  | .undefined => .error (typeError "Cannot read properties of undefined (reading 'includes')")
  | .null => .error (typeError "Cannot read properties of null (reading 'includes')")
  | .str t => .ok (includesText t s)
  | .arr items => .ok (items.any (·.isText s))
  | _ => .error (typeError "value.includes is not a function")

/-! ## Numbers -/

section Numbers

variable [NumberFormat ν]

/-- An array or an object as a text, in the place of which a primitive value is
wanted. -/
def toPrimitive : DraftValue ν → Except SdkError (DraftValue ν)
  | .arr items => (stringOf (.arr items)).map .str
  | .obj fields => (objectText fields).map .str
  | v => .ok v

/-- The number of a primitive value that is no text. -/
def primitiveNumber [Zero ν] [One ν] : DraftValue ν → JsNumber ν
  | .null => .finite 0
  | .bool b => .finite (if b then 1 else 0)
  | .num n => n
  | _ => .nan

/-- `v` as an operand of a subtraction from which a number is taken. -/
def toNumber [Zero ν] [One ν] (numberOf : String → JsNumber ν) (v : DraftValue ν) :
    Except SdkError (JsNumber ν) := do
  match ← toPrimitive v with
  | .bigint _ => .error (typeError "Cannot mix BigInt and other types, use explicit conversions")
  | .str s => return numberOf s
  | p => return primitiveNumber p

section Comparison

variable [CommRing ν] [LinearOrder ν]

/-- `v < n` for a `bigint` `n`. -/
def isBelow (v : DraftValue ν) (n : Int) : Except SdkError Bool := do
  match ← toPrimitive v with
  | .bigint m => return m < n
  | .str s => return (bigIntOf s).any (· < n)
  | p => return JsNumber.lt (primitiveNumber p) (.finite (n : ν))

/-- `v > n` for a `bigint` `n`. -/
def isAbove (v : DraftValue ν) (n : Int) : Except SdkError Bool := do
  match ← toPrimitive v with
  | .bigint m => return n < m
  | .str s => return (bigIntOf s).any (n < ·)
  | p => return JsNumber.lt (.finite (n : ν)) (primitiveNumber p)

end Comparison

/-- `total + v`. A `total` is a `bigint`, or a text once a text was added. -/
def addTo (total v : DraftValue ν) : Except SdkError (DraftValue ν) := do
  let p ← toPrimitive v
  match total, p with
  | .bigint m, .bigint n => return .bigint (m + n)
  | .bigint m, .str s => return .str (toString m ++ s)
  | .str t, p => return .str (t ++ (← stringOf p))
  | _, _ => .error (typeError "Cannot mix BigInt and other types, use explicit conversions")

end Numbers

end

section

open Framework ZkPayroll.Core

variable {ν : Type}

/-! ## Issues -/

inductive Severity where
  | blocker
  | warning
  deriving DecidableEq

inductive ValidationIssueCategory where
  | employee_data
  | asset_format
  | amount
  | period
  | duplicate
  | redaction
  | approval
  /-- The category `structure`. -/
  | structural
  | policy
  | other
  deriving DecidableEq

structure ValidationIssue (ν : Type) where
  severity : Severity := .blocker
  category : ValidationIssueCategory
  message : String
  recordIndex : Option Nat := none
  field : Option String := none
  suggestedFix : Option String := none
  relatedData : Option (List (String × DraftValue ν)) := none
  code : String

namespace ValidationErrorCodes

def INVALID_EMPLOYEE_ID : String := "ERR_INVALID_EMPLOYEE_ID"
def MISSING_EMPLOYEE_ID : String := "ERR_MISSING_EMPLOYEE_ID"
def INVALID_ASSET_FORMAT : String := "ERR_INVALID_ASSET_FORMAT"
def MISSING_ASSET : String := "ERR_MISSING_ASSET"
def AMOUNT_EXCEEDS_MAX : String := "ERR_AMOUNT_EXCEEDS_MAX"
def AMOUNT_BELOW_MIN : String := "ERR_AMOUNT_BELOW_MIN"
def ZERO_AMOUNT_NOT_ALLOWED : String := "ERR_ZERO_AMOUNT_NOT_ALLOWED"
def NEGATIVE_AMOUNT : String := "ERR_NEGATIVE_AMOUNT"
def INVALID_PERIOD_FORMAT : String := "ERR_INVALID_PERIOD_FORMAT"
def MISSING_PERIOD : String := "ERR_MISSING_PERIOD"
def DUPLICATE_EMPLOYEE_IN_PERIOD : String := "ERR_DUPLICATE_EMPLOYEE_IN_PERIOD"
def REDACTION_POLICY_VIOLATION : String := "ERR_REDACTION_POLICY_VIOLATION"
def MISSING_REQUIRED_APPROVAL : String := "ERR_MISSING_REQUIRED_APPROVAL"
def EMPTY_DRAFT : String := "ERR_EMPTY_DRAFT"
def TOO_MANY_RECORDS : String := "ERR_TOO_MANY_RECORDS"
def MISSING_DRAFT_ID : String := "ERR_MISSING_DRAFT_ID"
def MISSING_EMPLOYER : String := "ERR_MISSING_EMPLOYER"
def EMPTY_BATCH : String := "ERR_EMPTY_BATCH"
def ZERO_TOTAL_BATCH : String := "ERR_ZERO_TOTAL_BATCH"
def INTERNAL_VALIDATION_ERROR : String := "ERR_INTERNAL_VALIDATION_ERROR"

end ValidationErrorCodes

/-! ## The configuration -/

/-- A property of a configuration: it may be absent, or there and `undefined`. -/
abbrev Setting (α : Type) := Option (Option α)

/-- What `validator(draft)` does. -/
abbrev CustomValidator (ν : Type) := DraftValue ν → Except SdkError (List (ValidationIssue ν))

structure ValidationConfig (ν : Type) where
  validateEmployeeData : Setting Bool := none
  validateAssetFormat : Setting Bool := none
  validateAmounts : Setting Bool := none
  validatePeriod : Setting Bool := none
  checkDuplicates : Setting Bool := none
  validateRedaction : Setting Bool := none
  validateApprovals : Setting Bool := none
  minAmount : Setting Int := none
  maxAmount : Setting Int := none
  allowZeroAmounts : Setting Bool := none
  maxRecordsPerDraft : Setting (JsNumber ν) := none
  allowMissingApprovals : Setting Bool := none
  customValidators : Setting (List (CustomValidator ν)) := none

/-- `{ ...defaults, ...config }`. -/
def ValidationConfig.over (config defaults : ValidationConfig ν) : ValidationConfig ν where
  validateEmployeeData := config.validateEmployeeData.or defaults.validateEmployeeData
  validateAssetFormat := config.validateAssetFormat.or defaults.validateAssetFormat
  validateAmounts := config.validateAmounts.or defaults.validateAmounts
  validatePeriod := config.validatePeriod.or defaults.validatePeriod
  checkDuplicates := config.checkDuplicates.or defaults.checkDuplicates
  validateRedaction := config.validateRedaction.or defaults.validateRedaction
  validateApprovals := config.validateApprovals.or defaults.validateApprovals
  minAmount := config.minAmount.or defaults.minAmount
  maxAmount := config.maxAmount.or defaults.maxAmount
  allowZeroAmounts := config.allowZeroAmounts.or defaults.allowZeroAmounts
  maxRecordsPerDraft := config.maxRecordsPerDraft.or defaults.maxRecordsPerDraft
  allowMissingApprovals := config.allowMissingApprovals.or defaults.allowMissingApprovals
  customValidators := config.customValidators.or defaults.customValidators

/-- Whether a flag counts as true. -/
def isOn (flag : Setting Bool) : Bool := flag.join.getD false

namespace ValidationPresets

variable [NatCast ν]

def standard : ValidationConfig ν where
  validateEmployeeData := some true
  validateAssetFormat := some true
  validateAmounts := some true
  validatePeriod := some true
  checkDuplicates := some true
  validateRedaction := some false
  validateApprovals := some false
  minAmount := some (some 0)
  maxRecordsPerDraft := some (some (.finite (100000 : Nat)))
  allowMissingApprovals := some true

end ValidationPresets

def DefaultValidationConfig [NatCast ν] : ValidationConfig ν := ValidationPresets.standard

/-! ## The result -/

structure ValidationSummary (ν : Type) where
  /-- The length that the records have; `undefined` where they have none. -/
  totalRecords : DraftValue ν
  validRecords : Nat
  recordsWithIssues : JsNumber ν
  totalBlockers : Nat
  totalWarnings : Nat

structure DraftValidationResult (ν : Type) where
  isValid : Bool
  isReadyToSubmit : Bool
  blockers : List (ValidationIssue ν)
  warnings : List (ValidationIssue ν)
  summary : ValidationSummary ν
  validatedAt : Int
  validationDurationMs : Int

end

end ZkPayroll.Validation
