import ZkPayroll.Audit.StableJson
import ZkPayroll.Framework.JsArithmetic

/-!
# The verification of a receipt

`verifyPayrollReceipt` of `receipts/receiptVerifier.ts`. The candidate may be
any value; what has the shape of a receipt is read as one. The functions of the
language that are taken as they are given (`Runtime`) turn texts into lower
case, numbers and dates, and values into texts, and compute the digest of the
text of the metadata. The redacted copy in the result is left out.

`canonicalizeMetadata` of `receipts/digest.ts` gives the text of which the digest
of a receipt's metadata is taken. Metadata are any value in memory; a function is
left out of an object, as `undefined` is.
-/

namespace ZkPayroll.Receipts

open Framework Audit

/-! ## Values in memory -/

/-- A value in memory. The keys of an object are listed in property order. -/
inductive Value (ν : Type) where
  | undefined
  | function
  | null
  | bool (b : Bool)
  | num (n : JsNumber ν)
  | bigint (n : Int)
  | str (s : String)
  | arr (items : List (Value ν))
  | obj (fields : List (String × Value ν))

variable {ν : Type}

/-- `val !== undefined && typeof val !== "function"`. -/
def Value.isKept : Value ν → Bool
  | .undefined | .function => false
  | _ => true

/-- `JSON.stringify` leaves a field out for which there is no JSON value. -/
def keepSome {β : Type} (fields : List (String × Option β)) : List (String × β) :=
  fields.filterMap fun f => f.2.map fun v => (f.1, v)

mutual

/-- The value that `JSON.stringify` writes, where there is one. A `bigint`
cannot be written. -/
def Value.toJson : Value ν → Option (Json ν)
  | .undefined | .function | .bigint _ => none
  | .null => some .null
  | .bool b => some (.bool b)
  | .num (.finite n) => some (.num n)
  | .num _ => some .null
  | .str s => some (.str s)
  | .arr items => some (.arr (toJsonItems items))
  | .obj fields => some (.obj (keepSome (toJsonFields fields)))

/-- Item by item. -/
def toJsonItems : List (Value ν) → List (Json ν)
  | [] => []
  | v :: items => v.toJson.getD .null :: toJsonItems items

/-- Field by field. -/
def toJsonFields : List (String × Value ν) → List (String × Option (Json ν))
  | [] => []
  | (k, v) :: fields => (k, v.toJson) :: toJsonFields fields

end

/-! ## The canonical text -/

/-- The order of the fields of an object by their keys. -/
def leName (f g : String × Value ν) : Prop := leUnits f.1 g.1

instance : DecidableRel (leName (ν := ν)) := fun f g => inferInstanceAs (Decidable (leUnits f.1 g.1))

mutual

def sortValueForCanonicalJson : Value ν → Value ν
  | .bigint n => .str (toString n)
  | .function => .undefined
  | .arr items => .arr (sortItems items)
  | .obj fields =>
    let sorted := (sortFields fields).insertionSort leName
    -- an assignment to `__proto__` sets the prototype
    .obj (propertyOrder (sorted.filter fun f => notProto f.1))
  | v => v

/-- Item by item. -/
def sortItems : List (Value ν) → List (Value ν)
  | [] => []
  | v :: items => sortValueForCanonicalJson v :: sortItems items

/-- The fields that are kept. -/
def sortFields : List (String × Value ν) → List (String × Value ν)
  | [] => []
  | (k, v) :: fields =>
    if v.isKept then (k, sortValueForCanonicalJson v) :: sortFields fields else sortFields fields

end

mutual

/-- The value in memory of what `JSON.parse` reads. -/
def Value.ofJson : Json ν → Value ν
  | .null => .null
  | .bool b => .bool b
  | .num n => .num (.finite n)
  | .str s => .str s
  | .arr items => .arr (ofJsonItems items)
  | .obj fields => .obj (ofJsonFields fields)

def ofJsonItems : List (Json ν) → List (Value ν)
  | [] => []
  | v :: items => Value.ofJson v :: ofJsonItems items

def ofJsonFields : List (String × Json ν) → List (String × Value ν)
  | [] => []
  | (k, v) :: fields => (k, Value.ofJson v) :: ofJsonFields fields

end

section Canonical

variable [NumberFormat ν]

/-- `JSON.stringify(sortValueForCanonicalJson(value))`; the empty text stands
for `undefined`, which is no text. -/
def canonicalValue (v : Value ν) : String := ((sortValueForCanonicalJson v).toJson.map stringify).getD ""

variable (ν) in
/-- `canonicalizeMetadata` of a text. A text that reads as a text is shorter. -/
def canonicalizeText (s : String) : String :=
  match _h : parseJson (ν := ν) s with
  | none => stringify (.str s : Json ν)
  | some .null => "{}"
  | some (.str t) => canonicalizeText t
  | some v => canonicalValue (Value.ofJson v)
termination_by s.toList.length
decreasing_by exact length_lt_of_parseJson _h

def canonicalizeMetadata : Value ν → String
  | .undefined | .null => "{}"
  | .str s => canonicalizeText ν s
  | v => canonicalValue v

end Canonical

/-- `isValidHexDigest` of a string. -/
def isValidHexDigest (digest : String) : Bool :=
  (trimChars digest.toList).length == 64 && (trimChars digest.toList).all fun c => (hexValue c).isSome

/-! ## Data -/

/-- What the verifier uses of the language. -/
structure Runtime (ν : Type) where
  toLowerCase : String → String
  /-- `Number(s)`. -/
  toNumber : String → JsNumber ν
  /-- `new Date(s).getTime()`. -/
  parseDate : String → JsNumber ν
  /-- `String(v)`. -/
  toText : Value ν → String
  /-- `Math.round(ms / 1000)`. -/
  roundSeconds : JsNumber ν → JsNumber ν
  sha256Sync : String → String

/-- A time: a number, a text or a `Date`. -/
inductive Timestamp (ν : Type) where
  | number (n : JsNumber ν)
  | text (s : String)
  | date (ms : JsNumber ν)

/-- A hash, or a record with one. -/
inductive TransactionReference where
  | text (s : String)
  | record (txHash : String)

structure PayrollReceipt (ν : Type) where
  receiptId : String
  payrollId : String
  settlementStatus : String
  transactionReference : TransactionReference
  metadataDigest : String
  /-- `undefined` where there are none. -/
  metadata : Value ν
  issuedAt : Timestamp ν
  signature : Value ν
  signerPublicKey : Value ν

inductive ReceiptVerificationCode where
  | INVALID_SHAPE
  | PAYROLL_ID_MISSING
  | PAYROLL_ID_MISMATCH
  | SETTLEMENT_STATUS_MISSING
  | SETTLEMENT_STATUS_NOT_ALLOWED
  | UNSETTLED_STATUS
  | TRANSACTION_REFERENCE_MISSING
  | TRANSACTION_REFERENCE_INVALID
  | TRANSACTION_HASH_MISMATCH
  | METADATA_DIGEST_MISSING
  | METADATA_DIGEST_INVALID
  | METADATA_DIGEST_MISMATCH
  | ISSUED_AT_MISSING
  | ISSUED_AT_INVALID
  | EXPIRED
  | FUTURE_TIMESTAMP
  | SIGNATURE_MISSING
  | SIGNATURE_INVALID
  | CUSTOM_VALIDATION_FAILED
  deriving DecidableEq

inductive Severity where
  | error
  | warning
  deriving DecidableEq

structure ReceiptVerificationIssue where
  code : ReceiptVerificationCode
  field : Option String := none
  message : String
  severity : Severity := .error
  critical : Bool := true
  deriving DecidableEq

/-- What a custom validator does: a promise is not awaited. -/
inductive ValidatorOutcome where
  | none
  | issue (i : ReceiptVerificationIssue)
  | promise
  | throws (message : String)

structure ReceiptVerificationOptions (ν : Type) where
  expectedPayrollId : Option String := none
  allowedSettlementStatuses : Option (List String) := none
  requireSettled : Option Bool := none
  expectedTransactionHash : Option String := none
  expectedMetadataDigest : Option String := none
  metadata : Value ν := .undefined
  maxAgeMs : Option (JsNumber ν) := none
  toleranceMs : Option (JsNumber ν) := none
  currentTimestamp : Option (Timestamp ν) := none
  strict : Bool := false
  trustedSigners : Option (List String) := none
  requireSignature : Bool := false
  customValidators : List (PayrollReceipt ν → ValidatorOutcome) := []

structure ReceiptVerifiedFields where
  payrollId : Bool := false
  settlementStatus : Bool := false
  transactionReference : Bool := false
  metadataDigest : Bool := false
  freshness : Option Bool := none
  signature : Option Bool := none

structure ReceiptVerificationResult (ν : Type) where
  isValid : Bool
  receiptId : String
  payrollId : String
  settlementStatus : Value ν
  verifiedFields : ReceiptVerifiedFields
  issues : List ReceiptVerificationIssue
  errors : List String
  warnings : List String
  summary : String
  verifiedAt : ν

/-! ## The shape of a receipt -/

/-- `obj[name]`. -/
def field (fields : List (String × Value ν)) (name : String) : Value ν := (fields.lookup name).getD .undefined

/-- A string that is not blank. -/
def nonBlank : Value ν → Option String
  | .str s => if isBlank s then none else some s
  | _ => none

def readTransactionReference : Value ν → Option TransactionReference
  | .str s => if isBlank s then none else some (.text s)
  | .obj fields => (nonBlank (field fields "txHash")).map .record
  | _ => none

def readIssuedAt : Value ν → Option (Timestamp ν)
  | .num n => some (.number n)
  | .str s => some (.text s)
  | _ => none

/-- The candidate as a receipt, if `validatePayrollReceiptShape` holds of it. -/
def readReceipt : Value ν → Option (PayrollReceipt ν)
  | .obj fields => do
    let receiptId ← nonBlank (field fields "receiptId")
    let payrollId ← nonBlank (field fields "payrollId")
    let settlementStatus ← nonBlank (field fields "settlementStatus")
    let metadataDigest ← nonBlank (field fields "metadataDigest")
    let transactionReference ← readTransactionReference (field fields "transactionReference")
    let issuedAt ← readIssuedAt (field fields "issuedAt")
    return {
      receiptId := receiptId
      payrollId := payrollId
      settlementStatus := settlementStatus
      transactionReference := transactionReference
      metadataDigest := metadataDigest
      metadata := field fields "metadata"
      issuedAt := issuedAt
      signature := field fields "signature"
      signerPublicKey := field fields "signerPublicKey" }
  | _ => none

def extractReceiptTxHash (receipt : PayrollReceipt ν) : String :=
  match receipt.transactionReference with
  | .text s => trim s
  | .record txHash => trim txHash

/-- Whether a value counts as true. -/
def Value.truthy [DecidableEq ν] [Zero ν] : Value ν → Bool
  | .undefined | .null => false
  | .bool b => b
  | .num (.finite n) => n ≠ 0
  | .num .nan => false
  | .bigint n => n ≠ 0
  | .str s => s ≠ ""
  | _ => true

/-- A text option that counts as true. -/
def given (o : Option String) : Option String := o.filter (· ≠ "")

/-! ## The checks -/

section Checks

variable [NumberFormat ν] [CommRing ν] [LinearOrder ν]
variable (rt : Runtime ν)

def parseTimestampToMs (timestamp : Timestamp ν) : Option (JsNumber ν) :=
  let inMs (n : JsNumber ν) : JsNumber ν := if JsNumber.lt n (.finite 10000000000) then n.scale 1000 else n
  match timestamp with
  | .date ms => some ms
  | .number n => some (inMs n)
  | .text s =>
    if (rt.toNumber s).isNaN = false ∧ isBlank s = false then some (inMs (rt.toNumber s))
    else if (rt.parseDate s).isNaN then none
    else some (rt.parseDate s)

variable (options : ReceiptVerificationOptions ν)

def checkPayrollId (receipt : PayrollReceipt ν) : Option ReceiptVerificationIssue :=
  if isBlank receipt.payrollId then
    some { code := .PAYROLL_ID_MISSING, field := "payrollId", message := "Receipt is missing payrollId." }
  else
    match given options.expectedPayrollId with
    | some expected =>
      if trim receipt.payrollId ≠ trim expected then
        some {
          code := .PAYROLL_ID_MISMATCH
          field := "payrollId"
          message := s!"Receipt payrollId '{receipt.payrollId}' does not match expected payrollId '{expected}'." }
      else none
    | none => none

/-- The statuses that are allowed, if not all are. -/
def allowedStatuses : Option (List String) :=
  options.allowedSettlementStatuses.or
    (if options.requireSettled = some false then none else some ["settled", "confirmed"])

def checkSettlementStatus (receipt : PayrollReceipt ν) : Option ReceiptVerificationIssue :=
  if receipt.settlementStatus = "" then
    some {
      code := .SETTLEMENT_STATUS_MISSING
      field := "settlementStatus"
      message := "Receipt is missing settlementStatus." }
  else
    match allowedStatuses options with
    | some allowed =>
      if receipt.settlementStatus ∉ allowed then
        some {
          code := if receipt.settlementStatus ∈ ["pending", "failed", "rejected"] then .UNSETTLED_STATUS
            else .SETTLEMENT_STATUS_NOT_ALLOWED
          field := "settlementStatus"
          message := s!"Receipt settlement status '{receipt.settlementStatus}' is not allowed (acceptable: " ++
            ", ".intercalate allowed ++ ")." }
      else none
    | none => none

def checkTransaction (options : ReceiptVerificationOptions ν) (receipt : PayrollReceipt ν) :
    Option ReceiptVerificationIssue :=
  let txHash := extractReceiptTxHash receipt
  if txHash = "" then
    some {
      code := .TRANSACTION_REFERENCE_MISSING
      field := "transactionReference"
      message := "Receipt is missing transaction reference or txHash." }
  else
    match given options.expectedTransactionHash with
    | some expected =>
      if rt.toLowerCase txHash ≠ trim (rt.toLowerCase expected) then
        some {
          code := .TRANSACTION_HASH_MISMATCH
          field := "transactionReference"
          message := "Transaction hash in receipt does not match expected transaction hash." }
      else none
    | none => none

/-- The metadata of the options take the place of those of the receipt. -/
def metadataToVerify (receipt : PayrollReceipt ν) : Value ν :=
  match options.metadata with
  | .undefined => receipt.metadata
  | metadata => metadata

def computeMetadataDigest (metadata : Value ν) : String :=
  rt.sha256Sync (canonicalizeMetadata metadata)

def isUndefined : Value ν → Bool
  | .undefined => true
  | _ => false

def checkMetadataDigest (options : ReceiptVerificationOptions ν) (receipt : PayrollReceipt ν) :
    Option ReceiptVerificationIssue :=
  let digest := rt.toLowerCase (trim receipt.metadataDigest)
  let metadata := metadataToVerify options receipt
  if isBlank receipt.metadataDigest then
    some {
      code := .METADATA_DIGEST_MISSING
      field := "metadataDigest"
      message := "Receipt is missing metadataDigest." }
  else if isValidHexDigest receipt.metadataDigest = false then
    some {
      code := .METADATA_DIGEST_INVALID
      field := "metadataDigest"
      message := "Receipt metadataDigest is not a valid 64-character hexadecimal SHA-256 string." }
  else if ∃ expected ∈ given options.expectedMetadataDigest, digest ≠ rt.toLowerCase (trim expected) then
    some {
      code := .METADATA_DIGEST_MISMATCH
      field := "metadataDigest"
      message := "Receipt metadataDigest does not match the expected metadata digest." }
  else if isUndefined metadata = false ∧ digest ≠ rt.toLowerCase (computeMetadataDigest rt metadata) then
    some {
      code := .METADATA_DIGEST_MISMATCH
      field := "metadataDigest"
      message := "Receipt metadataDigest does not match the computed hash of the metadata payload." }
  else none

/-- The tolerance, a minute by default. -/
def toleranceOf : JsNumber ν :=
  options.toleranceMs.getD (.finite 60000)

/-- The time that the receipt is compared with. -/
def currentTime (now : ν) (options : ReceiptVerificationOptions ν) : JsNumber ν :=
  (options.currentTimestamp.bind (parseTimestampToMs rt)).getD (.finite now)

def Timestamp.toValue : Timestamp ν → Value ν
  | .number n => .num n
  | .text s => .str s
  | .date ms => .num ms

def checkFreshness (now : ν) (options : ReceiptVerificationOptions ν)
    (receipt : PayrollReceipt ν) : List ReceiptVerificationIssue :=
  let nowMs := currentTime rt now options
  let toleranceMs := toleranceOf options
  match parseTimestampToMs rt receipt.issuedAt with
  | none =>
    let issuedAt := rt.toText receipt.issuedAt.toValue
    [{ code := .ISSUED_AT_INVALID
       field := "issuedAt"
       message := s!"Receipt issuedAt timestamp '{issuedAt}' is unparseable." }]
  | some issuedAtMs =>
    let tolerance := rt.toText (.num toleranceMs)
    (if JsNumber.lt (nowMs.add toleranceMs) issuedAtMs then
      [{ code := .FUTURE_TIMESTAMP
         field := "issuedAt"
         message := s!"Receipt issuedAt is in the future beyond acceptable clock tolerance ({tolerance} ms)." }]
    else []) ++
    (match options.maxAgeMs with
    | some maxAgeMs =>
      let ageMs := nowMs.sub issuedAtMs
      let age := rt.toText (.num (rt.roundSeconds ageMs))
      let maxAge := rt.toText (.num (rt.roundSeconds maxAgeMs))
      if JsNumber.lt (.finite 0) maxAgeMs ∧ JsNumber.lt (maxAgeMs.add toleranceMs) ageMs then
        [{ code := .EXPIRED
           field := "issuedAt"
           message := s!"Receipt has expired (age {age}s exceeds allowed maxAge {maxAge}s)." }]
      else []
    | none => [])

/-- Whether a value is one of the trusted keys. -/
def isTrusted (trustedSigners : List String) : Value ν → Bool
  | .str key => key ≠ "" && trustedSigners.contains key
  | _ => false

/-- The issue with the signature, and what is noted of it. -/
def checkSignature (receipt : PayrollReceipt ν) : Option ReceiptVerificationIssue × Option Bool :=
  if options.requireSignature ∧ receipt.signature.truthy = false then
    (some {
      code := .SIGNATURE_MISSING
      field := "signature"
      message := "Receipt requires a cryptographic signature, but none was present." }, some false)
  else if options.trustedSigners.getD [] ≠ [] then
    if isTrusted (options.trustedSigners.getD []) receipt.signerPublicKey = false then
      (some {
        code := .SIGNATURE_INVALID
        field := "signerPublicKey"
        message := "Receipt signer public key is missing or not included in trustedSigners list." }, some false)
    else (none, some true)
  else (none, if receipt.signature.truthy then some true else none)

def runValidator (receipt : PayrollReceipt ν) (validator : PayrollReceipt ν → ValidatorOutcome) :
    Option ReceiptVerificationIssue :=
  match validator receipt with
  | .issue i => some i
  | .throws message =>
    some { code := .CUSTOM_VALIDATION_FAILED, message := "Custom validator failed: " ++ message }
  | _ => none

/-- The issues of a candidate that has the shape of a receipt. -/
def findIssues (now : ν) (options : ReceiptVerificationOptions ν) (receipt : PayrollReceipt ν) :
    List ReceiptVerificationIssue :=
  (checkPayrollId options receipt).toList ++ (checkSettlementStatus options receipt).toList ++
    (checkTransaction rt options receipt).toList ++ (checkMetadataDigest rt options receipt).toList ++
    checkFreshness rt now options receipt ++ (checkSignature options receipt).1.toList ++
    options.customValidators.filterMap (runValidator receipt)

/-- Whether an issue makes a receipt invalid. -/
def isCritical (i : ReceiptVerificationIssue) : Bool :=
  options.strict || (i.critical || i.severity == .error)

def buildResult (receiptId payrollId : String) (settlementStatus : Value ν) (status : String) (isValid : Bool)
    (verifiedFields : ReceiptVerifiedFields) (issues : List ReceiptVerificationIssue) (verifiedAt : ν) :
    ReceiptVerificationResult ν :=
  let errors := (issues.filter (·.severity = .error)).map ReceiptVerificationIssue.message
  { isValid := isValid
    receiptId := receiptId
    payrollId := payrollId
    settlementStatus := settlementStatus
    verifiedFields := verifiedFields
    issues := issues
    errors := errors
    warnings := (issues.filter (·.severity = .warning)).map ReceiptVerificationIssue.message
    summary :=
      if isValid then
        s!"Payroll receipt '{receiptId}' (payroll: '{payrollId}') verified successfully with status '{status}'."
      else
        "Payroll receipt verification failed: " ++
          (if errors = [] then "Integrity checks failed" else "; ".intercalate errors)
    verifiedAt := verifiedAt }

/-- `v || "unknown"`. -/
def orUnknown (v : Value ν) : Value ν := if v.truthy then v else .str "unknown"

def verifyPayrollReceipt (now : ν) (receiptCandidate : Value ν)
    (options : ReceiptVerificationOptions ν) : ReceiptVerificationResult ν :=
  match readReceipt receiptCandidate with
  | none =>
    let fields := match receiptCandidate with
      | .obj fields => fields
      | _ => []
    let status := orUnknown (field fields "settlementStatus")
    buildResult (rt.toText (orUnknown (field fields "receiptId"))) (rt.toText (orUnknown (field fields "payrollId")))
      status (rt.toText status) false {}
      [{ code := .INVALID_SHAPE
         message := "Receipt is malformed or missing required fields (receiptId, payrollId, settlementStatus, " ++
          "transactionReference, metadataDigest, issuedAt)." }]
      now
  | some receipt =>
    let issues := findIssues rt now options receipt
    buildResult receipt.receiptId receipt.payrollId (.str receipt.settlementStatus) receipt.settlementStatus
      (decide (issues.filter (isCritical options) = []))
      { payrollId := (checkPayrollId options receipt).isNone
        settlementStatus := (checkSettlementStatus options receipt).isNone
        transactionReference := (checkTransaction rt options receipt).isNone
        metadataDigest := (checkMetadataDigest rt options receipt).isNone
        freshness := some (checkFreshness rt now options receipt).isEmpty
        signature := (checkSignature options receipt).2 }
      issues now

end Checks

end ZkPayroll.Receipts
