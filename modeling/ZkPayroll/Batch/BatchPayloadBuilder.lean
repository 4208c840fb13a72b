import Mathlib.Algebra.Ring.Int.Defs
import ZkPayroll.Core.Errors
import ZkPayroll.Payroll.Types

/-!
# Validation of a batch

`validate` and `build` of `batch/BatchPayloadBuilder.ts`.
-/

namespace ZkPayroll.Batch

open Framework ZkPayroll.Core Payroll

inductive BatchErrorCode where
  | EMPTY_BATCH
  | INVALID_RECIPIENT
  | INVALID_AMOUNT
  | DUPLICATE_RECIPIENT
  | MISSING_ASSET
  deriving DecidableEq

/-- `BatchValidationError`. -/
structure BatchValidationError where
  code : BatchErrorCode
  message : String
  field : String
  index : Option Nat := none
  deriving DecidableEq

/-- `BatchPayload`. -/
structure BatchPayload where
  entries : List PaymentParams
  totalAmount : Int
  deriving DecidableEq

/-- The error in the recipient of entry `i`, and the recipients seen after it,
with the index of each. -/
def validateRecipient (seen : List (String × Nat)) (i : Nat) (entry : PaymentParams) :
    List BatchValidationError × List (String × Nat) :=
  if isBlank entry.recipient then
    ([{ code := .INVALID_RECIPIENT, message := "Recipient address is required", field := "recipient",
        index := some i }], seen)
  else
    match seen.lookup entry.recipient with
    | some firstIdx =>
      ([{ code := .DUPLICATE_RECIPIENT, message := s!"Duplicate recipient at indices {firstIdx} and {i}",
          field := "recipient", index := some i }], seen)
    | none => ([], (entry.recipient, i) :: seen)

def validateAmount (i : Nat) (entry : PaymentParams) : List BatchValidationError :=
  if entry.amount ≤ 0 then
    [{ code := .INVALID_AMOUNT, message := "Amount must be a positive value", field := "amount",
       index := some i }]
  else []

def validateAsset (i : Nat) (entry : PaymentParams) : List BatchValidationError :=
  if isBlank entry.asset then
    [{ code := .MISSING_ASSET, message := "Asset identifier is required", field := "asset",
       index := some i }]
  else []

/-- The errors of the entries from number `i` on. -/
def validateEntries (seen : List (String × Nat)) : (i : Nat) → List PaymentParams → List BatchValidationError
  | _, [] => []
  | i, entry :: entries =>
    let recipient := validateRecipient seen i entry
    recipient.1 ++ validateAmount i entry ++ validateAsset i entry ++
      validateEntries recipient.2 (i + 1) entries

def validate (entries : List PaymentParams) : List BatchValidationError :=
  if entries.length = 0 then
    [{ code := .EMPTY_BATCH, message := "Batch must contain at least one payment entry", field := "entries" }]
  else validateEntries [] 0 entries

def batchValidationFailedError (errors : List BatchValidationError) : SdkError where
  kind := .batchValidationFailed
  name := "BatchValidationFailedError"
  message := s!"Batch validation failed with {errors.length} error(s)"
  code := "BATCH_VALIDATION_FAILED"

/-- `PayrollValidation.assertValidBatchPayload(entries)`. -/
def assertValidBatchPayload (entries : List PaymentParams) : Except SdkError BatchPayload :=
  let errors := validate entries
  if errors.isEmpty then .ok { entries, totalAmount := (entries.map (·.amount)).sum }
  else .error (batchValidationFailedError errors)

/-- A valid payload is made of the entries as they are. -/
theorem assertValidBatchPayload_entries {entries : List PaymentParams} {payload : BatchPayload}
    (h : assertValidBatchPayload entries = .ok payload) : payload.entries = entries := by
  rw [assertValidBatchPayload] at h
  split at h
  · exact congrArg BatchPayload.entries (Except.ok.inj h).symm
  · cases h

end ZkPayroll.Batch
