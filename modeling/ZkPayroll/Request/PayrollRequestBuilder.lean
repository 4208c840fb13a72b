import ZkPayroll.Core.Errors
import ZkPayroll.Framework.Grouping
import ZkPayroll.Framework.Guards
import ZkPayroll.Framework.Json

/-!
# The payroll request builder

`deriveIdempotencyKey` and `PayrollRequestBuilder` of
`request/PayrollRequestBuilder.ts`, with the check for duplicate employees of
`request/employeeDuplicates.ts`. An override of the idempotency key of an entry
is kept under the position of the entry. Identifiers are masked character by
character.
-/

namespace ZkPayroll.Request

open Framework ZkPayroll.Core

variable (toLowerCase : String → String)

/-! ## Data -/

structure PayrollRequestEntry where
  recipient : String
  amount : Int
  asset : String
  memo : Option String := none
  employeeId : Option String := none
  deriving DecidableEq, Repr

structure SubmissionContext where
  network : Option String := none
  contractId : Option String := none
  nonce : Option String := none
  deriving DecidableEq, Repr

structure PayrollRequest where
  entries : List PayrollRequestEntry
  idempotencyKeys : List String
  context : SubmissionContext
  deriving DecidableEq, Repr

structure PayrollRequestValidationEntry where
  index : Int
  field : String
  code : String
  message : String
  deriving DecidableEq, Repr

structure PayrollRequestValidationReport where
  errors : List PayrollRequestValidationEntry
  isValid : Bool
  deriving DecidableEq, Repr

/-! ## Idempotency keys -/

/-- A string that is neither missing nor empty. -/
def truthy (s : Option String) : Option String := s.filter (· ≠ "")

/-- `createPaymentIdempotencyKey` of `core/idempotency.ts`. -/
def createPaymentIdempotencyKey (recipient : String) (amount : Int) (asset : String) : String :=
  "pay:" ++ toLowerCase (trim recipient) ++ ":" ++ String.ofList (integerText amount) ++ ":" ++ toLowerCase (trim asset)

def contextParts (context : SubmissionContext) : List String :=
  ((truthy context.network).map fun network => "net:" ++ toLowerCase (trim network)).toList ++
    ((truthy context.contractId).map fun contractId => "ctr:" ++ trim contractId).toList ++
    ((truthy context.nonce).map fun nonce => "n:" ++ trim nonce).toList

def deriveIdempotencyKey (entry : PayrollRequestEntry) (context : SubmissionContext) : String :=
  let base := createPaymentIdempotencyKey toLowerCase entry.recipient entry.amount entry.asset
  let parts := contextParts toLowerCase context
  if parts.length > 0 then base ++ ":" ++ ":".intercalate parts else base

/-! ## Duplicate employees -/

/-- `redactReferenceId` of `employees/onboardingDuplicates.ts`. -/
def redactReferenceId (refId : String) : String :=
  let clean := trimChars refId.toList
  if clean.length = 0 then "[EMPTY_REF]"
  else if clean.length ≤ 6 then "[REDACTED_REF]"
  else String.ofList (clean.take 3) ++ "***" ++ String.ofList (clean.drop (clean.length - 3))

/-- An employee identifier without the spaces around it, and where it stands. -/
structure EmployeeReference where
  clean : String
  index : Nat

def employeeReferences (entries : List PayrollRequestEntry) : List EmployeeReference :=
  entries.zipIdx.filterMap fun (entry, i) =>
    let clean := trim (entry.employeeId.getD "")
    if clean = "" then none else some { clean := clean, index := i }

/-- The errors for the references to one employee: all but the first. -/
def duplicateEmployeeErrors : List EmployeeReference → List PayrollRequestValidationEntry
  | [] => []
  | first :: rest => rest.map fun duplicate =>
    { index := duplicate.index
      field := "employeeId"
      code := "DUPLICATE_EMPLOYEE_ID"
      message := "Duplicate employee record \"" ++ redactReferenceId first.clean ++
        s!"\" (also at index {first.index})" }

def buildDuplicateEmployeeValidationErrors (entries : List PayrollRequestEntry) :
    List PayrollRequestValidationEntry :=
  (groupBy (fun r : EmployeeReference => toLowerCase r.clean) id (employeeReferences entries)).flatMap fun group =>
    duplicateEmployeeErrors group.2

/-! ## The builder -/

structure PayrollRequestBuilder where
  entries : List PayrollRequestEntry := []
  context : SubmissionContext := {}
  keyOverrides : List (Nat × String) := []

/-- A number as an argument: an integer, or another number with its text. -/
inductive IndexArgument where
  | integer (index : Int)
  | other (text : String)
  deriving DecidableEq

def IndexArgument.text : IndexArgument → String
  | .integer index => toString index
  | .other text => text

def indexOutOfBounds (index : IndexArgument) (op : String) (entries : Nat) : SdkError where
  kind := .error
  name := "RangeError"
  message := s!"PayrollRequestBuilder.{op}() index " ++ index.text ++ s!" is out of bounds (entries: {entries})."

variable (b : PayrollRequestBuilder)

def PayrollRequestBuilder.assertIndex (index : IndexArgument) (op : String) : Except SdkError Nat :=
  match index with
  | .other _ => .error (indexOutOfBounds index op b.entries.length)
  | .integer i =>
    if i < 0 ∨ i ≥ b.entries.length then .error (indexOutOfBounds index op b.entries.length)
    else .ok i.toNat

def PayrollRequestBuilder.add (entry : PayrollRequestEntry) : PayrollRequestBuilder :=
  { b with entries := b.entries ++ [entry] }

def PayrollRequestBuilder.addMany (entries : List PayrollRequestEntry) : PayrollRequestBuilder :=
  entries.foldl PayrollRequestBuilder.add b

def PayrollRequestBuilder.update (b : PayrollRequestBuilder) (index : IndexArgument) (entry : PayrollRequestEntry) :
    Except SdkError PayrollRequestBuilder := do
  let i ← b.assertIndex index "update"
  return { b with entries := b.entries.set i entry, keyOverrides := eraseKey i b.keyOverrides }

def PayrollRequestBuilder.remove (b : PayrollRequestBuilder) (index : IndexArgument) :
    Except SdkError PayrollRequestBuilder := do
  let i ← b.assertIndex index "remove"
  return { b with entries := b.entries.eraseIdx i, keyOverrides := eraseKey i b.keyOverrides }

def PayrollRequestBuilder.clear : PayrollRequestBuilder :=
  { b with entries := [], keyOverrides := [] }

def PayrollRequestBuilder.withContext (context : SubmissionContext) : PayrollRequestBuilder :=
  { b with context := context, keyOverrides := [] }

def PayrollRequestBuilder.withKeyOverride (b : PayrollRequestBuilder) (index : IndexArgument) (key : String) :
    Except SdkError PayrollRequestBuilder := do
  let i ← b.assertIndex index "withKeyOverride"
  return { b with keyOverrides := setKey i (trim key) b.keyOverrides }

/-! ## Validation -/

/-- The check of the recipient, and the recipients seen after it. -/
def validateRecipient (i : Nat) (seenRecipients : List (String × Nat)) (entry : PayrollRequestEntry) :
    List PayrollRequestValidationEntry × List (String × Nat) :=
  if isBlank entry.recipient then
    ([{ index := i, field := "recipient", code := "INVALID_RECIPIENT", message := "Recipient address is required" }],
      seenRecipients)
  else
    match seenRecipients.lookup entry.recipient with
    | some firstIdx =>
      ([{ index := i, field := "recipient", code := "DUPLICATE_RECIPIENT",
          message := s!"Duplicate recipient at indices {firstIdx} and {i}" }], seenRecipients)
    | none => ([], setKey entry.recipient i seenRecipients)

def validateAmount (i : Nat) (entry : PayrollRequestEntry) : List PayrollRequestValidationEntry :=
  if entry.amount ≤ 0 then
    [{ index := i, field := "amount", code := "INVALID_AMOUNT", message := "Amount must be a positive value" }]
  else []

def validateAsset (i : Nat) (entry : PayrollRequestEntry) : List PayrollRequestValidationEntry :=
  if isBlank entry.asset then
    [{ index := i, field := "asset", code := "MISSING_ASSET", message := "Asset identifier is required" }]
  else []

/-- The checks of the entries from the position `i` on. -/
def validateEntries (i : Nat) (seenRecipients : List (String × Nat)) :
    List PayrollRequestEntry → List PayrollRequestValidationEntry
  | [] => []
  | entry :: entries =>
    let (errors, seen) := validateRecipient i seenRecipients entry
    errors ++ validateAmount i entry ++ validateAsset i entry ++ validateEntries (i + 1) seen entries

def PayrollRequestBuilder.validate : PayrollRequestValidationReport :=
  if b.entries.length = 0 then
    { errors := [{ index := -1, field := "entries", code := "EMPTY_REQUEST",
                   message := "Request must contain at least one payment entry" }]
      isValid := false }
  else
    let errors := validateEntries 0 [] b.entries ++ buildDuplicateEmployeeValidationErrors toLowerCase b.entries
    { errors := errors, isValid := errors.length == 0 }

/-- The key of the entry at position `i`. -/
def PayrollRequestBuilder.keyAt (i : Nat) (entry : PayrollRequestEntry) : String :=
  (truthy (b.keyOverrides.lookup i)).getD (deriveIdempotencyKey toLowerCase entry b.context)

def PayrollRequestBuilder.build : Except SdkError PayrollRequest := do
  let errors := (b.validate toLowerCase).errors
  throwIf (errors.length > 0) (genericError ("Payroll request validation failed: " ++
    "; ".intercalate (errors.map (·.message))))
  return {
    entries := b.entries
    idempotencyKeys := b.entries.zipIdx.map fun (entry, i) => b.keyAt toLowerCase i entry
    context := b.context }

/-! ## Operations -/

/-- A call of the builder. -/
inductive BuilderOperation where
  | add (entry : PayrollRequestEntry)
  | addMany (entries : List PayrollRequestEntry)
  | update (index : IndexArgument) (entry : PayrollRequestEntry)
  | remove (index : IndexArgument)
  | clear
  | withContext (context : SubmissionContext)
  | withKeyOverride (index : IndexArgument) (key : String)

def PayrollRequestBuilder.call : BuilderOperation → Except SdkError PayrollRequestBuilder
  | .add entry => .ok (b.add entry)
  | .addMany entries => .ok (b.addMany entries)
  | .update index entry => b.update index entry
  | .remove index => b.remove index
  | .clear => .ok b.clear
  | .withContext context => .ok (b.withContext context)
  | .withKeyOverride index key => b.withKeyOverride index key

/-- The builder after a call, which leaves it as it was when it throws. -/
def PayrollRequestBuilder.next (op : BuilderOperation) : PayrollRequestBuilder :=
  match b.call op with
  | .ok b' => b'
  | .error _ => b

/-! ## What the checks say -/

variable {toLowerCase} {b : PayrollRequestBuilder}

theorem assertIndex_eq_ok {index : IndexArgument} {op : String} {i : Nat} :
    b.assertIndex index op = .ok i ↔ index = .integer i ∧ i < b.entries.length := by
  unfold PayrollRequestBuilder.assertIndex
  split
  · exact iff_of_false nofun fun h => nomatch h.1
  · rename_i j
    split
    · refine iff_of_false nofun fun h => ?_
      obtain ⟨he, hlt⟩ := h
      obtain rfl := IndexArgument.integer.inj he
      omega
    · rw [Except.ok.injEq, IndexArgument.integer.injEq]
      omega

theorem build_eq_ok {request : PayrollRequest} :
    b.build toLowerCase = .ok request ↔ (b.validate toLowerCase).errors = [] ∧
      { entries := b.entries
        idempotencyKeys := b.entries.zipIdx.map fun (entry, i) => b.keyAt toLowerCase i entry
        context := b.context } = request := by
  rw [PayrollRequestBuilder.build, throwIf_bind_eq_ok]
  simp [pure, Except.pure]

end ZkPayroll.Request
