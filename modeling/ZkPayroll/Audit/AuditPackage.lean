import Mathlib.Algebra.Ring.Int.Defs
import ZkPayroll.Audit.StableJson
import ZkPayroll.Core.Errors
import ZkPayroll.Framework.Guards

/-!
# Selective-disclosure audit packages

`audit/auditPackage.ts`. A package, and each part of one, is a value in memory
together with what its declared type says can be read from it (`Typed`); the
value may have further properties, which are hashed and written with the
others. A property whose value is `undefined` counts as absent, and an expiry
time may be `null`, which is what JSON makes of one that is not finite.

`verify_valid_iff` says which packages are reported valid: those whose parts
are complete (`ShapeOk`) and whose hash is that of their content. Whether the
commitments lie in the scope that the package declares is not among the
checks.
-/

namespace ZkPayroll.Audit

section

open Framework ZkPayroll.Core

variable {ν : Type}

/-! ## Reading typed values -/

/-- `value.key`. -/
def field (value : Json ν) (key : String) : Option (Json ν) :=
  match value with
  | .obj fields => fields.lookup key
  | _ => none

/-- The text, if the value is one. -/
def asString : Json ν → Option String
  | .str s => some s
  | _ => none

/-- The items, if the value is an array. -/
def asItems : Json ν → Option (List (Json ν))
  | .arr items => some items
  | _ => none

/-- A number, or `null`. -/
def asAtom : Json ν → Option (Option ν)
  | .null => some none
  | .num n => some (some n)
  | _ => none

/-- Reads every item. -/
def readAll {α β : Type} (read : α → Option β) : List α → Option (List β)
  | [] => some []
  | v :: items => do
    let b ← read v
    let bs ← readAll read items
    return b :: bs

/-- A property that must be there. -/
def required {α : Type} (read : Json ν → Option α) (value : Json ν) (key : String) : Option α :=
  (field value key).bind read

/-- A property that may be absent. -/
def optional {α : Type} (read : Json ν → Option α) (value : Json ν) (key : String) : Option (Option α) :=
  match field value key with
  | none => some none
  | some v => (read v).map some

/-- `AuditDisclosureScope`. -/
structure AuditDisclosureScope (ν : Type) where
  type : String
  employeeIds : Option (List String)
  payrollPeriodIds : Option (List String)
  departmentIds : Option (List String)
  reason : Option String
  expiresAt : Option (Option (JsNumber ν))
  deriving DecidableEq

/-- `AuditPayrollMetadata`. -/
structure AuditPayrollMetadata where
  companyId : String
  payrollRunId : String
  payrollPeriodId : String
  deriving DecidableEq

/-- `AuditCommitmentReference`. -/
structure AuditCommitmentReference where
  id : String
  employeeId : String
  payrollPeriodId : String
  departmentId : Option String
  commitmentHash : String
  deriving DecidableEq

/-- `AuditProofReference`. -/
structure AuditProofReference where
  id : String
  proofHash : String
  verificationKeyId : String
  circuitId : String
  publicInputHash : String
  deriving DecidableEq

/-- `AuditVerificationKeyReference`. -/
structure AuditVerificationKeyReference where
  id : String
  deriving DecidableEq

/-- `SelectiveDisclosureAuditPackage`. -/
structure SelectiveDisclosureAuditPackage (ν : Type) where
  schemaVersion : String
  packageId : String
  payroll : AuditPayrollMetadata
  disclosureScope : AuditDisclosureScope ν
  commitments : List AuditCommitmentReference
  proofReferences : List AuditProofReference
  verificationKeys : List AuditVerificationKeyReference
  integrityHash : String
  deriving DecidableEq

/-- A list of texts. -/
def readStrings (value : Json ν) : Option (List String) := (asItems value).bind (readAll asString)

variable (value : Json (JsNumber ν))

def readScope : Option (AuditDisclosureScope ν) := do
  let type ← required asString value "type"
  let employeeIds ← optional readStrings value "employeeIds"
  let payrollPeriodIds ← optional readStrings value "payrollPeriodIds"
  let departmentIds ← optional readStrings value "departmentIds"
  let reason ← optional asString value "reason"
  let expiresAt ← optional asAtom value "expiresAt"
  return { type, employeeIds, payrollPeriodIds, departmentIds, reason, expiresAt }

def readPayroll : Option AuditPayrollMetadata := do
  let companyId ← required asString value "companyId"
  let payrollRunId ← required asString value "payrollRunId"
  let payrollPeriodId ← required asString value "payrollPeriodId"
  return { companyId, payrollRunId, payrollPeriodId }

def readCommitment : Option AuditCommitmentReference := do
  let id ← required asString value "id"
  let employeeId ← required asString value "employeeId"
  let payrollPeriodId ← required asString value "payrollPeriodId"
  let departmentId ← optional asString value "departmentId"
  let commitmentHash ← required asString value "commitmentHash"
  return { id, employeeId, payrollPeriodId, departmentId, commitmentHash }

def readProof : Option AuditProofReference := do
  let id ← required asString value "id"
  let proofHash ← required asString value "proofHash"
  let verificationKeyId ← required asString value "verificationKeyId"
  let circuitId ← required asString value "circuitId"
  let publicInputHash ← required asString value "publicInputHash"
  return { id, proofHash, verificationKeyId, circuitId, publicInputHash }

def readKey : Option AuditVerificationKeyReference := do
  let id ← required asString value "id"
  return { id }

def readList {α : Type} (read : Json (JsNumber ν) → Option α) (value : Json (JsNumber ν)) : Option (List α) :=
  (asItems value).bind (readAll read)

def readPackage : Option (SelectiveDisclosureAuditPackage ν) := do
  let schemaVersion ← required asString value "schemaVersion"
  let packageId ← required asString value "packageId"
  let payroll ← required readPayroll value "payroll"
  let disclosureScope ← required readScope value "disclosureScope"
  let commitments ← required (readList readCommitment) value "commitments"
  let proofReferences ← required (readList readProof) value "proofReferences"
  let verificationKeys ← required (readList readKey) value "verificationKeys"
  let integrityHash ← required asString value "integrityHash"
  return { schemaVersion, packageId, payroll, disclosureScope, commitments, proofReferences, verificationKeys,
           integrityHash }

/-- A value of the type that `read` reads. -/
structure Typed {α : Type} (read : Json (JsNumber ν) → Option α) where
  value : Json (JsNumber ν)
  ref : α
  reads : read value = some ref
  distinct : DistinctKeys value

/-! ## Checks -/

section Checks

variable [LE ν] [DecidableLE ν] [Zero ν]

/-- `expiresAt <= now`, where `null` counts as zero. -/
def AuditDisclosureScope.expired (scope : AuditDisclosureScope ν) (now : JsNumber ν) : Bool :=
  match scope.expiresAt with
  | none => false
  | some time => (time.getD (.finite 0)).le now

/-- The commitments that the filter of `applyDisclosureScope` keeps. -/
def allows (scope : AuditDisclosureScope ν) (commitment : AuditCommitmentReference) : Bool :=
  if scope.type = "employee_subset" ∧ scope.employeeIds.isSome then
    (scope.employeeIds.getD []).contains commitment.employeeId
  else if scope.type = "payroll_period" ∧ scope.payrollPeriodIds.isSome then
    (scope.payrollPeriodIds.getD []).contains commitment.payrollPeriodId
  else if scope.type = "department" ∧ scope.departmentIds.isSome then
    commitment.departmentId.any fun id => (scope.departmentIds.getD []).contains id
  else true

/-- `applyDisclosureScope(commitments, scope)`. -/
def applyDisclosureScope (commitments : List (Typed (readCommitment (ν := ν)))) (scope : AuditDisclosureScope ν) :
    List (Typed (readCommitment (ν := ν))) :=
  commitments.filter fun commitment => allows scope commitment.ref

def isDisclosureScopeWellFormed (scope : AuditDisclosureScope ν) : Bool :=
  if scope.type = "employee_subset" then 0 < (scope.employeeIds.getD []).length
  else if scope.type = "payroll_period" then 0 < (scope.payrollPeriodIds.getD []).length
  else if scope.type = "department" then 0 < (scope.departmentIds.getD []).length
  else if scope.type = "reason" then scope.reason.getD "" ≠ ""
  else false

/-- `id || "<unknown>"`. -/
def orUnknown (id : String) : String := if id = "" then "<unknown>" else id

/-- The message, where the condition holds. -/
def complain (condition : Prop) [Decidable condition] (message : String) : List String :=
  if condition then [message] else []

/-- What is wrong with a proof. -/
def AuditProofReference.errors (keys : List AuditVerificationKeyReference) (proof : AuditProofReference) :
    List String :=
  complain (proof.id = "" ∨ proof.proofHash = "" ∨ proof.publicInputHash = "" ∨ proof.circuitId = "")
    ("proofReference " ++ orUnknown proof.id ++ " is incomplete.") ++
  complain ((keys.map AuditVerificationKeyReference.id).contains proof.verificationKeyId = false)
    ("proofReference " ++ proof.id ++ " references missing verification key.")

/-- What is wrong with a commitment. -/
def AuditCommitmentReference.errors (commitment : AuditCommitmentReference) : List String :=
  complain (commitment.id = "" ∨ commitment.employeeId = "" ∨ commitment.commitmentHash = "")
    ("commitment " ++ orUnknown commitment.id ++ " is incomplete.")

/-- `validateAuditPackageShape(auditPackage, allowBlankIntegrityHash, now)`. -/
def validateAuditPackageShape (auditPackage : SelectiveDisclosureAuditPackage ν) (allowBlankIntegrityHash : Bool)
    (now : JsNumber ν) : List String :=
  complain (auditPackage.packageId = "") "packageId is required." ++
  complain (auditPackage.schemaVersion ≠ "1.0") "schemaVersion must be 1.0." ++
  complain (auditPackage.payroll.companyId = "") "payroll.companyId is required." ++
  complain (auditPackage.payroll.payrollRunId = "") "payroll.payrollRunId is required." ++
  complain (auditPackage.payroll.payrollPeriodId = "") "payroll.payrollPeriodId is required." ++
  complain (auditPackage.disclosureScope.type = "") "disclosureScope.type is required." ++
  complain (allowBlankIntegrityHash = false ∧ auditPackage.integrityHash = "") "integrityHash is required." ++
  complain (auditPackage.disclosureScope.expired now = true) "disclosureScope is expired." ++
  complain (isDisclosureScopeWellFormed auditPackage.disclosureScope = false)
    "disclosureScope is malformed for its type." ++
  auditPackage.proofReferences.flatMap (AuditProofReference.errors auditPackage.verificationKeys) ++
  auditPackage.commitments.flatMap AuditCommitmentReference.errors ++
  complain (auditPackage.proofReferences.length = 0) "At least one proof reference is required."

end Checks

/-! ## Hashing, verifying and writing -/

/-- `AuditPackageVerificationResult`. -/
structure AuditPackageVerificationResult where
  valid : Bool
  errors : List String
  deriving DecidableEq

/-- What `calculateAuditPackageIntegrityHash` hashes of a package: it without
its hash. -/
def hashable (auditPackage : Json (JsNumber ν)) : Json (JsNumber ν) :=
  match auditPackage with
  | .obj fields => .obj (eraseKey "integrityHash" fields)
  | v => v

variable [NumberFormat ν]

/-- `calculateAuditPackageIntegrityHash(auditPackage)`, where `sha256` is the
hash of the UTF-8 encoding of a string. -/
def calculateAuditPackageIntegrityHash (sha256 : String → List UInt8) (auditPackage : Json (JsNumber ν)) : String :=
  String.ofList (hexEncode (sha256 (stableStringify (hashable auditPackage))))

section Verify

variable [LE ν] [DecidableLE ν] [Zero ν]

/-- `verifySelectiveDisclosureAuditPackage(auditPackage, now)`. -/
def verifySelectiveDisclosureAuditPackage (sha256 : String → List UInt8) (auditPackage : Typed (readPackage (ν := ν)))
    (now : JsNumber ν) : AuditPackageVerificationResult :=
  let errors := validateAuditPackageShape auditPackage.ref false now ++
    complain (calculateAuditPackageIntegrityHash sha256 auditPackage.value ≠ auditPackage.ref.integrityHash)
      "Audit package integrity hash does not match package content."
  { valid := errors.isEmpty, errors }

end Verify

/-- `serializeAuditPackage(auditPackage)`. -/
def serializeAuditPackage (auditPackage : Json (JsNumber ν)) : String := stableStringify auditPackage

mutual

/-- `String(value)`. -/
def toText : Json ν → List Char
  | .null => "null".toList
  | .bool true => "true".toList
  | .bool false => "false".toList
  | .num n => NumberFormat.toText n
  | .str s => s.toList
  | .arr items => [','].intercalate (itemTexts items)
  | .obj _ => "[object Object]".toList

def itemTexts : List (Json ν) → List (List Char)
  | [] => []
  | .null :: items => [] :: itemTexts items
  | v :: items => toText v :: itemTexts items

end

/-- `deserializeAuditPackage(serialized)`. -/
def deserializeAuditPackage (serialized : String) : Except SdkError (Json (JsNumber ν)) :=
  match (parseJson serialized : Option (Json ν)) with
  -- the message of a syntax error is the engine's
  | none => .error { kind := .error, name := "SyntaxError", message := "Unexpected token in JSON" }
  | some .null =>
    .error { kind := .error, name := "TypeError", message := "Cannot read properties of null (reading 'schemaVersion')" }
  | some parsed =>
    match field parsed "schemaVersion" with
    | some (.str "1.0") => .ok (loaded parsed)
    | version =>
      let text := (version.map toText).getD "undefined".toList
      .error (genericError ("Unsupported audit package schema version: " ++ String.ofList text))

end

section

open Framework

variable {ν : Type}

theorem complain_eq_nil_iff {condition : Prop} [Decidable condition] {message : String} :
    complain condition message = [] ↔ ¬condition := by
  unfold complain
  split <;> simp_all

/-- None of the texts is empty. -/
def AuditProofReference.Complete (proof : AuditProofReference) : Prop :=
  proof.id ≠ "" ∧ proof.proofHash ≠ "" ∧ proof.publicInputHash ≠ "" ∧ proof.circuitId ≠ ""

/-- None of the texts is empty. -/
def AuditCommitmentReference.Complete (commitment : AuditCommitmentReference) : Prop :=
  commitment.id ≠ "" ∧ commitment.employeeId ≠ "" ∧ commitment.commitmentHash ≠ ""

/-- The package contains the verification key of the proof. -/
def AuditProofReference.KeyIn (keys : List AuditVerificationKeyReference) (proof : AuditProofReference) : Prop :=
  ∃ key ∈ keys, key.id = proof.verificationKeyId

/-- The commitment lies within the scope, according to the scope's type. -/
structure InScope (scope : AuditDisclosureScope ν) (commitment : AuditCommitmentReference) : Prop where
  employee : scope.type = "employee_subset" → commitment.employeeId ∈ scope.employeeIds.getD []
  period : scope.type = "payroll_period" → commitment.payrollPeriodId ∈ scope.payrollPeriodIds.getD []
  department : scope.type = "department" → ∃ id ∈ commitment.departmentId, id ∈ scope.departmentIds.getD []

variable {commitment : AuditCommitmentReference} {scope : AuditDisclosureScope ν}

theorem inScope_iff :
    InScope scope commitment ↔
      (scope.type = "employee_subset" → commitment.employeeId ∈ scope.employeeIds.getD []) ∧
        (scope.type = "payroll_period" → commitment.payrollPeriodId ∈ scope.payrollPeriodIds.getD []) ∧
          (scope.type = "department" → ∃ id ∈ commitment.departmentId, id ∈ scope.departmentIds.getD []) :=
  ⟨fun h => ⟨h.employee, h.period, h.department⟩, fun h => ⟨h.1, h.2.1, h.2.2⟩⟩

instance (scope : AuditDisclosureScope ν) (commitment : AuditCommitmentReference) :
    Decidable (InScope scope commitment) := decidable_of_iff _ inScope_iff.symm

/-- In a well-formed scope, the filter of the creator keeps what lies in it. -/
theorem allows_iff_inScope (hw : isDisclosureScopeWellFormed scope = true)
    : allows scope commitment = true ↔ InScope scope commitment := by
  have hlisted : ∀ {ids : Option (List String)}, 0 < (ids.getD []).length → ids.isSome = true := by
    intro ids h
    cases ids <;> simp_all
  rw [inScope_iff]
  unfold allows
  unfold isDisclosureScopeWellFormed at hw
  by_cases hemployee : scope.type = "employee_subset"
  · simp only [hemployee, if_true, decide_eq_true_eq] at hw
    simp [hemployee, hlisted hw]
  by_cases hperiod : scope.type = "payroll_period"
  · simp only [hperiod, if_true, decide_eq_true_eq, String.reduceEq, if_false] at hw
    simp [hperiod, hlisted hw]
  by_cases hdepartment : scope.type = "department"
  · simp only [hdepartment, if_true, decide_eq_true_eq, String.reduceEq, if_false] at hw
    simp [hdepartment, hlisted hw, Option.any_eq_true]
  simp [hemployee, hperiod, hdepartment]

section Checks

variable [LE ν] [DecidableLE ν] [Zero ν]

/-- The package is complete, and its scope has not expired. -/
structure ShapeOk (p : SelectiveDisclosureAuditPackage ν) (allowBlankIntegrityHash : Bool) (now : JsNumber ν) :
    Prop where
  packageId : p.packageId ≠ ""
  schemaVersion : p.schemaVersion = "1.0"
  companyId : p.payroll.companyId ≠ ""
  payrollRunId : p.payroll.payrollRunId ≠ ""
  payrollPeriodId : p.payroll.payrollPeriodId ≠ ""
  scopeType : p.disclosureScope.type ≠ ""
  integrityHash : allowBlankIntegrityHash = false → p.integrityHash ≠ ""
  notExpired : p.disclosureScope.expired now = false
  wellFormed : isDisclosureScopeWellFormed p.disclosureScope = true
  proofs : ∀ proof ∈ p.proofReferences, proof.Complete ∧ proof.KeyIn p.verificationKeys
  commitments : ∀ commitment ∈ p.commitments, commitment.Complete
  someProof : p.proofReferences ≠ []

theorem AuditProofReference.errors_eq_nil_iff {keys : List AuditVerificationKeyReference}
    {proof : AuditProofReference} : proof.errors keys = [] ↔ proof.Complete ∧ proof.KeyIn keys := by
  have hkey : ¬(keys.map AuditVerificationKeyReference.id).contains proof.verificationKeyId = false ↔
      proof.KeyIn keys := by
    simp [AuditProofReference.KeyIn]
  rw [AuditProofReference.errors, List.append_eq_nil_iff, complain_eq_nil_iff, complain_eq_nil_iff, hkey,
    AuditProofReference.Complete, not_or, not_or, not_or]

theorem AuditCommitmentReference.errors_eq_nil_iff {commitment : AuditCommitmentReference} :
    commitment.errors = [] ↔ commitment.Complete := by
  rw [AuditCommitmentReference.errors, complain_eq_nil_iff, AuditCommitmentReference.Complete, not_or, not_or]

/-- Nothing is reported of a complete package. -/
theorem validateAuditPackageShape_eq_nil_iff {p : SelectiveDisclosureAuditPackage ν} {blank : Bool}
    {now : JsNumber ν} : validateAuditPackageShape p blank now = [] ↔ ShapeOk p blank now := by
  unfold validateAuditPackageShape
  simp only [List.append_eq_nil_iff, complain_eq_nil_iff, List.flatMap_eq_nil_iff,
    AuditProofReference.errors_eq_nil_iff, AuditCommitmentReference.errors_eq_nil_iff, and_assoc]
  constructor
  · rintro ⟨h₁, h₂, h₃, h₄, h₅, h₆, h₇, h₈, h₉, h₁₀, h₁₁, h₁₂⟩
    exact ⟨h₁, not_not.mp h₂, h₃, h₄, h₅, h₆, fun hb hi => h₇ ⟨hb, hi⟩, Bool.eq_false_iff.mpr h₈,
      Bool.not_eq_false _ ▸ h₉, h₁₀, h₁₁, fun h => h₁₂ (List.length_eq_zero_iff.mpr h)⟩
  · intro h
    exact ⟨h.packageId, not_not.mpr h.schemaVersion, h.companyId, h.payrollRunId, h.payrollPeriodId, h.scopeType,
      fun hb => h.integrityHash hb.1 hb.2, Bool.eq_false_iff.mp h.notExpired, by simp [h.wellFormed], h.proofs,
      h.commitments, fun hl => h.someProof (List.length_eq_zero_iff.mp hl)⟩

variable [NumberFormat ν]

/-- What is checked of a package: its shape, its expiry and its hash. -/
def Checked (sha256 : String → List UInt8) (p : Typed (readPackage (ν := ν))) (now : JsNumber ν) : Prop :=
  ShapeOk p.ref false now ∧ calculateAuditPackageIntegrityHash sha256 p.value = p.ref.integrityHash

theorem verify_valid_iff {sha256 : String → List UInt8} {p : Typed (readPackage (ν := ν))} {now : JsNumber ν} :
    (verifySelectiveDisclosureAuditPackage sha256 p now).valid = true ↔ Checked sha256 p now := by
  rw [verifySelectiveDisclosureAuditPackage, List.isEmpty_iff, List.append_eq_nil_iff,
    validateAuditPackageShape_eq_nil_iff, complain_eq_nil_iff, not_not]
  rfl

end Checks

/-! ## A package that leaves its scope -/

def payrollJuly : Typed (readPayroll (ν := Int)) where
  value := .obj [("companyId", .str "company-1"), ("payrollRunId", .str "run-1"),
    ("payrollPeriodId", .str "2026-07"), ("generatedAt", .num (.finite 1782000000))]
  ref := { companyId := "company-1", payrollRunId := "run-1", payrollPeriodId := "2026-07" }
  reads := rfl
  distinct := by simp [DistinctKeys, DistinctFields]

/-- The first employee alone may be disclosed. -/
def employeeOneScope : Typed (readScope (ν := Int)) where
  value := .obj [("type", .str "employee_subset"), ("employeeIds", .arr [.str "employee-1"]),
    ("expiresAt", .num (.finite 1900000000))]
  ref := { type := "employee_subset", employeeIds := some ["employee-1"], payrollPeriodIds := none
           departmentIds := none, reason := none, expiresAt := some (some (.finite 1900000000)) }
  reads := rfl
  distinct := by simp [DistinctKeys, DistinctFields, DistinctItems]

def commitmentOf (id employeeId commitmentHash : String) : Typed (readCommitment (ν := Int)) where
  value := .obj [("id", .str id), ("employeeId", .str employeeId), ("payrollPeriodId", .str "2026-07"),
    ("commitmentHash", .str commitmentHash)]
  ref := { id, employeeId, payrollPeriodId := "2026-07", departmentId := none, commitmentHash }
  reads := rfl
  distinct := by simp [DistinctKeys, DistinctFields]

def proofOne : Typed (readProof (ν := Int)) where
  value := .obj [("id", .str "p1"), ("proofHash", .str "ph"), ("verificationKeyId", .str "vk"),
    ("circuitId", .str "payroll"), ("publicInputHash", .str "pih")]
  ref := { id := "p1", proofHash := "ph", verificationKeyId := "vk", circuitId := "payroll", publicInputHash := "pih" }
  reads := rfl
  distinct := by simp [DistinctKeys, DistinctFields]

def keyOne : Typed (readKey (ν := Int)) where
  value := .obj [("id", .str "vk"), ("version", .str "1"), ("hash", .str "kh"), ("proofSystem", .str "groth16")]
  ref := { id := "vk" }
  reads := rfl
  distinct := by simp [DistinctKeys, DistinctFields]

/-- The second employee's commitment under the scope of the first. -/
def leakingPackage : Typed (readPackage (ν := Int)) where
  value := .obj [("schemaVersion", .str "1.0"), ("packageId", .str "audit-1"), ("payroll", payrollJuly.value),
    ("disclosureScope", employeeOneScope.value),
    ("commitments", .arr [(commitmentOf "c2" "employee-2" "h2").value]), ("proofReferences", .arr [proofOne.value]),
    ("verificationKeys", .arr [keyOne.value]),
    ("integrityHash", .str "8cb0b99f8528b8ac8cb1b2658c44685b1e521aa2092a5548965688287d1f9c39")]
  ref := { schemaVersion := "1.0", packageId := "audit-1", payroll := payrollJuly.ref
           disclosureScope := employeeOneScope.ref, commitments := [(commitmentOf "c2" "employee-2" "h2").ref]
           proofReferences := [proofOne.ref], verificationKeys := [keyOne.ref]
           integrityHash := "8cb0b99f8528b8ac8cb1b2658c44685b1e521aa2092a5548965688287d1f9c39" }
  reads := rfl
  distinct := by
    simp [DistinctKeys, DistinctFields, DistinctItems, payrollJuly, employeeOneScope, commitmentOf, proofOne, keyOne]

/-- SHA-256 as it is on one text. -/
def sha256On (text hex : String) : String → List UInt8 := hashFrom [(text, digest hex)]

theorem sha256On_self (text hex : String) : sha256On text hex text = digest hex := by
  simp [sha256On, hashFrom]

section Digest

variable {hex : String} (hlen : (digest hex).length = 32)
include hlen

theorem sha256On_injective (text : String) : Function.Injective (sha256On text hex) :=
  hashFrom_injective (by simpa using hlen) (List.nodup_singleton _)

theorem sha256On_ne_nil (text s : String) : sha256On text hex s ≠ [] :=
  hashFrom_ne_nil (by simpa using hlen) s

end Digest

/-- What is hashed of the package. -/
def leakingText : String := stableStringify (hashable leakingPackage.value)

end

end ZkPayroll.Audit
