import ZkPayroll.Redaction.JsonAgreement

/-!
# Redaction of audit packages

`AuditPackageRedactor` of `audit/auditRedactionHelper.ts`, for packages of JSON
values. `processValue` gives the copy of a value and the keys that it redacted,
in their order. In a recursive redaction nothing depends on what is stored under
a sensitive key (`processValue_congr`).
-/

namespace ZkPayroll.Audit

open Framework Redaction

variable {ν : Type}

def DEFAULT_SENSITIVE_KEYS : List String :=
  ["viewKey", "viewingKey", "privateKey", "secret", "secretKey", "salaryAmount", "ssn", "taxId", "creditCard",
    "bankAccount"]

structure RedactionMaskOptions where
  additionalKeys : Option (List String) := none
  placeholder : Option (List Nat) := none
  recursive : Option Bool := none

structure AuditPackageRedactionResult (ν : Type) where
  redactedData : PlainValue ν
  redactedFieldCount : Nat
  redactedKeys : List String

/-- `String.prototype.toLowerCase` is `toLowerCase`. -/
structure AuditPackageRedactor where
  toLowerCase : String → String
  options : RedactionMaskOptions

namespace AuditPackageRedactor

variable (r : AuditPackageRedactor)

def sensitiveKeys : List String :=
  (DEFAULT_SENSITIVE_KEYS ++ r.options.additionalKeys.getD []).map r.toLowerCase

def placeholder : List Nat := r.options.placeholder.getD (codeUnits "[REDACTED]")

def recursive : Bool := r.options.recursive.getD true

/-- `this.sensitiveKeys.has(key.toLowerCase())`. -/
def isSensitive (key : String) : Bool := decide (r.toLowerCase key ∈ r.sensitiveKeys)

mutual

def processValue : Json ν → PlainValue ν × List String
  | .null => (ofJson .null, [])
  | .bool b => (ofJson (.bool b), [])
  | .num n => (ofJson (.num n), [])
  | .str s => (ofJson (.str s), [])
  | .arr items =>
    if r.recursive then
      let processed := processItems items
      (.arr processed.1, processed.2)
    else (ofJson (.arr items), [])
  | .obj fields =>
    let processed := processFields fields
    (assignedTo processed.1, processed.2)

/-- Item by item. -/
def processItems : List (Json ν) → List (PlainValue ν) × List String
  | [] => ([], [])
  | v :: items =>
    let processed := processValue v
    let rest := processItems items
    (processed.1 :: rest.1, processed.2 ++ rest.2)

/-- The assignments to the properties of `copy`. -/
def processFields : List (String × Json ν) → List (String × PlainValue ν) × List String
  | [] => ([], [])
  | (key, itemVal) :: fields =>
    let processed : PlainValue ν × List String :=
      if r.isSensitive key then (.prim (.str r.placeholder), [key])
      else if r.recursive then processValue itemVal
      else (ofJson itemVal, [])
    let rest := processFields fields
    ((key, processed.1) :: rest.1, processed.2 ++ rest.2)

end

def redact (packageData : Json ν) : AuditPackageRedactionResult ν :=
  let processed := r.processValue packageData
  { redactedData := processed.1
    redactedFieldCount := processed.2.length
    redactedKeys := processed.2.foldl noteField [] }

/-! ## What sensitive values show -/

variable {r}

mutual

theorem processValue_congr (hr : r.recursive = true) : ∀ v w : Json ν, SameBut r.isSensitive true v w →
    r.processValue v = r.processValue w
  | .null, .null, _ => rfl
  | .bool a, .bool b, h => by rw [show a = b from h]
  | .num a, .num b, h => by rw [show a = b from h]
  | .str a, .str b, h => by rw [show a = b from h]
  | .arr items, .arr items', h => by
    rcases h with rfl | ⟨-, h⟩
    · rfl
    · simp only [processValue, hr, if_true, processItems_congr hr items items' h]
  | .obj fields, .obj fields', h => by
    simp only [processValue, processFields_congr hr fields fields' h]

theorem processItems_congr (hr : r.recursive = true) : ∀ items items' : List (Json ν),
    SameButItems r.isSensitive true items items' → r.processItems items = r.processItems items'
  | [], [], _ => rfl
  | v :: items, w :: items', h => by
    simp only [processItems, processValue_congr hr v w h.1, processItems_congr hr items items' h.2]

theorem processFields_congr (hr : r.recursive = true) : ∀ fields fields' : List (String × Json ν),
    SameButFields r.isSensitive true fields fields' → r.processFields fields = r.processFields fields'
  | [], [], _ => rfl
  | (k, v) :: fields, (l, w) :: fields', h => by
    obtain ⟨rfl, hvalue, hrest⟩ := h
    simp only [processFields, processFields_congr hr fields fields' hrest]
    by_cases hs : r.isSensitive k = true
    · simp only [hs, if_true]
    · simp only [hs, hr, Bool.false_eq_true, if_false, if_true, processValue_congr hr v w (hvalue.resolve_left hs)]

end

/-- Packages that differ only under sensitive keys are redacted alike. -/
theorem redact_congr (hr : r.recursive = true) {v w : Json ν} (h : SameBut r.isSensitive true v w) :
    r.redact v = r.redact w := by
  rw [redact, redact, processValue_congr hr v w h]

end AuditPackageRedactor

end ZkPayroll.Audit
