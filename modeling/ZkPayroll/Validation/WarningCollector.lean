import ZkPayroll.Core.Errors
import ZkPayroll.Redaction.JsonAgreement

/-!
# The warning collector

`PayrollValidationWarningCollector.toRedactedJSON` of
`validation/warningCollector.ts`. Warnings and errors have the same fields; the
metadata of an issue is an object of JSON values, and what is exported of it an
object in memory. Texts are lists of code units where they are cut.

`sanitizeMetadata` goes down into objects, but keeps arrays as they are:
`sanitizeMetadata_eq_iff` says when two exports are the same. A code must not be
the name of a property that every object has.
-/

namespace ZkPayroll.Validation

open Framework ZkPayroll.Core Redaction

variable {ν : Type}

/-! ## Data -/

inductive IssueSeverity where
  | warning
  | error
  deriving DecidableEq

/-- `PayrollValidationWarning` and `PayrollValidationError`. -/
structure PayrollValidationIssue (μ : Type) where
  severity : IssueSeverity
  code : String
  message : String
  field : Option String := none
  employeeId : Option String := none
  recipient : Option (List Nat) := none
  suggestedRemediation : Option String := none
  metadata : Option μ := none
  timestamp : Int

structure CollectorSummary where
  totalWarnings : Nat
  totalErrors : Nat
  canProceed : Bool
  warningCountByCode : List (String × Nat)
  errorCountByCode : List (String × Nat)

structure CollectorExportOptions where
  redactSensitiveData : Option Bool := none
  redactionPlaceholder : Option (List Nat) := none

/-- Metadata: an object of JSON values, whose keys are distinct. -/
structure Metadata (ν : Type) where
  fields : List (String × Json ν)
  distinct : DistinctKeys (.obj fields)

structure PayrollValidationWarningCollector (ν : Type) where
  warnings : List (PayrollValidationIssue (Metadata ν))
  errors : List (PayrollValidationIssue (Metadata ν))

/-! ## Sanitization -/

def maskAddress (address : List Nat) : List Nat :=
  if address.length ≤ 8 then codeUnits "****"
  else address.take 4 ++ codeUnits "..." ++ address.drop (address.length - 4)

/-- `sensitivePatterns.test(k)`. -/
def sensitivePatterns (k : String) : Bool :=
  mentions ["salary", "amount", "secret", "token", "balance", "wage", "compensation", "privatekey", "private_key",
    "apikey", "api_key"] k.toList || asciiLowerCase k == "key"

section Sanitize

variable (placeholder : List Nat)

mutual

/-- The value that `sanitizeMetadata` assigns for a value under a key that is
not sensitive. -/
def sanitizeValue : Json ν → PlainValue ν
  | .obj fields => assignedTo (sanitizeEntries fields)
  | v => ofJson v

/-- The assignments to the properties of `result`. -/
def sanitizeEntries : List (String × Json ν) → List (String × PlainValue ν)
  | [] => []
  | (k, v) :: fields =>
    (k, if sensitivePatterns k then .prim (.str placeholder) else sanitizeValue v) :: sanitizeEntries fields

end

def sanitizeMetadata (fields : List (String × Json ν)) : PlainValue ν := assignedTo (sanitizeEntries placeholder fields)

end Sanitize

/-! ## When two exports are the same -/

section Sanitize

variable (placeholder : List Nat)

theorem keys_sanitizeEntries (fields : List (String × Json ν)) :
    (sanitizeEntries placeholder fields).map Prod.fst = fields.map Prod.fst := by
  induction fields with
  | nil => rfl
  | cons f fields ih => rw [sanitizeEntries, List.map_cons, List.map_cons, ih]

/-- A key that is not among those of the other entries is not assigned again. -/
theorem ne_of_sanitizeEntries {k : String} {fields : List (String × Json ν)} (hk : k ∉ fields.map Prod.fst) :
    ∀ f ∈ sanitizeEntries placeholder fields, f.1 ≠ k := by
  intro f hf heq
  refine hk ?_
  rw [← keys_sanitizeEntries placeholder fields, ← heq]
  exact List.mem_map_of_mem hf

/-- Where a value and its export cannot be prototypes, the values are equal. -/
theorem sameBut_of_not_isPrototype {v w : Json ν} (h : SameBut sensitivePatterns true v w)
    (hv : (sanitizeValue placeholder v).isPrototype = false) : SameBut sensitivePatterns false v w := by
  cases v with
  | null => cases hv
  | arr items => cases hv
  | obj fields =>
    rw [sanitizeValue, isPrototype_assignedTo] at hv
    cases hv
  | bool a => cases w <;> exact h
  | num a => cases w <;> exact h
  | str a => cases w <;> exact h

mutual

theorem sanitizeValue_eq_iff : ∀ v w : Json ν, SameBut sensitivePatterns true v w → DistinctKeys v →
    DistinctKeys w →
    (sanitizeValue placeholder v = sanitizeValue placeholder w ↔ SameBut sensitivePatterns false v w)
  | .null, .null, _, _, _ => iff_of_true rfl trivial
  | .bool a, .bool b, h, _, _ => iff_of_true (by rw [show a = b from h]) h
  | .num a, .num b, h, _, _ => iff_of_true (by rw [show a = b from h]) h
  | .str a, .str b, h, _, _ => iff_of_true (by rw [show a = b from h]) h
  | .arr items, .arr items', _, _, _ => by
    simp only [sanitizeValue, SameBut, Bool.false_eq_true, false_and, or_false]
    exact ⟨fun heq => (Json.arr.inj (ofJson_inj _ _ heq)), fun heq => by rw [heq]⟩
  | .obj fields, .obj fields', h, hd, hd' => by
    simp only [sanitizeValue, SameBut]
    exact sanitizeEntries_eq_iff fields fields' h hd.1 hd'.1 hd.2 hd'.2

theorem sanitizeEntries_eq_iff : ∀ fields fields' : List (String × Json ν),
    SameButFields sensitivePatterns true fields fields' → (fields.map Prod.fst).Nodup →
    (fields'.map Prod.fst).Nodup → DistinctFields fields → DistinctFields fields' →
    (assignedTo (sanitizeEntries placeholder fields) = assignedTo (sanitizeEntries placeholder fields') ↔
      SameButFields sensitivePatterns false fields fields')
  | [], [], _, _, _, _, _ => iff_of_true rfl trivial
  | (k, v) :: fields, (l, w) :: fields', h, hn, hn', hd, hd' => by
    obtain ⟨rfl, hvalue, hrest⟩ := h
    obtain ⟨hk, hn⟩ := List.nodup_cons.mp hn
    obtain ⟨hk', hn'⟩ := List.nodup_cons.mp hn'
    have ih := sanitizeEntries_eq_iff fields fields' hrest hn hn' hd.2 hd'.2
    simp only [sanitizeEntries, SameButFields, true_and]
    rw [← ih]
    constructor
    · intro heq
      have hproto : k = "__proto__" → (∀ f ∈ sanitizeEntries placeholder fields, f.1 ≠ "__proto__") ∧
          ∀ f ∈ sanitizeEntries placeholder fields', f.1 ≠ "__proto__" := by
        rintro rfl
        exact ⟨ne_of_sanitizeEntries placeholder hk, ne_of_sanitizeEntries placeholder hk'⟩
      obtain ⟨hassigned, hrest⟩ := assignedTo_cons_inj hproto heq
      refine ⟨?_, hrest⟩
      by_cases hs : sensitivePatterns k = true
      · exact .inl hs
      · have hvalue := hvalue.resolve_left hs
        rw [if_neg hs, if_neg hs] at hassigned
        refine .inr ?_
        rcases hassigned with heq | ⟨hv, -⟩
        · exact (sanitizeValue_eq_iff v w hvalue hd.1 hd'.1).mp heq
        · exact sameBut_of_not_isPrototype placeholder hvalue hv
    · rintro ⟨hsame, hrest⟩
      have hassigned : (if sensitivePatterns k = true then PlainValue.prim (.str placeholder)
          else sanitizeValue placeholder v) =
          if sensitivePatterns k = true then PlainValue.prim (.str placeholder) else sanitizeValue placeholder w := by
        by_cases hs : sensitivePatterns k = true
        · rw [if_pos hs, if_pos hs]
        · rw [if_neg hs, if_neg hs]
          exact (sanitizeValue_eq_iff v w (hvalue.resolve_left hs) hd.1 hd'.1).mpr (hsame.resolve_left hs)
      obtain ⟨hp, ho⟩ := (assignedTo_eq_iff _ _).mp hrest
      rw [hassigned, assignedTo_eq_iff, protoOf_cons, protoOf_cons, ownOf_cons, ownOf_cons, hp, ho]
      exact ⟨rfl, rfl⟩

end

/-- The exports of metadata that differ only under sensitive keys are the same
if and only if the metadata are the same inside arrays. -/
theorem sanitizeMetadata_eq_iff {m m' : Metadata ν}
    (h : SameBut sensitivePatterns true (.obj m.fields) (.obj m'.fields)) :
    sanitizeMetadata placeholder m.fields = sanitizeMetadata placeholder m'.fields ↔
      SameBut sensitivePatterns false (.obj m.fields) (.obj m'.fields) := by
  show assignedTo _ = assignedTo _ ↔ SameButFields _ _ _ _
  exact sanitizeEntries_eq_iff placeholder _ _ h m.distinct.1 m'.distinct.1 m.distinct.2 m'.distinct.2

end Sanitize

/-! ## The export -/

/-- What `toRedactedJSON` gives. -/
structure RedactedExport (ν : Type) where
  warnings : List (PayrollValidationIssue (PlainValue ν))
  errors : List (PayrollValidationIssue (PlainValue ν))
  summary : CollectorSummary

/-- `sanitizeWarning` and `sanitizeError`. -/
def sanitizeIssue (options : CollectorExportOptions) (w : PayrollValidationIssue (Metadata ν)) :
    PayrollValidationIssue (PlainValue ν) :=
  if options.redactSensitiveData.getD true then
    { w with
      recipient := (w.recipient.filter fun address => !address.isEmpty).map maskAddress
      metadata := w.metadata.map fun m =>
        sanitizeMetadata (options.redactionPlaceholder.getD (codeUnits "[redacted]")) m.fields }
  else { w with metadata := w.metadata.map fun m => ofJson (.obj m.fields) }

def countByCode {μ : Type} (issues : List (PayrollValidationIssue μ)) : List (String × Nat) :=
  issues.foldl (fun counts w => setKey w.code ((counts.lookup w.code).getD 0 + 1) counts) []

namespace PayrollValidationWarningCollector

variable (c : PayrollValidationWarningCollector ν)

def getSummary : CollectorSummary where
  totalWarnings := c.warnings.length
  totalErrors := c.errors.length
  canProceed := c.errors.length == 0
  warningCountByCode := countByCode c.warnings
  errorCountByCode := countByCode c.errors

def toRedactedJSON (options : CollectorExportOptions) : RedactedExport ν where
  warnings := c.warnings.map (sanitizeIssue options)
  errors := c.errors.map (sanitizeIssue options)
  summary := c.getSummary

end PayrollValidationWarningCollector

end ZkPayroll.Validation
