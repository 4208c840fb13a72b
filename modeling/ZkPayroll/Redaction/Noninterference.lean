import ZkPayroll.Audit.AuditReceiptSerializer
import ZkPayroll.Audit.AuditRedactionHelper
import ZkPayroll.Validation.WarningCollector

/-!
# What redacted exports show

Three redactors, and two metadata that differ only in what is stored under the
keys that a redactor takes for sensitive, at any depth and inside arrays: each
redactor should give the same (`Hides`). The redactor of audit packages does. The
export of the warning collector does if the metadata are the same inside arrays,
the text of an audit receipt if they are the same below their own keys, and only
then (`hidden_from_exports_iff`).
-/

namespace ZkPayroll.Redaction

open Framework ZkPayroll.Core Validation Audit

variable {ν : Type}

/-- A collector with one issue that has metadata. -/
structure IssueContext (ν : Type) where
  before : List (PayrollValidationIssue (Validation.Metadata ν))
  issue : PayrollValidationIssue (Validation.Metadata ν)
  after : List (PayrollValidationIssue (Validation.Metadata ν))
  others : List (PayrollValidationIssue (Validation.Metadata ν))

namespace IssueContext

variable (ctx : IssueContext ν) (m : Validation.Metadata ν)

/-- The issues, with `m` as the metadata of one. -/
def issues : List (PayrollValidationIssue (Validation.Metadata ν)) :=
  ctx.before ++ { ctx.issue with metadata := some m } :: ctx.after

/-- The issue is a warning. -/
def withWarning : PayrollValidationWarningCollector ν where
  warnings := ctx.issues m
  errors := ctx.others

/-- The issue is an error. -/
def withError : PayrollValidationWarningCollector ν where
  warnings := ctx.others
  errors := ctx.issues m

end IssueContext

/-! ## What each redactor shows -/

/-- The export shows the metadata as they are sanitized. -/
theorem toRedactedJSON_eq_iff {options : CollectorExportOptions} (hredact : options.redactSensitiveData.getD true = true)
    (ctx : IssueContext ν) (m m' : Validation.Metadata ν) :
    (ctx.withWarning m).toRedactedJSON options = (ctx.withWarning m').toRedactedJSON options ∧
        (ctx.withError m).toRedactedJSON options = (ctx.withError m').toRedactedJSON options ↔
      sanitizeMetadata (options.redactionPlaceholder.getD (codeUnits "[redacted]")) m.fields =
        sanitizeMetadata (options.redactionPlaceholder.getD (codeUnits "[redacted]")) m'.fields := by
  have hissues : ∀ m : Validation.Metadata ν, (ctx.issues m).map (sanitizeIssue options) =
      ctx.before.map (sanitizeIssue options) ++
        sanitizeIssue options { ctx.issue with metadata := some m } :: ctx.after.map (sanitizeIssue options) := by
    intro m
    rw [IssueContext.issues, List.map_append, List.map_cons]
  have hissue : ∀ m : Validation.Metadata ν, (sanitizeIssue options { ctx.issue with metadata := some m }).metadata =
      some (sanitizeMetadata (options.redactionPlaceholder.getD (codeUnits "[redacted]")) m.fields) := by
    intro m
    rw [sanitizeIssue, if_pos hredact]
    rfl
  have hlength : (ctx.issues m).length = (ctx.issues m').length := by
    simp [IssueContext.issues]
  have hcounts : countByCode (ctx.issues m) = countByCode (ctx.issues m') := by
    simp [countByCode, IssueContext.issues]
  constructor
  · rintro ⟨hwarning, -⟩
    have hwarnings : (ctx.issues m).map (sanitizeIssue options) = (ctx.issues m').map (sanitizeIssue options) :=
      congrArg RedactedExport.warnings hwarning
    rw [hissues, hissues] at hwarnings
    have hsame := (List.cons.inj (List.append_cancel_left hwarnings)).1
    have hmetadata := congrArg PayrollValidationIssue.metadata hsame
    rw [hissue, hissue] at hmetadata
    exact Option.some.inj hmetadata
  · intro heq
    have hsame : sanitizeIssue options { ctx.issue with metadata := some m } =
        sanitizeIssue options { ctx.issue with metadata := some m' } := by
      rw [sanitizeIssue, if_pos hredact, sanitizeIssue, if_pos hredact]
      simp only [Option.map_some, heq]
    have hmap : (ctx.issues m).map (sanitizeIssue options) = (ctx.issues m').map (sanitizeIssue options) := by
      rw [hissues, hissues, hsame]
    constructor
    · simp only [PayrollValidationWarningCollector.toRedactedJSON, PayrollValidationWarningCollector.getSummary,
        IssueContext.withWarning, hmap, hlength, hcounts]
    · simp only [PayrollValidationWarningCollector.toRedactedJSON, PayrollValidationWarningCollector.getSummary,
        IssueContext.withError, hmap, hlength, hcounts]

section Hides

variable [NumberFormat ν] (m m' : Validation.Metadata ν)

/-- The export of a collector, whatever else is in it. -/
def HiddenInExport : Prop :=
  SameBut sensitivePatterns true (.obj m.fields) (.obj m'.fields) →
    ∀ (options : CollectorExportOptions) (ctx : IssueContext ν), options.redactSensitiveData.getD true = true →
      (ctx.withWarning m).toRedactedJSON options = (ctx.withWarning m').toRedactedJSON options ∧
        (ctx.withError m).toRedactedJSON options = (ctx.withError m').toRedactedJSON options

/-- The text of a receipt, whatever else it says. -/
def HiddenInText : Prop :=
  SameBut namesPII true (.obj m.fields) (.obj m'.fields) →
    ∀ (receipt : AuditReceipt ν) (pretty : Bool),
      serializeAuditReceipt (receipt.withMetadata m.fields m.distinct) { redactPII := true, pretty } =
        serializeAuditReceipt (receipt.withMetadata m'.fields m'.distinct) { redactPII := true, pretty }

/-- The package, with any sensitive keys. -/
def HiddenInPackage : Prop :=
  ∀ r : AuditPackageRedactor, r.recursive = true → SameBut r.isSensitive true (.obj m.fields) (.obj m'.fields) →
    r.redact (.obj m.fields) = r.redact (.obj m'.fields)

/-- Each redactor gives the same for the two metadata, if they differ only in
what it takes for sensitive. -/
structure Hides : Prop where
  exported : HiddenInExport m m'
  text : HiddenInText m m'
  package : HiddenInPackage m m'

end Hides

/-- A receipt without metadata. -/
def plainReceipt (recipientCount : ν) : AuditReceipt ν where
  fields :=
    [("receiptId", .str "r1"), ("payrollId", .str "p1"), ("timestamp", .str "2026-01-01"), ("totalAmount", .str "1"),
      ("currency", .str "USDC"), ("recipientCount", .num recipientCount), ("complianceHash", .str "h"),
      ("redacted", .bool false)]
  distinct := ⟨by simp, trivial, trivial, trivial, trivial, trivial, trivial, trivial, trivial, trivial⟩
  metadata := by
    intro v hv
    exact absurd hv (by simp [lookup_cons_eq])

theorem validateAuditReceiptShape_plainReceipt (recipientCount : ν) :
    validateAuditReceiptShape (plainReceipt recipientCount).fields = true := by
  simp [validateAuditReceiptShape, plainReceipt, lookup_cons_eq, isString, isNumber, isBoolean]

/-- A receipt of another shape is refused with any metadata. -/
theorem serializeAuditReceipt_refused [NumberFormat ν] {receipt : AuditReceipt ν}
    (hshape : validateAuditReceiptShape receipt.fields = false) (options : AuditReceiptSerializeOptions)
    (m : Validation.Metadata ν) :
    serializeAuditReceipt (receipt.withMetadata m.fields m.distinct) options =
      .error (genericError "Invalid AuditReceipt shape provided for serialization") := by
  rw [serializeAuditReceipt, AuditReceipt.withMetadata, validateAuditReceiptShape_setKey, hshape]
  rfl

/-! ## Noninterference -/

/-- The redactors hide what is sensitive if and only if the metadata are the
same inside arrays, for the export, and the same below their own keys, for the
text. -/
theorem hidden_from_exports_iff [NumberFormat ν] [Inhabited ν] (m m' : Validation.Metadata ν) :
    Hides m m' ↔
      (SameBut sensitivePatterns true (.obj m.fields) (.obj m'.fields) →
          SameBut sensitivePatterns false (.obj m.fields) (.obj m'.fields)) ∧
        (SameBut namesPII true (.obj m.fields) (.obj m'.fields) → SameAtTop m.fields m'.fields) := by
  constructor
  · intro h
    refine ⟨fun hsame => ?_, fun hsame => ?_⟩
    · let ctx : IssueContext ν :=
        { before := [], issue := { severity := .warning, code := "c", message := "m", timestamp := 0 }, after := [],
          others := [] }
      have heq := (toRedactedJSON_eq_iff rfl ctx m m').mp (h.exported hsame {} ctx rfl)
      exact (sanitizeMetadata_eq_iff _ hsame).mp heq
    · have htext := h.text hsame (plainReceipt default) false
      exact (serializeAuditReceipt_eq_iff (validateAuditReceiptShape_plainReceipt default) false m.distinct m'.distinct
        hsame).mp htext
  · rintro ⟨hexported, htext⟩
    refine ⟨fun hsame options ctx hredact => ?_, fun hsame receipt pretty => ?_, fun r hr hsame => ?_⟩
    · apply (toRedactedJSON_eq_iff hredact ctx m m').mpr
      exact (sanitizeMetadata_eq_iff _ hsame).mpr (hexported hsame)
    · cases hshape : validateAuditReceiptShape receipt.fields with
      | false => rw [serializeAuditReceipt_refused hshape, serializeAuditReceipt_refused hshape]
      | true => exact (serializeAuditReceipt_eq_iff hshape pretty m.distinct m'.distinct hsame).mpr (htext hsame)
    · exact AuditPackageRedactor.redact_congr hr hsame

/-- A salary inside an array is exported, and an email inside an object is
written. -/
theorem nested_values_shown :
    ¬ (∀ m m' : Validation.Metadata Int, Hides m m') ∧ ¬ (∀ m m' : Validation.Metadata Int, HiddenInExport m m') ∧
      ¬ ∀ m m' : Validation.Metadata Int, HiddenInText m m' := by
  have hexported : ¬ ∀ m m' : Validation.Metadata Int, HiddenInExport m m' := by
    intro h
    let recipients (salary : Int) : Validation.Metadata Int :=
      { fields := [("recipients", .arr [.obj [("salary", .num salary)]])]
        distinct := by simp [DistinctKeys, DistinctItems, DistinctFields] }
    let ctx : IssueContext Int :=
      { before := [], issue := { severity := .warning, code := "c", message := "m", timestamp := 0 }, after := [],
        others := [] }
    have hsame : SameBut sensitivePatterns true (.obj (recipients 1).fields) (.obj (recipients 2).fields) :=
      ⟨rfl, .inr (.inr ⟨rfl, ⟨rfl, .inl (by decide), trivial⟩, trivial⟩), trivial⟩
    have heq := (toRedactedJSON_eq_iff rfl ctx (recipients 1) (recipients 2)).mp (h _ _ hsame {} ctx rfl)
    obtain ⟨-, hvalue, -⟩ := (sanitizeMetadata_eq_iff _ hsame).mp heq
    rcases hvalue with hkey | hitems | ⟨hfalse, -⟩
    · exact absurd hkey (by decide)
    · simp at hitems
    · cases hfalse
  have htext : ¬ ∀ m m' : Validation.Metadata Int, HiddenInText m m' := by
    intro h
    let contact (email : String) : Validation.Metadata Int :=
      { fields := [("contact", .obj [("email", .str email)])]
        distinct := by simp [DistinctKeys, DistinctFields] }
    have hsame : SameBut namesPII true (.obj (contact "a").fields) (.obj (contact "b").fields) :=
      ⟨rfl, .inr ⟨rfl, .inl (by decide), trivial⟩, trivial⟩
    have hat := (serializeAuditReceipt_eq_iff (validateAuditReceiptShape_plainReceipt 1) false (contact "a").distinct
      (contact "b").distinct hsame).mp (h _ _ hsame (plainReceipt 1) false)
    obtain ⟨-, hvalue, -⟩ := hat
    rcases hvalue with hkey | hproto | hfields
    · exact absurd hkey (by decide)
    · exact absurd hproto (by decide)
    · simp at hfields
  exact ⟨fun h => hexported fun m m' => (h m m').exported, hexported, htext⟩

end ZkPayroll.Redaction
