import Mathlib.Algebra.Order.Ring.Int
import ZkPayroll.Eligibility.Rules
import ZkPayroll.Framework.Grouping

/-!
# Evaluation of a batch

`evaluateBatch` of `eligibility/EmployeeEligibilityEvaluator.ts`. Custom rules
are functions of a record and its context; an evaluation without a contract
takes no notice of the promises that they return.

An evaluation splits its batch, in order, into eligible and ineligible records
(`Partitioned`). A record is compared with all that come before it, eligible or
not, so the eligible ones have distinct identifiers and recipients, and the
first record with an identifier, or with a recipient, is not ineligible for
being a duplicate (`evaluateBatch_distinct`).
-/

namespace ZkPayroll.Eligibility

open Framework ZkPayroll.Core

variable {ν : Type}

/-! ## Data -/

/-- What a custom rule returns, or the text of what it throws. -/
inductive RuleOutcome where
  | nothing
  | reason (r : EligibilityReason)
  | reasons (rs : List EligibilityReason)
  | promise
  | thrown (text : String)

abbrev EligibilityRuleFn (ν : Type) := EmployeeEligibilityRecord ν → EligibilityRuleContext ν → RuleOutcome

/-- The options of the constructor, and its rules with those added later. -/
structure EmployeeEligibilityEvaluator (ν : Type) where
  options : EligibilityEvaluationOptions ν
  customRules : List (EligibilityRuleFn ν)

inductive EligibilityStatus where
  | eligible
  | ineligible
  | conditional
  deriving DecidableEq

structure EmployeeEligibilityResult (ν : Type) where
  employeeId : String
  recipient : String
  isEligible : Bool
  status : EligibilityStatus
  reasons : List EligibilityReason
  primaryReasonCode : Option String
  evaluatedAt : JsNumber ν

/-- How often each code was given; a code must not name a property that every
object has. -/
abbrev ReasonCodeSummary := List (String × Nat)

structure BatchEligibilityResult (ν : Type) where
  totalRecords : Nat
  eligibleCount : Nat
  ineligibleCount : Nat
  eligibleRecords : List (EmployeeEligibilityRecord ν)
  ineligibleRecords : List (EmployeeEligibilityRecord ν × EmployeeEligibilityResult ν)
  results : List (EmployeeEligibilityResult ν)
  reasonCodeSummary : ReasonCodeSummary
  evaluatedAt : JsNumber ν

/-! ## One record -/

/-- The reasons of a custom rule. -/
def customReasons (rule : EligibilityRuleFn ν) (record : EmployeeEligibilityRecord ν)
    (context : EligibilityRuleContext ν) : List EligibilityReason :=
  match rule record context with
  | .nothing => []
  | .promise => []
  | .reason r => [r]
  | .reasons rs => rs
  | .thrown text =>
    [{ code := "CUSTOM_INELIGIBILITY_RULE"
       message := s!"Custom rule execution error: {text}"
       severity := some .error }]

def evaluateSyncRules [LE ν] [DecidableLE ν] (rt : Runtime ν) (evaluator : EmployeeEligibilityEvaluator ν)
    (record : EmployeeEligibilityRecord ν) (context : EligibilityRuleContext ν) :
    Except SdkError (List EligibilityReason) := do
  let lifecycle ← validateLifecycleDatesRule rt record context
  return validateEmployeeIdRule record ++ validateRecipientRule rt record context ++
    validateSalaryRule record context ++ validateAssetRule record context ++ validateStatusRule rt record context ++
    lifecycle ++ validateComplianceRule rt record context ++
    evaluator.customRules.flatMap fun rule => customReasons rule record context

def buildResult (record : EmployeeEligibilityRecord ν) (reasons : List EligibilityReason) (evaluatedAt : JsNumber ν) :
    EmployeeEligibilityResult ν :=
  let errorReasons := reasons.filter fun r => r.severity != some .warning
  let isEligible := errorReasons.isEmpty
  { employeeId := record.employeeId.getD ""
    recipient := record.recipient.getD ""
    isEligible := isEligible
    status :=
      if isEligible then .eligible
      else if reasons.any (fun r => r.severity == some .warning) && errorReasons.isEmpty then .conditional
      else .ineligible
    reasons := reasons
    primaryReasonCode := errorReasons.head?.map EligibilityReason.code
    evaluatedAt := evaluatedAt }

/-! ## A batch -/

def resolveReferenceTimestamp (rt : Runtime ν) : Option (TimeValue ν) → JsNumber ν
  | none => rt.dateNow
  | some (.number ms) => ms
  | some (.date time) => time

/-- The context of the record at an index. -/
def contextAt (effectiveOptions : EligibilityEvaluationOptions ν) (refTimestamp : JsNumber ν)
    (records : List (EmployeeEligibilityRecord ν)) (i : Nat) : EligibilityRuleContext ν where
  referenceTimestamp := refTimestamp
  options := effectiveOptions
  batchRecords := some records
  index := some i

section Batch

variable [LE ν] [DecidableLE ν] (rt : Runtime ν) (evaluator : EmployeeEligibilityEvaluator ν)

/-- The evaluation of one record of a batch. -/
def evaluateRecord (record : EmployeeEligibilityRecord ν) (context : EligibilityRuleContext ν) :
    Except SdkError (EmployeeEligibilityResult ν) := do
  let reasons ← evaluateSyncRules rt evaluator record context
  return buildResult record (reasons ++ validateBatchDuplicatesRule record context) context.referenceTimestamp

/-- The lists that the loop fills. -/
structure BatchLists (ν : Type) where
  results : List (EmployeeEligibilityResult ν) := []
  eligibleRecords : List (EmployeeEligibilityRecord ν) := []
  ineligibleRecords : List (EmployeeEligibilityRecord ν × EmployeeEligibilityResult ν) := []
  reasonCodeSummary : ReasonCodeSummary := []

/-- A result is put into the lists. -/
def BatchLists.push (lists : BatchLists ν) (record : EmployeeEligibilityRecord ν)
    (result : EmployeeEligibilityResult ν) : BatchLists ν where
  results := lists.results ++ [result]
  eligibleRecords := if result.isEligible then lists.eligibleRecords ++ [record] else lists.eligibleRecords
  ineligibleRecords :=
    if result.isEligible then lists.ineligibleRecords else lists.ineligibleRecords ++ [(record, result)]
  reasonCodeSummary := sumByKey EligibilityReason.code (fun _ => 1) result.reasons lists.reasonCodeSummary

/-- The loop over the records from index `i`. -/
def evaluateFrom (context : Nat → EligibilityRuleContext ν) (i : Nat) :
    List (EmployeeEligibilityRecord ν) → BatchLists ν → Except SdkError (BatchLists ν)
  | [], lists => .ok lists
  | record :: records, lists => do
    let result ← evaluateRecord rt evaluator record (context i)
    evaluateFrom context (i + 1) records (lists.push record result)

/-- The options of an evaluation. -/
def effectiveOptions (overrideOptions : Option (EligibilityEvaluationOptions ν)) : EligibilityEvaluationOptions ν :=
  match overrideOptions with
  | none => evaluator.options
  | some overrideOptions => evaluator.options.spread overrideOptions

def evaluateBatch (records : List (EmployeeEligibilityRecord ν))
    (overrideOptions : Option (EligibilityEvaluationOptions ν)) : Except SdkError (BatchEligibilityResult ν) := do
  let options := effectiveOptions evaluator overrideOptions
  let refTimestamp := resolveReferenceTimestamp rt options.referenceTimestamp.join
  let lists ← evaluateFrom rt evaluator (contextAt options refTimestamp records) 0 records {}
  return {
    totalRecords := records.length
    eligibleCount := lists.eligibleRecords.length
    ineligibleCount := lists.ineligibleRecords.length
    eligibleRecords := lists.eligibleRecords
    ineligibleRecords := lists.ineligibleRecords
    results := lists.results
    reasonCodeSummary := lists.reasonCodeSummary
    evaluatedAt := refTimestamp }

end Batch

/-- The text without the white space around it. -/
def trimmed (text : Option String) : String := trim (text.getD "")

/-- The records, in their order, are eligible or not as their results are. -/
structure Partitioned (records : List (EmployeeEligibilityRecord ν)) (result : BatchEligibilityResult ν) :
    Prop where
  evaluated : result.results.length = records.length
  eligible : result.eligibleRecords =
    ((records.zip result.results).filter fun p => p.2.isEligible).map Prod.fst
  ineligible : result.ineligibleRecords = (records.zip result.results).filter fun p => !p.2.isEligible

/-! ## Texts -/

theorem trim_ne_empty_iff {s : String} : trim s ≠ "" ↔ isBlank s = false := by
  rw [trim, isBlank, ne_eq, ← String.toList_inj, String.toList_ofList, Bool.eq_false_iff, ne_eq, List.isEmpty_iff]
  rfl

theorem sameText_of_trimmed_eq {value prior : Option String} (hgiven : givenText value ≠ none)
    (h : trimmed value = trimmed prior) : sameText value prior = true := by
  have hempty : ∀ {s : String}, trim s ≠ "" → s ≠ "" := by
    rintro s hs rfl
    exact hs rfl
  cases value with
  | none => exact absurd rfl hgiven
  | some v =>
    have hv : trim v ≠ "" := by
      rw [trim_ne_empty_iff]
      rw [givenText] at hgiven
      split at hgiven
      · exact absurd rfl hgiven
      · rename_i hblank
        simpa using hblank
    cases prior with
    | none => exact absurd h hv
    | some p =>
      have hp : trim v = trim p := h
      simp [sameText, hempty hv, hempty (hp ▸ hv), hv, ← hp]

theorem trimmed_eq_of_sameText {value prior : Option String} (h : sameText value prior = true) :
    trimmed value = trimmed prior := by
  unfold sameText at h
  split at h
  · simp only [Bool.and_eq_true, beq_iff_eq] at h
    exact h.2
  · cases h

/-! ## Reasons -/

section Reasons

variable {code : EligibilityReasonCode} {field : String} {text : EmployeeEligibilityRecord ν → Option String}
  {record : EmployeeEligibilityRecord ν} {earlier : List (EmployeeEligibilityRecord ν)}

theorem duplicateReasons_eq_nil_iff : duplicateReasons code field text record earlier = [] ↔
    ∀ prior ∈ earlier, sameText (text record) (text prior) = false := by
  unfold duplicateReasons
  split
  case h_1 hnone => simpa using hnone
  case h_2 i hi =>
    refine iff_of_false (by simp) fun hall => ?_
    have hsome := congrArg Option.isSome hi
    simp only [List.findIdx?_isSome, Option.isSome_some, List.any_eq_true] at hsome
    obtain ⟨prior, hmem, hsame⟩ := hsome
    rw [hall prior hmem] at hsame
    cases hsame

theorem mem_duplicateReasons {r : EligibilityReason} (h : r ∈ duplicateReasons code field text record earlier) :
    r.code = code.name ∧ r.severity = some .error := by
  unfold duplicateReasons at h
  split at h
  · cases h
  · obtain rfl := List.mem_singleton.mp h
    exact ⟨rfl, rfl⟩

/-- The first record with its text is no duplicate. -/
theorem duplicateReasons_of_first (h : ∀ prior ∈ earlier, trimmed (text prior) ≠ trimmed (text record)) :
    duplicateReasons code field text record earlier = [] := by
  rw [duplicateReasons_eq_nil_iff]
  intro prior hmem
  rw [Bool.eq_false_iff]
  intro hsame
  exact h prior hmem (trimmed_eq_of_sameText hsame).symm

theorem isEligible_buildResult {reasons : List EligibilityReason} {evaluatedAt : JsNumber ν} :
    (buildResult record reasons evaluatedAt).isEligible = true ↔ ∀ r ∈ reasons, r.severity = some .warning := by
  simp [buildResult, List.isEmpty_iff]

end Reasons

section Batch

variable [LE ν] [DecidableLE ν] {rt : Runtime ν} {evaluator : EmployeeEligibilityEvaluator ν}

/-! ## One record of a batch -/

variable {record : EmployeeEligibilityRecord ν} {result : EmployeeEligibilityResult ν}
    {context : EligibilityRuleContext ν}

theorem evaluateRecord_eq_ok (h : evaluateRecord rt evaluator record context = .ok result) :
    ∃ own, evaluateSyncRules rt evaluator record context = .ok own ∧
      result = buildResult record (own ++ validateBatchDuplicatesRule record context) context.referenceTimestamp := by
  obtain ⟨own, hown, h⟩ := except_bind_eq_ok.mp h
  cases h
  exact ⟨own, hown, rfl⟩

/-- The rules for the identifier and for the recipient are among those of a
record. -/
theorem mem_evaluateSyncRules {own : List EligibilityReason}
    (h : evaluateSyncRules rt evaluator record context = .ok own)
    {r : EligibilityReason} (hr : r ∈ validateEmployeeIdRule record ++ validateRecipientRule rt record context) :
    r ∈ own := by
  obtain ⟨lifecycle, -, h⟩ := except_bind_eq_ok.mp h
  cases h
  simp only [List.mem_append] at hr ⊢
  rcases hr with hr | hr <;> simp [hr]

/-- An eligible record has an identifier and a recipient, and the rule for
duplicates has nothing against it. -/
theorem eligible_texts (h : evaluateRecord rt evaluator record context = .ok result)
    (helig : result.isEligible = true) :
    givenText record.employeeId ≠ none ∧ givenText record.recipient ≠ none ∧
      ∀ r ∈ validateBatchDuplicatesRule record context, r.severity = some .warning := by
  obtain ⟨own, hown, rfl⟩ := evaluateRecord_eq_ok h
  have hall := isEligible_buildResult.mp helig
  have hwarning : ∀ r ∈ validateEmployeeIdRule record ++ validateRecipientRule rt record context,
      r.severity = some .warning :=
    fun r hr => hall r (List.mem_append_left _ (mem_evaluateSyncRules hown hr))
  refine ⟨fun hnone => ?_, fun hnone => ?_, fun r hr => hall r (List.mem_append_right _ hr)⟩
  · have herror := hwarning (reasonOf .MISSING_EMPLOYEE_ID "employeeId") (by simp [validateEmployeeIdRule, hnone])
    cases herror
  · have herror := hwarning (reasonOf .MISSING_RECIPIENT_ADDRESS "recipient")
      (by simp [validateRecipientRule, hnone])
    cases herror

variable {records : List (EmployeeEligibilityRecord ν)}

/-- The eligible record at an index shares its identifier and its recipient
with no earlier record. -/
theorem distinct_of_eligible {options : EligibilityEvaluationOptions ν} {refTimestamp : JsNumber ν}
    {i : Nat}
    (hdup : options.checkDuplicates.join ≠ some false)
    (h : evaluateRecord rt evaluator record (contextAt options refTimestamp records i) = .ok result)
    (helig : result.isEligible = true) {prior : EmployeeEligibilityRecord ν} (hprior : prior ∈ records.take i) :
    trimmed prior.employeeId ≠ trimmed record.employeeId ∧ trimmed prior.recipient ≠ trimmed record.recipient := by
  obtain ⟨hid, hrecipient, hdups⟩ := eligible_texts h helig
  simp only [validateBatchDuplicatesRule, contextAt, hdup, if_false] at hdups
  -- every reason of the rule is an error, so it gives none
  have hnone : ∀ {code field} {text : EmployeeEligibilityRecord ν → Option String},
      (∀ r ∈ duplicateReasons code field text record (records.take i), r.severity = some .warning) →
      givenText (text record) ≠ none → trimmed (text prior) ≠ trimmed (text record) := by
    intro code field text hwarning hgiven heq
    have hnil : duplicateReasons code field text record (records.take i) = [] := by
      rw [List.eq_nil_iff_forall_not_mem]
      intro r hr
      have herror := (mem_duplicateReasons hr).2
      rw [hwarning r hr] at herror
      cases herror
    have hdistinct := duplicateReasons_eq_nil_iff.mp hnil prior hprior
    rw [sameText_of_trimmed_eq hgiven heq.symm] at hdistinct
    cases hdistinct
  exact ⟨hnone (fun r hr => hdups r (List.mem_append_left _ hr)) hid,
    hnone (fun r hr => hdups r (List.mem_append_right _ hr)) hrecipient⟩

/-! ## The loop -/

/-- What the loop adds to the lists for the records that are left. -/
structure Added (context : Nat → EligibilityRuleContext ν) (i : Nat) (rt : Runtime ν)
    (evaluator : EmployeeEligibilityEvaluator ν) (records : List (EmployeeEligibilityRecord ν))
    (before after : BatchLists ν) (results : List (EmployeeEligibilityResult ν)) : Prop where
  length : results.length = records.length
  evaluated : ∀ k record result, records[k]? = some record → results[k]? = some result →
    evaluateRecord rt evaluator record (context (i + k)) = .ok result
  pushed : after.results = before.results ++ results
  eligible : after.eligibleRecords =
    before.eligibleRecords ++ ((records.zip results).filter fun p => p.2.isEligible).map Prod.fst
  ineligible : after.ineligibleRecords =
    before.ineligibleRecords ++ (records.zip results).filter fun p => !p.2.isEligible

theorem added_evaluateFrom {context : Nat → EligibilityRuleContext ν}
    {i : Nat} {before after : BatchLists ν} (h : evaluateFrom rt evaluator context i records before = .ok after) :
    ∃ results, Added context i rt evaluator records before after results := by
  induction records generalizing i before with
  | nil =>
    cases h
    exact ⟨[], rfl, by simp, by simp, by simp, by simp⟩
  | cons record records ih =>
    obtain ⟨result, hresult, h⟩ := except_bind_eq_ok.mp h
    obtain ⟨results, hadded⟩ := ih h
    refine ⟨result :: results, ?_, ?_, ?_, ?_, ?_⟩
    · rw [List.length_cons, List.length_cons, hadded.length]
    · intro k record' result' hrecord' hresult'
      cases k with
      | zero =>
        cases hrecord'
        cases hresult'
        exact hresult
      | succ k =>
        rw [show i + (k + 1) = i + 1 + k by omega]
        exact hadded.evaluated k record' result' hrecord' hresult'
    · rw [hadded.pushed, BatchLists.push, List.append_assoc, List.singleton_append]
    · rw [hadded.eligible, BatchLists.push, List.zip_cons_cons, List.filter_cons]
      cases result.isEligible <;> simp
    · rw [hadded.ineligible, BatchLists.push, List.zip_cons_cons, List.filter_cons]
      cases result.isEligible <;> simp

/-- A batch that is evaluated, with the results of its records. -/
theorem evaluateBatch_eq_ok {overrideOptions : Option (EligibilityEvaluationOptions ν)}
    {result : BatchEligibilityResult ν} (h : evaluateBatch rt evaluator records overrideOptions = .ok result) :
    Partitioned records result ∧
      ∀ i record r, records[i]? = some record → result.results[i]? = some r →
        evaluateRecord rt evaluator record (contextAt (effectiveOptions evaluator overrideOptions)
          result.evaluatedAt records i) = .ok r := by
  obtain ⟨lists, hlists, h⟩ := except_bind_eq_ok.mp h
  cases h
  obtain ⟨results, hadded⟩ := added_evaluateFrom hlists
  have hresults : lists.results = results := hadded.pushed
  refine ⟨⟨?_, ?_, ?_⟩, ?_⟩
  · rw [hresults, hadded.length]
  · rw [hresults]
    exact hadded.eligible
  · rw [hresults]
    exact hadded.ineligible
  · intro i record r hrecord hr
    rw [hresults] at hr
    have heval := hadded.evaluated i record r hrecord hr
    rw [Nat.zero_add] at heval
    exact heval

omit [LE ν] [DecidableLE ν] in
/-- A text that no two eligible records of a batch share. -/
theorem nodup_eligible {result : BatchEligibilityResult ν}
    (hp : Partitioned records result) (text : EmployeeEligibilityRecord ν → String)
    (hdistinct : ∀ j record r, records[j]? = some record → result.results[j]? = some r → r.isEligible = true →
      ∀ prior ∈ records.take j, text prior ≠ text record) :
    (result.eligibleRecords.map text).Nodup := by
  have hpairwise : (records.zip result.results).Pairwise fun p q => q.2.isEligible = true → text p.1 ≠ text q.1 := by
    rw [List.pairwise_iff_getElem]
    intro i j hi hj hij helig
    rw [List.getElem_zip] at helig ⊢
    rw [List.getElem_zip]
    have hj' : j < records.length ∧ j < result.results.length := by simpa [List.length_zip] using hj
    have hi' : i < records.length := by omega
    apply hdistinct j records[j] result.results[j] (List.getElem?_eq_getElem _) (List.getElem?_eq_getElem _) helig
    rw [List.mem_take_iff_getElem]
    exact ⟨i, by omega, rfl⟩
  rw [hp.eligible, List.map_map, List.Nodup, List.pairwise_map]
  refine List.Pairwise.imp_of_mem ?_ (hpairwise.filter _)
  intro p q _ hq hne
  exact hne (List.mem_filter.mp hq).2

/-- The records that an evaluation finds eligible have distinct identifiers and
distinct recipients; eligible and ineligible records are the records of the
batch, each in its order; and the first record with an identifier, or with a
recipient, is not faulted for sharing that. -/
theorem evaluateBatch_distinct {records : List (EmployeeEligibilityRecord ν)}
    {overrideOptions : Option (EligibilityEvaluationOptions ν)} {result : BatchEligibilityResult ν}
    (hdup : (effectiveOptions evaluator overrideOptions).checkDuplicates.join ≠ some false)
    (h : evaluateBatch rt evaluator records overrideOptions = .ok result) :
    (result.eligibleRecords.map fun r => trimmed r.employeeId).Nodup ∧
      (result.eligibleRecords.map fun r => trimmed r.recipient).Nodup ∧
      Partitioned records result ∧
      ∀ i record r, records[i]? = some record → result.results[i]? = some r →
        ∃ own duplicates, r.reasons = own ++ duplicates ∧
          evaluateSyncRules rt evaluator record (contextAt (effectiveOptions evaluator overrideOptions)
            result.evaluatedAt records i) = .ok own ∧
          ((∀ prior ∈ records.take i, trimmed prior.employeeId ≠ trimmed record.employeeId) →
            ∀ d ∈ duplicates, d.code ≠ "DUPLICATE_EMPLOYEE_ID") ∧
          ((∀ prior ∈ records.take i, trimmed prior.recipient ≠ trimmed record.recipient) →
            ∀ d ∈ duplicates, d.code ≠ "DUPLICATE_RECIPIENT_ADDRESS") ∧
          ∀ d ∈ duplicates, d.code = "DUPLICATE_EMPLOYEE_ID" ∨ d.code = "DUPLICATE_RECIPIENT_ADDRESS" := by
  obtain ⟨hp, heval⟩ := evaluateBatch_eq_ok h
  refine ⟨nodup_eligible hp _ ?_, nodup_eligible hp _ ?_, hp, ?_⟩
  · intro j record r hrecord hr helig prior hprior
    exact (distinct_of_eligible hdup (heval j record r hrecord hr) helig hprior).1
  · intro j record r hrecord hr helig prior hprior
    exact (distinct_of_eligible hdup (heval j record r hrecord hr) helig hprior).2
  · intro i record r hrecord hr
    obtain ⟨own, hown, rfl⟩ := evaluateRecord_eq_ok (heval i record r hrecord hr)
    refine ⟨own, _, rfl, hown, ?_, ?_, ?_⟩ <;>
      simp only [validateBatchDuplicatesRule, contextAt, hdup, if_false]
    · intro hfirst d hd
      rw [duplicateReasons_of_first hfirst, List.nil_append] at hd
      rw [(mem_duplicateReasons hd).1]
      decide
    · intro hfirst d hd
      rw [duplicateReasons_of_first hfirst, List.append_nil] at hd
      rw [(mem_duplicateReasons hd).1]
      decide
    · intro d hd
      rcases List.mem_append.mp hd with hd | hd
      · exact .inl (mem_duplicateReasons hd).1
      · exact .inr (mem_duplicateReasons hd).1

end Batch

/-! A batch with a duplicate. -/

/-- A platform that has no upper case, no dates and no addresses. -/
def plainRuntime : Runtime Int where
  dateNow := .finite 0
  parseDate _ := .nan
  toISOString _ := none
  toLowerCase s := s
  isValidEd25519PublicKey _ := some false
  isValidContract _ := some false

def anyAddress : EmployeeEligibilityEvaluator Int where
  options := { requireValidStellarAddress := some (some false) }
  customRules := []

def payTo (employeeId recipient : String) : EmployeeEligibilityRecord Int where
  employeeId := some employeeId
  recipient := some recipient
  salary := some 100
  asset := some "native"

theorem alice_paid_once : ∃ result,
    evaluateBatch plainRuntime anyAddress [payTo "alice" "GA", payTo "bob" "GB", payTo " alice " "GC"] none =
      .ok result ∧
    result.eligibleRecords.length = 2 ∧
    (result.eligibleRecords.map fun r => trimmed r.employeeId).Nodup :=
  ⟨_, rfl, by decide +kernel, (evaluateBatch_distinct (by decide) (show evaluateBatch plainRuntime anyAddress
    [payTo "alice" "GA", payTo "bob" "GB", payTo " alice " "GC"] none = .ok _ from rfl)).1⟩

end ZkPayroll.Eligibility
