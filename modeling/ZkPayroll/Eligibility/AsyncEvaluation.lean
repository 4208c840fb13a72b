import ZkPayroll.Eligibility.EmployeeEligibilityEvaluator

/-!
# Evaluation with and without waiting

`evaluate`, `evaluateAsync` and `evaluateBatchAsync` of
`eligibility/EmployeeEligibilityEvaluator.ts`, and the rule of
`eligibility/rules.ts` that asks the registry contract. The asynchronous
methods make the pass over the custom rules that the synchronous ones make, and
then run each rule again:

* `evaluateRecordAsync_eq`: without a registry, and for rules that neither throw
  nor return a promise, the reasons of the custom rules come twice;
* `async_eq_sync_iff`: the methods agree just where no custom rule has a reason,
  or where the pass that they share throws.
-/

namespace ZkPayroll.Eligibility

open Framework ZkPayroll.Core

variable {ν : Type}

/-! ## The registry -/

/-- The codes of the asynchronous rules. -/
inductive RegistryReasonCode where
  | REGISTRY_RECORD_NOT_FOUND
  | REGISTRY_RECORD_DEACTIVATED
  | REGISTRY_SALARY_MISMATCH
  | REGISTRY_TOKEN_MISMATCH
  deriving DecidableEq

def RegistryReasonCode.name : RegistryReasonCode → String
  | .REGISTRY_RECORD_NOT_FOUND => "REGISTRY_RECORD_NOT_FOUND"
  | .REGISTRY_RECORD_DEACTIVATED => "REGISTRY_RECORD_DEACTIVATED"
  | .REGISTRY_SALARY_MISMATCH => "REGISTRY_SALARY_MISMATCH"
  | .REGISTRY_TOKEN_MISMATCH => "REGISTRY_TOKEN_MISMATCH"

def RegistryReasonCode.description : RegistryReasonCode → String
  | .REGISTRY_RECORD_NOT_FOUND => "No registered employer-employee registry entry exists on-chain."
  | .REGISTRY_RECORD_DEACTIVATED => "The on-chain employer-employee registry entry is marked as deactivated."
  | .REGISTRY_SALARY_MISMATCH =>
    "The resolution salary does not match the registered salary in the on-chain registry."
  | .REGISTRY_TOKEN_MISMATCH =>
    "The payment token asset does not match the asset registered in the smart contract."

def RegistryReasonCode.suggestedAction : RegistryReasonCode → String
  | .REGISTRY_RECORD_NOT_FOUND => "Register the employee with the payroll smart contract before initiating payment."
  | .REGISTRY_RECORD_DEACTIVATED => "Reactivate the registry entry on-chain or register a new relationship."
  | .REGISTRY_SALARY_MISMATCH => "Update the registry salary on-chain to match the resolved payment amount."
  | .REGISTRY_TOKEN_MISMATCH => "Use the registered token address or update contract registry configuration."

structure RegistryEntry where
  active : Bool
  salary : Int
  token : String

/-- `options.onChainRegistry`, with what `client.getRegistry` settles with for
an employee: an entry, nothing, or the text of an error. -/
structure OnChainRegistry where
  getRegistry : String → Except String (Option RegistryEntry)
  verifySalaryMatch : Bool := false
  verifyTokenMatch : Bool := false

/-- A reason with the texts of its code. -/
def registryReason (code : RegistryReasonCode) (field : String) : EligibilityReason where
  code := code.name
  message := code.description
  field := some field
  severity := some .error
  action := some code.suggestedAction

def validateOnChainRegistryRule (registryConfig : OnChainRegistry) (record : EmployeeEligibilityRecord ν) :
    List EligibilityReason :=
  if record.recipient.getD "" = "" then []
  else
    match registryConfig.getRegistry (record.recipient.getD "") with
    | .error text =>
      [{ registryReason .REGISTRY_RECORD_NOT_FOUND "registry" with
          message := s!"On-chain registry query failed or record was not found: {text}" }]
    | .ok none => [registryReason .REGISTRY_RECORD_NOT_FOUND "registry"]
    | .ok (some entry) =>
      (if entry.active then [] else [registryReason .REGISTRY_RECORD_DEACTIVATED "registry.active"]) ++
      (match record.salary <|> record.amount with
        | some recSalary =>
          if registryConfig.verifySalaryMatch = true ∧ entry.salary ≠ recSalary then
            [registryReason .REGISTRY_SALARY_MISMATCH "salary"]
          else []
        | none => []) ++
      match record.asset <|> record.token with
      | some recToken =>
        if registryConfig.verifyTokenMatch = true ∧ entry.token ≠ recToken then
          [registryReason .REGISTRY_TOKEN_MISMATCH "asset"]
        else []
      | none => []

/-! ## The methods -/

section Methods

variable [LE ν] [DecidableLE ν] (rt : Runtime ν)
  /- What the promise settles with that a rule returns. -/
  (settled : EligibilityRuleFn ν → EmployeeEligibilityRecord ν → EligibilityRuleContext ν →
    Except SdkError (List EligibilityReason))
  (registry : Option OnChainRegistry) (evaluator : EmployeeEligibilityEvaluator ν)

/-- The context of a record that is evaluated alone. -/
def singleContext (effectiveOptions : EligibilityEvaluationOptions ν) : EligibilityRuleContext ν where
  referenceTimestamp := resolveReferenceTimestamp rt effectiveOptions.referenceTimestamp.join
  options := effectiveOptions

variable (record : EmployeeEligibilityRecord ν)

def evaluate
    (overrideOptions : Option (EligibilityEvaluationOptions ν)) : Except SdkError (EmployeeEligibilityResult ν) := do
  let context := singleContext rt (effectiveOptions evaluator overrideOptions)
  let reasons ← evaluateSyncRules rt evaluator record context
  return buildResult record reasons context.referenceTimestamp

omit [LE ν] [DecidableLE ν] in
/-- `await rule(record, context)`, as a list of reasons. -/
def awaitedReasons (context : EligibilityRuleContext ν)
    (rule : EligibilityRuleFn ν) : Except SdkError (List EligibilityReason) :=
  match rule record context with
  | .nothing => .ok []
  | .reason r => .ok [r]
  | .reasons rs => .ok rs
  | .promise => settled rule record context
  | .thrown text => .error (genericError text)

omit [LE ν] [DecidableLE ν] in
/-- The reasons of the registry and of the rules that are awaited, in their
order. -/
def asyncReasons (context : EligibilityRuleContext ν) :
    Except SdkError (List EligibilityReason) := do
  let onChainReasons := match registry with
    | none => []
    | some registryConfig => validateOnChainRegistryRule registryConfig record
  let ruleReasons ← evaluator.customRules.mapM (awaitedReasons settled record context)
  return onChainReasons ++ ruleReasons.flatten

def evaluateAsync
    (overrideOptions : Option (EligibilityEvaluationOptions ν)) : Except SdkError (EmployeeEligibilityResult ν) := do
  let context := singleContext rt (effectiveOptions evaluator overrideOptions)
  let reasons ← evaluateSyncRules rt evaluator record context
  let awaited ← asyncReasons settled registry evaluator record context
  return buildResult record (reasons ++ awaited) context.referenceTimestamp

/-- The evaluation of one record of a batch. -/
def evaluateRecordAsync (context : EligibilityRuleContext ν) :
    Except SdkError (EmployeeEligibilityResult ν) := do
  let reasons ← evaluateSyncRules rt evaluator record context
  let duplicateReasons := validateBatchDuplicatesRule record context
  let awaited ← asyncReasons settled registry evaluator record context
  return buildResult record (reasons ++ duplicateReasons ++ awaited) context.referenceTimestamp

/-- The loop over the records from index `i`. -/
def evaluateFromAsync (context : Nat → EligibilityRuleContext ν) (i : Nat) :
    List (EmployeeEligibilityRecord ν) → BatchLists ν → Except SdkError (BatchLists ν)
  | [], lists => .ok lists
  | record :: records, lists => do
    let result ← evaluateRecordAsync rt settled registry evaluator record (context i)
    evaluateFromAsync context (i + 1) records (lists.push record result)

def evaluateBatchAsync (records : List (EmployeeEligibilityRecord ν))
    (overrideOptions : Option (EligibilityEvaluationOptions ν)) : Except SdkError (BatchEligibilityResult ν) := do
  let options := effectiveOptions evaluator overrideOptions
  let refTimestamp := resolveReferenceTimestamp rt options.referenceTimestamp.join
  let lists ← evaluateFromAsync rt settled registry evaluator (contextAt options refTimestamp records) 0 records {}
  return {
    totalRecords := records.length
    eligibleCount := lists.eligibleRecords.length
    ineligibleCount := lists.ineligibleRecords.length
    eligibleRecords := lists.eligibleRecords
    ineligibleRecords := lists.ineligibleRecords
    results := lists.results
    reasonCodeSummary := lists.reasonCodeSummary
    evaluatedAt := refTimestamp }

end Methods

/-! ## Rules that neither wait nor throw -/

/-- The rule returns its reasons itself. -/
def Synchronous (rule : EligibilityRuleFn ν) : Prop :=
  ∀ record context, rule record context ≠ .promise ∧ ∀ text, rule record context ≠ .thrown text

/-- The reasons of the custom rules for a record. -/
def ruleReasons (evaluator : EmployeeEligibilityEvaluator ν) (record : EmployeeEligibilityRecord ν)
    (context : EligibilityRuleContext ν) : List EligibilityReason :=
  evaluator.customRules.flatMap fun rule => customReasons rule record context

variable {settled : EligibilityRuleFn ν → EmployeeEligibilityRecord ν → EligibilityRuleContext ν →
  Except SdkError (List EligibilityReason)} {evaluator : EmployeeEligibilityEvaluator ν}
  {record : EmployeeEligibilityRecord ν} {context : EligibilityRuleContext ν}

theorem awaitedReasons_eq {rule : EligibilityRuleFn ν} (h : Synchronous rule) :
    awaitedReasons settled record context rule = .ok (customReasons rule record context) := by
  obtain ⟨hpromise, hthrown⟩ := h record context
  unfold awaitedReasons customReasons
  cases hrule : rule record context with
  | nothing => rfl
  | reason r => rfl
  | reasons rs => rfl
  | promise => exact absurd hrule hpromise
  | thrown text => exact absurd hrule (hthrown text)

theorem asyncReasons_eq (hsync : ∀ rule ∈ evaluator.customRules, Synchronous rule) :
    asyncReasons settled none evaluator record context = .ok (ruleReasons evaluator record context) := by
  have hmap : ∀ rules : List (EligibilityRuleFn ν), (∀ rule ∈ rules, Synchronous rule) →
      rules.mapM (awaitedReasons settled record context) =
        .ok (rules.map fun rule => customReasons rule record context) := by
    intro rules
    induction rules with
    | nil => exact fun _ => rfl
    | cons rule rules ih =>
      intro h
      rw [List.forall_mem_cons] at h
      rw [mapM_cons_ok (awaitedReasons_eq h.1), ih h.2]
      rfl
  unfold asyncReasons
  rw [hmap _ hsync]
  show Except.ok ([] ++ _) = _
  rw [List.nil_append, ruleReasons, List.flatMap_def]

section Agreement

variable [LE ν] [DecidableLE ν] {rt : Runtime ν}

/-- The pass over the rules ends with the reasons of the custom rules. -/
theorem evaluateSyncRules_eq : evaluateSyncRules rt evaluator record context =
    (validateLifecycleDatesRule rt record context).map fun lifecycle =>
      validateEmployeeIdRule record ++ validateRecipientRule rt record context ++ validateSalaryRule record context ++
        validateAssetRule record context ++ validateStatusRule rt record context ++ lifecycle ++
        validateComplianceRule rt record context ++ ruleReasons evaluator record context := by
  unfold evaluateSyncRules ruleReasons
  cases validateLifecycleDatesRule rt record context <;> rfl

variable (evaluator) in
theorem thrown_evaluateSyncRules : thrown (evaluateSyncRules rt evaluator record context) =
    thrown (validateLifecycleDatesRule rt record context) := by
  rw [evaluateSyncRules_eq]
  cases validateLifecycleDatesRule rt record context <;> rfl

omit [LE ν] [DecidableLE ν] in
/-- More reasons at the end make another result. -/
theorem buildResult_append_eq_iff {reasons more : List EligibilityReason} {evaluatedAt : JsNumber ν} :
    buildResult record (reasons ++ more) evaluatedAt = buildResult record reasons evaluatedAt ↔ more = [] := by
  constructor
  · intro h
    have hreasons : reasons ++ more = reasons := congrArg EmployeeEligibilityResult.reasons h
    simpa using hreasons
  · rintro rfl
    rw [List.append_nil]

omit [LE ν] [DecidableLE ν] in
/-- The two evaluations that share a pass agree where it throws, or where the
custom rules have no reason. -/
theorem bind_append_eq_iff (record : EmployeeEligibilityRecord ν) (x : Except SdkError (List EligibilityReason))
    (own more : List EligibilityReason)
    (evaluatedAt : JsNumber ν) :
    ((x >>= fun reasons => pure (buildResult record (reasons ++ own ++ more) evaluatedAt)) :
        Except SdkError (EmployeeEligibilityResult ν)) =
      (x >>= fun reasons => pure (buildResult record (reasons ++ own) evaluatedAt)) ↔
      thrown x ≠ none ∨ more = [] := by
  cases x with
  | error e => simp [thrown, bind, Except.bind]
  | ok reasons =>
    simp only [bind, Except.bind, pure, Except.pure, Except.ok.injEq, buildResult_append_eq_iff, thrown, ne_eq,
      not_true_eq_false, false_or]

theorem evaluateAsync_eq_iff (hsync : ∀ rule ∈ evaluator.customRules, Synchronous rule)
    (overrideOptions : Option (EligibilityEvaluationOptions ν)) :
    evaluateAsync rt settled none evaluator record overrideOptions = evaluate rt evaluator record overrideOptions ↔
      thrown (validateLifecycleDatesRule rt record
        (singleContext rt (effectiveOptions evaluator overrideOptions))) ≠ none ∨
      ruleReasons evaluator record (singleContext rt (effectiveOptions evaluator overrideOptions)) = [] := by
  rw [← thrown_evaluateSyncRules evaluator]
  generalize hcontext : singleContext rt (effectiveOptions evaluator overrideOptions) = context
  have h := bind_append_eq_iff record (evaluateSyncRules rt evaluator record context) []
    (ruleReasons evaluator record context) context.referenceTimestamp
  simp only [List.append_nil] at h
  rw [← h]
  simp only [evaluateAsync, evaluate, hcontext, asyncReasons_eq hsync]
  rfl

/-- What the asynchronous evaluation of a record of a batch adds. -/
theorem evaluateRecordAsync_eq (hsync : ∀ rule ∈ evaluator.customRules, Synchronous rule) :
    evaluateRecordAsync rt settled none evaluator record context =
      evaluateSyncRules rt evaluator record context >>= fun reasons =>
        pure (buildResult record (reasons ++ validateBatchDuplicatesRule record context ++
          ruleReasons evaluator record context) context.referenceTimestamp) := by
  simp only [evaluateRecordAsync, asyncReasons_eq hsync]
  rfl

theorem thrown_evaluateRecord : thrown (evaluateRecord rt evaluator record context) =
    thrown (validateLifecycleDatesRule rt record context) := by
  rw [← thrown_evaluateSyncRules evaluator, evaluateRecord]
  cases evaluateSyncRules rt evaluator record context <;> rfl

theorem thrown_evaluateRecordAsync (hsync : ∀ rule ∈ evaluator.customRules, Synchronous rule) :
    thrown (evaluateRecordAsync rt settled none evaluator record context) =
      thrown (validateLifecycleDatesRule rt record context) := by
  rw [← thrown_evaluateSyncRules evaluator, evaluateRecordAsync_eq hsync]
  cases evaluateSyncRules rt evaluator record context <;> rfl

theorem evaluateRecordAsync_eq_iff (hsync : ∀ rule ∈ evaluator.customRules, Synchronous rule) :
    evaluateRecordAsync rt settled none evaluator record context = evaluateRecord rt evaluator record context ↔
      thrown (validateLifecycleDatesRule rt record context) ≠ none ∨ ruleReasons evaluator record context = [] := by
  rw [← thrown_evaluateSyncRules evaluator, evaluateRecordAsync_eq hsync, evaluateRecord,
    bind_append_eq_iff]

/-! ## The loops -/

/-- Results are put into the lists, one after the other. -/
def BatchLists.pushAll (lists : BatchLists ν) (pairs : List (EmployeeEligibilityRecord ν × EmployeeEligibilityResult ν)) :
    BatchLists ν :=
  pairs.foldl (fun lists p => lists.push p.1 p.2) lists

omit [LE ν] [DecidableLE ν] in
theorem results_pushAll (lists : BatchLists ν)
    (pairs : List (EmployeeEligibilityRecord ν × EmployeeEligibilityResult ν)) :
    (lists.pushAll pairs).results = lists.results ++ pairs.map Prod.snd := by
  induction pairs generalizing lists with
  | nil => exact (List.append_nil _).symm
  | cons p pairs ih =>
    show ((lists.push p.1 p.2).pushAll pairs).results = _
    rw [ih, List.map_cons]
    show (lists.results ++ [p.2]) ++ _ = _
    rw [List.append_assoc, List.singleton_append]

variable {context : Nat → EligibilityRuleContext ν}
variable {evaluateOne : EmployeeEligibilityRecord ν → EligibilityRuleContext ν → Except SdkError (EmployeeEligibilityResult ν)}

omit [LE ν] [DecidableLE ν] in
/-- A loop that evaluates each record and puts the result into the lists. -/
theorem loop_eq_mapM
    {loop : Nat → List (EmployeeEligibilityRecord ν) → BatchLists ν → Except SdkError (BatchLists ν)}
    (hnil : ∀ i lists, loop i [] lists = .ok lists)
    (hcons : ∀ i record records lists, loop i (record :: records) lists =
      evaluateOne record (context i) >>= fun result => loop (i + 1) records (lists.push record result))
    (i : Nat) (records : List (EmployeeEligibilityRecord ν)) (lists : BatchLists ν) :
    loop i records lists = ((records.zipIdx i).mapM fun p => evaluateOne p.1 (context p.2)).map
      fun results => lists.pushAll (records.zip results) := by
  induction records generalizing i lists with
  | nil => exact hnil i lists
  | cons record records ih =>
    rw [hcons, List.zipIdx_cons, List.mapM_cons]
    cases evaluateOne record (context i) with
    | error e => rfl
    | ok result =>
      show loop (i + 1) records (lists.push record result) = _
      rw [ih]
      cases (records.zipIdx (i + 1)).mapM fun p => evaluateOne p.1 (context p.2) <;> rfl

/-- The result of a batch with the lists that its loop filled. -/
def batchResult (records : List (EmployeeEligibilityRecord ν)) (refTimestamp : JsNumber ν) (lists : BatchLists ν) :
    BatchEligibilityResult ν where
  totalRecords := records.length
  eligibleCount := lists.eligibleRecords.length
  ineligibleCount := lists.ineligibleRecords.length
  eligibleRecords := lists.eligibleRecords
  ineligibleRecords := lists.ineligibleRecords
  results := lists.results
  reasonCodeSummary := lists.reasonCodeSummary
  evaluatedAt := refTimestamp

/-- A batch as a traversal of its records, each with its index. -/
def traversal (evaluateOne : EmployeeEligibilityRecord ν → EligibilityRuleContext ν →
    Except SdkError (EmployeeEligibilityResult ν)) (context : Nat → EligibilityRuleContext ν)
    (records : List (EmployeeEligibilityRecord ν)) : Except SdkError (List (EmployeeEligibilityResult ν)) :=
  records.zipIdx.mapM fun p => evaluateOne p.1 (context p.2)

omit [LE ν] [DecidableLE ν] in
/-- The batches of two traversals are the same just where these are. -/
theorem map_batchResult_eq_iff {f g : EmployeeEligibilityRecord ν → EligibilityRuleContext ν →
    Except SdkError (EmployeeEligibilityResult ν)}
    {records : List (EmployeeEligibilityRecord ν)} {refTimestamp : JsNumber ν} :
    ((traversal f context records).map fun results =>
        batchResult records refTimestamp (({} : BatchLists ν).pushAll (records.zip results))) =
      ((traversal g context records).map fun results =>
        batchResult records refTimestamp (({} : BatchLists ν).pushAll (records.zip results))) ↔
      traversal f context records = traversal g context records := by
  -- a batch shows the results of its records in their order
  have hshown : ∀ results : List (EmployeeEligibilityResult ν), results.length = records.zipIdx.length →
      (batchResult records refTimestamp (({} : BatchLists ν).pushAll (records.zip results))).results = results := by
    intro results hlength
    show (({} : BatchLists ν).pushAll (records.zip results)).results = results
    rw [results_pushAll, List.map_snd_zip (by rw [hlength, List.length_zipIdx])]
    rfl
  apply except_map_eq_map_iff
  intro as bs has hbs h
  rw [← hshown as (length_of_mapM_eq_ok has), h, hshown bs (length_of_mapM_eq_ok hbs)]

/-- The reference time of an evaluation with the options. -/
def batchTimestamp (rt : Runtime ν) (evaluator : EmployeeEligibilityEvaluator ν)
    (overrideOptions : Option (EligibilityEvaluationOptions ν)) : JsNumber ν :=
  resolveReferenceTimestamp rt (effectiveOptions evaluator overrideOptions).referenceTimestamp.join

/-- The context of the record at an index of a batch. -/
def batchContext (rt : Runtime ν) (evaluator : EmployeeEligibilityEvaluator ν)
    (overrideOptions : Option (EligibilityEvaluationOptions ν))
    (records : List (EmployeeEligibilityRecord ν)) : Nat → EligibilityRuleContext ν :=
  contextAt (effectiveOptions evaluator overrideOptions) (batchTimestamp rt evaluator overrideOptions) records

omit [LE ν] [DecidableLE ν] in
/-- The batch that a loop makes is that of a traversal. -/
theorem batch_eq_traversal
    (loop : Nat → List (EmployeeEligibilityRecord ν) → BatchLists ν → Except SdkError (BatchLists ν))
    (hnil : ∀ i lists, loop i [] lists = .ok lists)
    (hcons : ∀ i record records lists, loop i (record :: records) lists =
      evaluateOne record (context i) >>= fun result => loop (i + 1) records (lists.push record result))
    (records : List (EmployeeEligibilityRecord ν)) (refTimestamp : JsNumber ν) :
    (loop 0 records {}).map (batchResult records refTimestamp) = (traversal evaluateOne context records).map
      fun results => batchResult records refTimestamp (({} : BatchLists ν).pushAll (records.zip results)) := by
  rw [loop_eq_mapM hnil hcons, ← traversal]
  cases traversal evaluateOne context records <;> rfl

/-- Without a registry and for rules that neither throw nor return a promise,
the asynchronous methods give what the synchronous ones give just where a date
makes both throw, or where no custom rule has a reason. -/
theorem async_eq_sync_iff (hsync : ∀ rule ∈ evaluator.customRules, Synchronous rule)
    (overrideOptions : Option (EligibilityEvaluationOptions ν)) :
    (∀ record, evaluateAsync rt settled none evaluator record overrideOptions =
        evaluate rt evaluator record overrideOptions ↔
      thrown (validateLifecycleDatesRule rt record
        (singleContext rt (effectiveOptions evaluator overrideOptions))) ≠ none ∨
      ruleReasons evaluator record (singleContext rt (effectiveOptions evaluator overrideOptions)) = []) ∧
    ∀ records, evaluateBatchAsync rt settled none evaluator records overrideOptions =
        evaluateBatch rt evaluator records overrideOptions ↔
      (∃ i record, records[i]? = some record ∧
        thrown (validateLifecycleDatesRule rt record (batchContext rt evaluator overrideOptions records i)) ≠ none) ∨
      ∀ i record, records[i]? = some record →
        ruleReasons evaluator record (batchContext rt evaluator overrideOptions records i) = [] := by
  refine ⟨fun record => evaluateAsync_eq_iff hsync overrideOptions, fun records => ?_⟩
  let context := batchContext rt evaluator overrideOptions records
  show (evaluateFromAsync rt settled none evaluator context 0 records {}).map (batchResult records _) =
    (evaluateFrom rt evaluator context 0 records {}).map (batchResult records _) ↔ _
  rw [batch_eq_traversal (evaluateFromAsync rt settled none evaluator context) (fun _ _ => rfl) fun _ _ _ _ => rfl,
    batch_eq_traversal (evaluateFrom rt evaluator context) (fun _ _ => rfl) fun _ _ _ _ => rfl,
    map_batchResult_eq_iff, traversal, traversal, mapM_eq_mapM_iff]
  · simp only [thrown_evaluateRecordAsync hsync, evaluateRecordAsync_eq_iff hsync, Prod.exists, Prod.forall,
      List.mem_zipIdx_iff_getElem?]
    constructor
    · rintro (⟨record, i, hi, hthrown⟩ | hall)
      · exact .inl ⟨i, record, hi, hthrown⟩
      · by_cases hsome : ∃ i record, records[i]? = some record ∧
          thrown (validateLifecycleDatesRule rt record (batchContext rt evaluator overrideOptions records i)) ≠ none
        · exact .inl hsome
        · refine .inr fun i record hi => ?_
          rcases hall record i hi with hthrown | hnil
          · exact absurd ⟨i, record, hi, hthrown⟩ hsome
          · exact hnil
    · rintro (⟨i, record, hi, hthrown⟩ | hall)
      · exact .inl ⟨record, i, hi, hthrown⟩
      · exact .inr fun record i hi => .inr (hall i record hi)
  · intro p _
    rw [thrown_evaluateRecordAsync hsync, thrown_evaluateRecord]

end Agreement

/-! A rule with a reason. -/

/-- A rule that notes each record. -/
def noteRule : EligibilityRuleFn Int := fun _ _ =>
  .reason { code := "NOTE", message := "seen", severity := some .warning }

def noting : EmployeeEligibilityEvaluator Int where
  options := { requireValidStellarAddress := some (some false) }
  customRules := [noteRule]

/-- A promise is never awaited here. -/
def noPromise : EligibilityRuleFn Int → EmployeeEligibilityRecord Int → EligibilityRuleContext Int →
    Except SdkError (List EligibilityReason) := fun _ _ _ => .ok []

theorem synchronous_noteRule : Synchronous noteRule := fun _ _ => ⟨nofun, nofun⟩

/-- The rule's reason is counted once without waiting and twice with it. -/
theorem noted_twice :
    ((evaluate plainRuntime noting (payTo "ada" "GA") none).map fun r => r.reasons.length) = .ok 1 ∧
      ((evaluateAsync plainRuntime noPromise none noting (payTo "ada" "GA") none).map fun r => r.reasons.length) =
        .ok 2 ∧
      ((evaluateBatch plainRuntime noting [payTo "ada" "GA"] none).map fun b => b.reasonCodeSummary) =
        .ok [("NOTE", 1)] ∧
      ((evaluateBatchAsync plainRuntime noPromise none noting [payTo "ada" "GA"] none).map
        fun b => b.reasonCodeSummary) = .ok [("NOTE", 2)] := by
  decide +kernel

/-- The methods do not agree for every set of synchronous rules. -/
theorem async_ne_sync : ¬ ∀ (evaluator : EmployeeEligibilityEvaluator Int),
    (∀ rule ∈ evaluator.customRules, Synchronous rule) →
    (∀ record, evaluateAsync plainRuntime noPromise none evaluator record none =
      evaluate plainRuntime evaluator record none) ∧
    ∀ records, evaluateBatchAsync plainRuntime noPromise none evaluator records none =
      evaluateBatch plainRuntime evaluator records none := by
  intro h
  have hsync : ∀ rule ∈ noting.customRules, Synchronous rule := by
    intro rule hrule
    obtain rfl := List.mem_singleton.mp hrule
    exact synchronous_noteRule
  have hsame := (h noting hsync).1 (payTo "ada" "GA")
  have hlength := congrArg (fun x => x.map fun r => r.reasons.length) hsame
  rw [noted_twice.1, noted_twice.2.1] at hlength
  cases hlength

/-- The theorem, for the rule with a reason and a record without a bad date. -/
theorem async_ne_sync_noting : evaluateAsync plainRuntime noPromise none noting (payTo "ada" "GA") none ≠
    evaluate plainRuntime noting (payTo "ada" "GA") none := by
  have hsync : ∀ rule ∈ noting.customRules, Synchronous rule := by
    intro rule hrule
    obtain rfl := List.mem_singleton.mp hrule
    exact synchronous_noteRule
  rw [ne_eq, (async_eq_sync_iff hsync none).1]
  decide +kernel

end ZkPayroll.Eligibility
