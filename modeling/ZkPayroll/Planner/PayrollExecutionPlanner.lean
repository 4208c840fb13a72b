import ZkPayroll.Framework.DecimalText
import ZkPayroll.Planner.ProofReadiness
import ZkPayroll.Sessions.QuorumSessionManager

/-!
# Plans of payroll runs

`planPayrollExecution` of `planner/PayrollExecutionPlanner.ts`: each section of
the input has its checks, and the run is ready when none of them fails. Times
are in milliseconds, `now` and `later` are what the two calls of `Date.now()`
return, and there is no plan where `toISOString` throws.

`SectionsPass` says of each section, apart from the checks, when it is in order,
and `plan_ready_iff` that the run is ready just when the sections that were
supplied are, and the section of the proof is one of them: a proof provider is
required, so its section blocks the run where it is omitted
(`omitted_proof_blocks`). Any other section that is omitted only warns.
-/

namespace ZkPayroll.Planner

open Framework

/-! ## Data -/

inductive PlanCheckCategory where
  | contract
  | treasury
  | proof
  | settlement
  | batch
  | authorization
  deriving DecidableEq

inductive PlanCheckId where
  | CONTRACT_VERSION_SUPPORTED
  | CONTRACT_FEATURES_AVAILABLE
  | TREASURY_SUFFICIENT
  | PROOF_PROVIDER_READY
  | SETTLEMENT_WINDOW_STATUS
  | BATCH_COMMITMENT_CONSISTENCY
  | AUTHORIZATION_SIGNATURES
  deriving DecidableEq

structure PlanCheck where
  id : PlanCheckId
  category : PlanCheckCategory
  label : String
  status : CheckStatus
  message : String
  remediation : Option String := none

structure RequiredSignature where
  role : Sessions.SignerRole
  satisfied : Bool
  address : Option String

structure ExecutionStep where
  id : String
  label : String
  description : String
  transactionCount : JsNumber Int

structure PayrollExecutionPlan where
  generatedAt : Int
  ready : Bool
  checks : List PlanCheck
  blockers : List PlanCheck
  warnings : List PlanCheck
  requiredSignatures : List RequiredSignature
  steps : List ExecutionStep

structure ContractVersionRange where
  minVersion : String
  maxVersion : String

structure ContractReadinessInput where
  currentVersion : String
  supportedRange : ContractVersionRange
  recommendedVersion : Option String := none
  availableFeatures : Option (List String) := none
  requiredFeatures : Option (List String) := none

structure TreasuryReadinessInput where
  balance : Int
  asset : String
  requiredAmount : Int
  requiredAsset : String
  minReserve : Option Int := none

structure ProofProviderReadinessInput where
  subject : Option ProofReadinessInput := none
  options : ProofReadinessOptions := {}

structure SettlementWindowInput where
  opensAt : Int
  closesAt : Int
  now : Option Int := none
  closingSoonThreshold : Option ℚ := none

structure BatchCommitmentEntry where
  employeeId : String
  commitmentHash : String

structure BatchCommitmentInput where
  commitments : List BatchCommitmentEntry
  expectedEmployeeCount : Option Int := none

/-- A role for which a signature is there. -/
structure SignedRole where
  role : Sessions.SignerRole
  address : Option String := none

structure AuthorizationReadinessInput where
  requiredRoles : List Sessions.SignerRole
  signedRoles : List SignedRole

structure PayrollExecutionPlanInput where
  employeeCount : Int
  contract : Option ContractReadinessInput := none
  treasury : Option TreasuryReadinessInput := none
  proof : Option ProofProviderReadinessInput := none
  settlementWindow : Option SettlementWindowInput := none
  batch : Option BatchCommitmentInput := none
  authorization : Option AuthorizationReadinessInput := none

/-- The functions that the planner calls. -/
structure PlannerHost extends ReadinessHost where
  /-- `new Date(ms).toISOString()`; `none` where it throws. -/
  toISOString : Int → Option String

def DEFAULT_MAX_ENTRIES_PER_TRANSACTION : Int := 50

def DEFAULT_CLOSING_SOON_THRESHOLD : ℚ := 1 / 10

/-! ## Versions -/

/-- `Number.parseInt(part, 10)`, of a part without a sign; zero for `NaN`. The
numbers are exact. -/
def parsePart (part : List Char) : Nat :=
  digitsValue ((part.dropWhile isSpace).takeWhile Char.isDigit)

def parseVersion (version : String) : Nat × Nat × Nat :=
  let core := version.toList.takeWhile fun c => c ≠ '-' && c ≠ '+'
  let parts := (core.splitOn '.').map parsePart
  (parts[0]?.getD 0, parts[1]?.getD 0, parts[2]?.getD 0)

def compareVersions (a b : String) : Int :=
  let (aMajor, aMinor, aPatch) := parseVersion a
  let (bMajor, bMinor, bPatch) := parseVersion b
  if aMajor ≠ bMajor then (if aMajor > bMajor then 1 else -1)
  else if aMinor ≠ bMinor then (if aMinor > bMinor then 1 else -1)
  else if aPatch ≠ bPatch then (if aPatch > bPatch then 1 else -1)
  else 0

def isVersionInRange (version minVersion maxVersion : String) : Bool :=
  compareVersions version minVersion ≥ 0 && compareVersions version maxVersion ≤ 0

/-! ## The checks -/

variable (status : CheckStatus)

def versionCheck (message : String) (remediation : Option String := none) : PlanCheck :=
  { id := .CONTRACT_VERSION_SUPPORTED, category := .contract, label := "Contract version supported", status
    message, remediation }

def featuresCheck (message : String) (remediation : Option String := none) : PlanCheck :=
  { id := .CONTRACT_FEATURES_AVAILABLE, category := .contract, label := "Contract features available", status
    message, remediation }

/-- The check of the version of the contract. -/
def contractVersionCheck (contract : ContractReadinessInput) : PlanCheck :=
  let { currentVersion, supportedRange, recommendedVersion, .. } := contract
  let supported := versionCheck .pass s!"Contract version \"{currentVersion}\" is supported."
  if isVersionInRange currentVersion supportedRange.minVersion supportedRange.maxVersion = false then
    versionCheck .fail
      (s!"Contract version \"{currentVersion}\" is outside the supported range " ++
        s!"[{supportedRange.minVersion}, {supportedRange.maxVersion}].")
      (some ("Upgrade or downgrade the SDK/integration to a version that supports the deployed " ++
        "contract, or deploy a contract version within the supported range."))
  else
    match recommendedVersion.filter fun r => r ≠ "" ∧ currentVersion ≠ r with
    | none => supported
    | some recommended =>
      if compareVersions currentVersion recommended < 0 then
        versionCheck .warn
          (s!"Contract version \"{currentVersion}\" is supported but stale " ++
            s!"(recommended: \"{recommended}\").")
          (some "Plan an upgrade to the recommended contract version when convenient.")
      else supported

/-- The required features that the contract does not have. -/
def missingFeatures (contract : ContractReadinessInput) : List String :=
  (contract.requiredFeatures.getD []).filter fun f => f ∉ contract.availableFeatures.getD []

def buildContractChecks : Option ContractReadinessInput → List PlanCheck
  | none =>
    [versionCheck .warn "Contract version was not provided; compatibility was not verified."
      (some "Pass contract.currentVersion and contract.supportedRange to the planner.")]
  | some contract =>
    contractVersionCheck contract ::
      if contract.requiredFeatures.getD [] = [] then []
      else if missingFeatures contract = [] then
        [featuresCheck .pass "All required contract features are available."]
      else
        [featuresCheck .fail
          ("Deployed contract is missing required feature(s): " ++
            ", ".intercalate (missingFeatures contract) ++ ".")
          (some "Upgrade the contract to a version that exposes the missing feature(s).")]

def treasuryCheck (message : String) (remediation : Option String := none) : PlanCheck :=
  { id := .TREASURY_SUFFICIENT, category := .treasury, label := "Treasury readiness", status, message
    remediation }

def buildTreasuryCheck : Option TreasuryReadinessInput → PlanCheck
  | none =>
    treasuryCheck .warn "Treasury balance was not provided; solvency was not verified."
      (some "Pass treasury.balance and treasury.requiredAmount to the planner.")
  | some { balance, asset, requiredAmount, requiredAsset, minReserve } =>
    if asset ≠ requiredAsset then
      treasuryCheck .fail s!"Treasury holds \"{asset}\" but payroll requires \"{requiredAsset}\"."
        (some "Fund the treasury in the correct asset, or route this run through the correct treasury.")
    else if balance < requiredAmount then
      let shortfall := requiredAmount - balance
      treasuryCheck .fail
        (s!"Insufficient treasury balance: need {requiredAmount} but only " ++
          s!"{balance} is available (shortfall: {shortfall}) in \"{asset}\".")
        (some s!"Fund the treasury with at least {shortfall} more \"{asset}\" before submitting.")
    else
      let remaining := balance - requiredAmount
      match minReserve.filter fun r => remaining < r with
      | some reserve =>
        treasuryCheck .warn
          (s!"Treasury covers this run but the remaining balance ({remaining}) would fall below " ++
            s!"the configured reserve ({reserve}).")
          (some "Top up the treasury soon to stay above the configured reserve floor.")
      | none => treasuryCheck .pass s!"Treasury has sufficient \"{asset}\" balance for this run."

def proofCheck (message : String) (remediation : Option String := none) : PlanCheck :=
  { id := .PROOF_PROVIDER_READY, category := .proof, label := "Proof provider readiness", status, message
    remediation }

def buildProofCheck (host : ReadinessHost) (proof : Option ProofProviderReadinessInput) : PlanCheck :=
  match proof with
  | some { subject := some subject, options } =>
    let result := checkProofReadiness host subject options
    if result.ready then
      proofCheck .pass "Proof provider is ready to generate the required proof."
    else
      proofCheck .fail
        ("Proof provider is not ready: " ++ "; ".intercalate (result.failures.map fun f => f.message))
        (some (" ".intercalate ((result.failures.filterMap fun f => f.remediation).filter fun r => r ≠ "")))
  | _ =>
    proofCheck .fail "No proof provider is configured for this payroll run."
      (some "Configure a proof provider (proofConfig and witness input) before submitting.")

def settlementCheck (message : String) (remediation : Option String := none) : PlanCheck :=
  { id := .SETTLEMENT_WINDOW_STATUS, category := .settlement, label := "Settlement window status", status
    message, remediation }

def buildSettlementWindowCheck (host : PlannerHost) (clock : Int) :
    Option SettlementWindowInput → Option PlanCheck
  | none =>
    some (settlementCheck .warn "Settlement window was not provided; window status was not verified."
      (some "Pass settlementWindow.opensAt and settlementWindow.closesAt to the planner."))
  | some window => do
    let now := window.now.getD clock
    if now < window.opensAt then
      let opensAt ← host.toISOString window.opensAt
      return settlementCheck .fail s!"Settlement window has not opened yet (opens at {opensAt})."
        (some "Wait until the settlement window opens before submitting.")
    else if now > window.closesAt then
      let closesAt ← host.toISOString window.closesAt
      return settlementCheck .fail s!"Settlement window closed at {closesAt}."
        (some "Wait for the next settlement window before submitting.")
    else
      let totalDuration := window.closesAt - window.opensAt
      let remaining := window.closesAt - now
      let threshold := window.closingSoonThreshold.getD DEFAULT_CLOSING_SOON_THRESHOLD
      if totalDuration > 0 ∧ (remaining : ℚ) / totalDuration < threshold then
        let closesAt ← host.toISOString window.closesAt
        return settlementCheck .warn s!"Settlement window is open but closes soon (at {closesAt})."
          (some "Submit promptly, or plan to resume in the next settlement window.")
      else return settlementCheck .pass "Settlement window is open."

def batchCheck (message : String) (remediation : Option String := none) : PlanCheck :=
  { id := .BATCH_COMMITMENT_CONSISTENCY, category := .batch, label := "Batch commitment consistency", status
    message, remediation }

/-- The keys that come again in a list, in the order in which they do: `seen`
and `duplicates` are the two sets of the loop. -/
def duplicates (seen dups : List String) : List String → List String
  | [] => dups
  | k :: keys =>
    if k ∈ seen then duplicates seen (if k ∈ dups then dups else dups ++ [k]) keys
    else duplicates (k :: seen) dups keys

/-- What is wrong with a batch. -/
def batchProblems (batch : BatchCommitmentInput) (employeeCount : Int) : List String :=
  let duplicateEmployees := duplicates [] [] (batch.commitments.map BatchCommitmentEntry.employeeId)
  let duplicateHashes := duplicates [] [] (batch.commitments.map BatchCommitmentEntry.commitmentHash)
  let expectedCount := batch.expectedEmployeeCount.getD employeeCount
  (if duplicateEmployees = [] then []
    else ["duplicate employee commitment(s): " ++ ", ".intercalate duplicateEmployees]) ++
  (if duplicateHashes = [] then [] else ["duplicate commitment hash(es) shared across employees"]) ++
  (if expectedCount > 0 ∧ (batch.commitments.length : Int) ≠ expectedCount then
    [s!"commitment count ({batch.commitments.length}) does not match expected employee count ({expectedCount})"]
    else [])

def buildBatchCheck (batch : Option BatchCommitmentInput) (employeeCount : Int) : PlanCheck :=
  match batch with
  | none =>
    batchCheck .warn "Batch commitments were not provided; consistency was not verified."
      (some "Pass batch.commitments to the planner.")
  | some batch =>
    let problems := batchProblems batch employeeCount
    if problems = [] then
      batchCheck .pass s!"Batch contains {batch.commitments.length} consistent, unique commitment(s)."
    else
      batchCheck .fail ("Batch commitments are inconsistent: " ++ "; ".intercalate problems ++ ".")
        (some "Regenerate the batch commitments so each employee has exactly one unique commitment.")

def authorizationCheck (message : String) (remediation : Option String := none) : PlanCheck :=
  { id := .AUTHORIZATION_SIGNATURES, category := .authorization, label := "Required signatures collected"
    status, message, remediation }

/-- The required signatures; of the signatures of one role, the last counts. -/
def requiredSignatures (authorization : AuthorizationReadinessInput) : List RequiredSignature :=
  authorization.requiredRoles.map fun role =>
    let signed := authorization.signedRoles.reverse.find? fun s => s.role = role
    { role, satisfied := signed.isSome, address := signed.bind SignedRole.address }

def buildAuthorizationChecks : Option AuthorizationReadinessInput → PlanCheck × List RequiredSignature
  | none =>
    (authorizationCheck .warn
      "Authorization state was not provided; signature requirements were not verified."
      (some "Pass authorization.requiredRoles and authorization.signedRoles to the planner."), [])
  | some authorization =>
    let signatures := requiredSignatures authorization
    let unsatisfied := signatures.filter fun s => s.satisfied = false
    (if unsatisfied = [] then
        authorizationCheck .pass s!"All {signatures.length} required signature(s) have been collected."
      else
        authorizationCheck .fail
          ("Missing signature(s) from: " ++ ", ".intercalate (unsatisfied.map fun s => s.role.name) ++ ".")
          (some "Collect the outstanding signature(s) before submitting."), signatures)

/-! ## The plan -/

/-- `Math.ceil(employeeCount / maxEntriesPerTransaction)`, of a positive count. -/
def ceilQuotient (employeeCount maxEntriesPerTransaction : Int) : JsNumber Int :=
  if maxEntriesPerTransaction = 0 then .infinity
  else .finite ⌈(employeeCount : ℚ) / maxEntriesPerTransaction⌉

/-- A number in a template. -/
def numberText : JsNumber Int → String
  | .finite n => s!"{n}"
  | .infinity => "Infinity"
  | .negInfinity => "-Infinity"
  | .nan => "NaN"

def estimateTransactionSteps (employeeCount maxEntriesPerTransaction : Int) : List ExecutionStep :=
  if employeeCount ≤ 0 then []
  else
    let batchTransactionCount := ceilQuotient employeeCount maxEntriesPerTransaction
    [{ id := "submit-batch-commitments"
       label := "Submit batch commitments"
       description := s!"Submit salary commitments for {employeeCount} employee(s) in {numberText batchTransactionCount} transaction(s) of up to {maxEntriesPerTransaction} entries each."
       transactionCount := batchTransactionCount },
     { id := "submit-proof"
       label := "Submit zero-knowledge proof"
       description := "Generate and submit the ZK proof attesting to the committed batch."
       transactionCount := .finite 1 },
     { id := "execute-settlement"
       label := "Execute payroll settlement"
       description := s!"Execute the verified payment(s) in {numberText batchTransactionCount} transaction(s) of up to {maxEntriesPerTransaction} entries each."
       transactionCount := batchTransactionCount }]

/-- `planPayrollExecution`, where the option is `maxEntriesPerTransaction`. -/
def planPayrollExecution (host : PlannerHost) (input : PayrollExecutionPlanInput)
    (maxEntriesPerTransaction : Option Int) (now later : Int) : Option PayrollExecutionPlan := do
  let (authorizationCheck, requiredSignatures) := buildAuthorizationChecks input.authorization
  let settlementCheck ← buildSettlementWindowCheck host now input.settlementWindow
  let checks := buildContractChecks input.contract ++
    [buildTreasuryCheck input.treasury, buildProofCheck host.toReadinessHost input.proof, settlementCheck,
      buildBatchCheck input.batch input.employeeCount, authorizationCheck]
  let blockers := checks.filter fun c => c.status = .fail
  let warnings := checks.filter fun c => c.status = .warn
  return {
    generatedAt := later
    ready := blockers = []
    checks, blockers, warnings, requiredSignatures
    steps := estimateTransactionSteps input.employeeCount
      (maxEntriesPerTransaction.getD DEFAULT_MAX_ENTRIES_PER_TRANSACTION) }

/-! ## What the sections have to pass -/

/-- The version is supported, and the required features are there. -/
def ContractReadinessInput.Passes (c : ContractReadinessInput) : Prop :=
  isVersionInRange c.currentVersion c.supportedRange.minVersion c.supportedRange.maxVersion = true ∧
    ∀ f ∈ c.requiredFeatures.getD [], f ∈ c.availableFeatures.getD []

/-- The treasury holds the asset of the run, and enough of it. -/
def TreasuryReadinessInput.Passes (t : TreasuryReadinessInput) : Prop :=
  t.asset = t.requiredAsset ∧ t.requiredAmount ≤ t.balance

/-- A provider is configured, and ready. -/
def ProofProviderReadinessInput.Passes (host : ReadinessHost) (p : ProofProviderReadinessInput) : Prop :=
  ∃ subject, p.subject = some subject ∧ (checkProofReadiness host subject p.options).ready = true

/-- The window is open. -/
def SettlementWindowInput.Passes (clock : Int) (w : SettlementWindowInput) : Prop :=
  w.opensAt ≤ w.now.getD clock ∧ w.now.getD clock ≤ w.closesAt

/-- Each employee has one commitment, of its own, and none is missing where the
number of employees is known. -/
def BatchCommitmentInput.Passes (employeeCount : Int) (b : BatchCommitmentInput) : Prop :=
  (b.commitments.map BatchCommitmentEntry.employeeId).Nodup ∧
    (b.commitments.map BatchCommitmentEntry.commitmentHash).Nodup ∧
    (0 < b.expectedEmployeeCount.getD employeeCount →
      (b.commitments.length : Int) = b.expectedEmployeeCount.getD employeeCount)

/-- All required roles have signed. -/
def AuthorizationReadinessInput.Passes (a : AuthorizationReadinessInput) : Prop :=
  ∀ role ∈ a.requiredRoles, ∃ s ∈ a.signedRoles, s.role = role

/-- Every section that was supplied passes. -/
structure SectionsPass (host : ReadinessHost) (input : PayrollExecutionPlanInput) (now : Int) : Prop where
  contract : ∀ c ∈ input.contract, c.Passes
  treasury : ∀ t ∈ input.treasury, t.Passes
  proof : ∀ p ∈ input.proof, p.Passes host
  settlementWindow : ∀ w ∈ input.settlementWindow, w.Passes now
  batch : ∀ b ∈ input.batch, b.Passes input.employeeCount
  authorization : ∀ a ∈ input.authorization, a.Passes

/-- Whether the section of a category was supplied. -/
def PayrollExecutionPlanInput.supplied (input : PayrollExecutionPlanInput) : PlanCheckCategory → Bool
  | .contract => input.contract.isSome
  | .treasury => input.treasury.isSome
  | .proof => input.proof.isSome
  | .settlement => input.settlementWindow.isSome
  | .batch => input.batch.isSome
  | .authorization => input.authorization.isSome

/-! ## The checks of the sections

A check fails just where its section was supplied and does not pass, but for
the proof, whose check also fails where it was not supplied. -/

theorem contractVersionCheck_fail_iff {c : ContractReadinessInput} :
    (contractVersionCheck c).status = .fail ↔
      isVersionInRange c.currentVersion c.supportedRange.minVersion c.supportedRange.maxVersion = false := by
  simp only [contractVersionCheck]
  split
  · rename_i h
    exact iff_of_true rfl h
  · rename_i h
    refine iff_of_false ?_ h
    repeat' split
    all_goals simp [versionCheck]

theorem missingFeatures_eq_nil_iff {c : ContractReadinessInput} :
    missingFeatures c = [] ↔ ∀ f ∈ c.requiredFeatures.getD [], f ∈ c.availableFeatures.getD [] := by
  simp [missingFeatures, List.filter_eq_nil_iff]

variable {contract : Option ContractReadinessInput}

theorem buildContractChecks_passes_iff :
    (∀ check ∈ buildContractChecks contract, check.status ≠ .fail) ↔ ∀ c ∈ contract, c.Passes := by
  cases contract with
  | none => simp [buildContractChecks, versionCheck]
  | some c =>
    have hversion : (contractVersionCheck c).status ≠ .fail ↔
        isVersionInRange c.currentVersion c.supportedRange.minVersion c.supportedRange.maxVersion = true := by
      rw [ne_eq, contractVersionCheck_fail_iff, Bool.not_eq_false]
    simp only [buildContractChecks, List.forall_mem_cons, hversion, Option.mem_some_iff, forall_eq',
      ContractReadinessInput.Passes, ← missingFeatures_eq_nil_iff]
    refine and_congr_right fun _ => ?_
    by_cases hreq : c.requiredFeatures.getD [] = []
    · have hmissing : missingFeatures c = [] := by rw [missingFeatures, hreq, List.filter_nil]
      simp [hreq, hmissing]
    · by_cases hmissing : missingFeatures c = []
      · simp [hreq, hmissing, featuresCheck]
      · simp [hreq, hmissing, featuresCheck]

theorem buildTreasuryCheck_passes_iff {treasury : Option TreasuryReadinessInput} :
    (buildTreasuryCheck treasury).status ≠ .fail ↔ ∀ t ∈ treasury, t.Passes := by
  cases treasury with
  | none => simp [buildTreasuryCheck, treasuryCheck]
  | some t =>
    simp only [buildTreasuryCheck, Option.mem_some_iff, forall_eq', TreasuryReadinessInput.Passes]
    by_cases hasset : t.asset = t.requiredAsset
    · by_cases hamount : t.balance < t.requiredAmount
      · simp [hasset, hamount, treasuryCheck]
      · rw [if_neg (not_not.mpr hasset), if_neg hamount]
        refine iff_of_true ?_ ⟨hasset, by omega⟩
        split <;> simp [treasuryCheck]
    · simp [hasset, treasuryCheck]

theorem buildProofCheck_passes_iff {host : ReadinessHost} {proof : Option ProofProviderReadinessInput} :
    (buildProofCheck host proof).status ≠ .fail ↔ proof.isSome = true ∧ ∀ p ∈ proof, p.Passes host := by
  cases proof with
  | none => simp [buildProofCheck, proofCheck]
  | some p =>
    obtain ⟨subject, options⟩ := p
    cases subject with
    | none => simp [buildProofCheck, proofCheck, ProofProviderReadinessInput.Passes]
    | some subject =>
      simp only [buildProofCheck, Option.isSome_some, true_and, Option.mem_some_iff, forall_eq',
        ProofProviderReadinessInput.Passes, Option.some.injEq, exists_eq_left']
      split
      · rename_i h
        exact iff_of_true (by simp [proofCheck]) h
      · rename_i h
        exact iff_of_false (by simp [proofCheck]) h

variable {host : PlannerHost}
variable {window : Option SettlementWindowInput}

theorem buildSettlementWindowCheck_passes_iff {clock : Int} {check : PlanCheck}
    (h : buildSettlementWindowCheck host clock window = some check) :
    check.category = .settlement ∧ (check.status ≠ .fail ↔ ∀ w ∈ window, w.Passes clock) := by
  cases window with
  | none =>
    cases h
    exact ⟨rfl, by simp [settlementCheck]⟩
  | some w =>
    simp only [buildSettlementWindowCheck, Option.mem_some_iff, forall_eq', SettlementWindowInput.Passes] at h ⊢
    by_cases hopen : w.now.getD clock < w.opensAt
    · rw [if_pos hopen, Option.bind_eq_bind, Option.bind_eq_some_iff] at h
      obtain ⟨text, -, h⟩ := h
      cases h
      exact ⟨rfl, iff_of_false (by simp [settlementCheck]) (by omega)⟩
    · rw [if_neg hopen] at h
      by_cases hclosed : w.now.getD clock > w.closesAt
      · rw [if_pos hclosed, Option.bind_eq_bind, Option.bind_eq_some_iff] at h
        obtain ⟨text, -, h⟩ := h
        cases h
        exact ⟨rfl, iff_of_false (by simp [settlementCheck]) (by omega)⟩
      · rw [if_neg hclosed] at h
        have hpass : w.opensAt ≤ w.now.getD clock ∧ w.now.getD clock ≤ w.closesAt := by omega
        split at h
        · rw [Option.bind_eq_bind, Option.bind_eq_some_iff] at h
          obtain ⟨text, -, h⟩ := h
          cases h
          exact ⟨rfl, iff_of_true (by simp [settlementCheck]) hpass⟩
        · cases h
          exact ⟨rfl, iff_of_true (by simp [settlementCheck]) hpass⟩

/-- There is a check of the window where both of its times are dates. -/
theorem exists_buildSettlementWindowCheck {clock : Int}
    (h : ∀ w ∈ window, host.toISOString w.opensAt ≠ none ∧ host.toISOString w.closesAt ≠ none) :
    ∃ check, buildSettlementWindowCheck host clock window = some check := by
  cases window with
  | none => exact ⟨_, rfl⟩
  | some w =>
    obtain ⟨hopens, hcloses⟩ := h w rfl
    obtain ⟨opensAt, hopens⟩ := Option.ne_none_iff_exists'.mp hopens
    obtain ⟨closesAt, hcloses⟩ := Option.ne_none_iff_exists'.mp hcloses
    simp only [buildSettlementWindowCheck, hopens, hcloses]
    repeat' split
    all_goals exact ⟨_, rfl⟩

theorem duplicates_eq_nil_iff : ∀ {keys seen dups : List String},
    duplicates seen dups keys = [] ↔ dups = [] ∧ keys.Nodup ∧ ∀ k ∈ keys, k ∉ seen
  | [], seen, dups => by simp [duplicates]
  | k :: keys, seen, dups => by
    rw [duplicates, List.nodup_cons, List.forall_mem_cons]
    by_cases hk : k ∈ seen
    · have hne : (if k ∈ dups then dups else dups ++ [k]) ≠ [] := by
        split
        · rename_i hmem
          exact List.ne_nil_of_mem hmem
        · simp
      rw [if_pos hk, duplicates_eq_nil_iff]
      exact iff_of_false (fun h => hne h.1) fun h => h.2.2.1 hk
    · rw [if_neg hk, duplicates_eq_nil_iff]
      have hseen : (∀ k' ∈ keys, k' ∉ k :: seen) ↔ k ∉ keys ∧ ∀ k' ∈ keys, k' ∉ seen := by
        simp only [List.mem_cons, not_or]
        exact ⟨fun h => ⟨fun hmem => (h k hmem).1 rfl, fun k' hk' => (h k' hk').2⟩,
          fun h k' hk' => ⟨fun he => h.1 (he ▸ hk'), h.2 k' hk'⟩⟩
      rw [hseen]
      tauto

theorem batchProblems_eq_nil_iff {b : BatchCommitmentInput} {employeeCount : Int} :
    batchProblems b employeeCount = [] ↔ b.Passes employeeCount := by
  have hdup : ∀ keys, duplicates [] [] keys = [] ↔ keys.Nodup := by
    intro keys
    simp [duplicates_eq_nil_iff]
  have hif : ∀ (P : Prop) [Decidable P] (x : String), (if P then [] else [x]) = [] ↔ P := by
    intro P _ x
    split <;> simp_all
  have hif' : ∀ (P : Prop) [Decidable P] (x : String), (if P then [x] else []) = [] ↔ ¬ P := by
    intro P _ x
    split <;> simp_all
  simp only [batchProblems, List.append_eq_nil_iff, hif, hif', hdup, BatchCommitmentInput.Passes, not_and,
    not_not, and_assoc]

theorem buildBatchCheck_passes_iff {batch : Option BatchCommitmentInput} {employeeCount : Int} :
    (buildBatchCheck batch employeeCount).status ≠ .fail ↔ ∀ b ∈ batch, b.Passes employeeCount := by
  cases batch with
  | none => simp [buildBatchCheck, batchCheck]
  | some b =>
    simp only [buildBatchCheck, Option.mem_some_iff, forall_eq', ← batchProblems_eq_nil_iff]
    split
    · rename_i h
      exact iff_of_true (by simp [batchCheck]) h
    · rename_i h
      exact iff_of_false (by simp [batchCheck]) h

theorem unsatisfied_eq_nil_iff {a : AuthorizationReadinessInput} :
    (requiredSignatures a).filter (fun s => s.satisfied = false) = [] ↔ a.Passes := by
  simp [requiredSignatures, List.filter_eq_nil_iff, AuthorizationReadinessInput.Passes]

theorem buildAuthorizationChecks_passes_iff {authorization : Option AuthorizationReadinessInput} :
    (buildAuthorizationChecks authorization).1.status ≠ .fail ↔ ∀ a ∈ authorization, a.Passes := by
  cases authorization with
  | none => simp [buildAuthorizationChecks, authorizationCheck]
  | some a =>
    simp only [buildAuthorizationChecks, Option.mem_some_iff, forall_eq', ← unsatisfied_eq_nil_iff]
    split
    · rename_i h
      exact iff_of_true (by simp [authorizationCheck]) h
    · rename_i h
      exact iff_of_false (by simp [authorizationCheck]) h

/-! ## Readiness -/

theorem category_buildContractChecks :
    ∀ check ∈ buildContractChecks contract, check.category = .contract := by
  have hversion : ∀ c, (contractVersionCheck c).category = .contract := by
    intro c
    simp only [contractVersionCheck]
    repeat' split
    all_goals rfl
  cases contract with
  | none => simp [buildContractChecks, versionCheck]
  | some c =>
    rw [buildContractChecks, List.forall_mem_cons]
    refine ⟨hversion c, ?_⟩
    repeat' split
    all_goals simp [featuresCheck]

theorem category_buildTreasuryCheck (treasury : Option TreasuryReadinessInput) :
    (buildTreasuryCheck treasury).category = .treasury := by
  cases treasury with
  | none => rfl
  | some _ =>
    simp only [buildTreasuryCheck]
    repeat' split
    all_goals rfl

theorem category_buildProofCheck (host : ReadinessHost) (proof : Option ProofProviderReadinessInput) :
    (buildProofCheck host proof).category = .proof := by
  rcases proof with _ | ⟨_ | subject, options⟩
  · rfl
  · rfl
  · simp only [buildProofCheck]
    split <;> rfl

theorem category_buildBatchCheck (batch : Option BatchCommitmentInput) (employeeCount : Int) :
    (buildBatchCheck batch employeeCount).category = .batch := by
  cases batch with
  | none => rfl
  | some _ =>
    simp only [buildBatchCheck]
    repeat' split
    all_goals rfl

theorem category_buildAuthorizationChecks (authorization : Option AuthorizationReadinessInput) :
    (buildAuthorizationChecks authorization).1.category = .authorization := by
  cases authorization with
  | none => rfl
  | some a =>
    simp only [buildAuthorizationChecks]
    split <;> rfl

/-- What a plan says of its run. -/
structure ReportsReadiness (host : ReadinessHost) (input : PayrollExecutionPlanInput) (now : Int)
    (plan : PayrollExecutionPlan) : Prop where
  ready : plan.ready = true ↔ input.proof.isSome = true ∧ SectionsPass host input now
  blockers : ∀ b ∈ plan.blockers, b.category ≠ .proof → input.supplied b.category = true
  omitted_proof : input.proof = none → ∃ b ∈ plan.blockers, b.category = .proof

variable {input : PayrollExecutionPlanInput}

section

variable {maxEntries : Option Int} {now later : Int} {plan : PayrollExecutionPlan}
  (h : planPayrollExecution host input maxEntries now later = some plan)
include h

/-- The checks of a plan, section by section. -/
theorem planPayrollExecution_eq_some :
    ∃ settlement, buildSettlementWindowCheck host now input.settlementWindow = some settlement ∧
      plan.checks = buildContractChecks input.contract ++
        [buildTreasuryCheck input.treasury, buildProofCheck host.toReadinessHost input.proof, settlement,
          buildBatchCheck input.batch input.employeeCount, (buildAuthorizationChecks input.authorization).1] ∧
      plan.blockers = plan.checks.filter (fun c => c.status = .fail) ∧
      (plan.ready = true ↔ ∀ c ∈ plan.checks, c.status ≠ .fail) := by
  rw [planPayrollExecution, Option.bind_eq_bind, Option.bind_eq_some_iff] at h
  obtain ⟨settlement, hs, h⟩ := h
  cases h
  refine ⟨settlement, hs, rfl, rfl, ?_⟩
  simp only [decide_eq_true_eq, List.filter_eq_nil_iff, ne_eq]

theorem reportsReadiness : ReportsReadiness host.toReadinessHost input now plan := by
  obtain ⟨settlement, hs, hchecks, hblockers, hready⟩ := planPayrollExecution_eq_some h
  obtain ⟨hcategory, hwindow⟩ := buildSettlementWindowCheck_passes_iff hs
  constructor
  · rw [hready, hchecks]
    simp only [List.forall_mem_append, List.forall_mem_cons, buildContractChecks_passes_iff,
      buildTreasuryCheck_passes_iff, buildProofCheck_passes_iff, hwindow, buildBatchCheck_passes_iff,
      buildAuthorizationChecks_passes_iff]
    constructor
    · rintro ⟨hc, ht, ⟨hsome, hp⟩, hw, hb, ha, -⟩
      exact ⟨hsome, hc, ht, hp, hw, hb, ha⟩
    · rintro ⟨hsome, hc, ht, hp, hw, hb, ha⟩
      exact ⟨hc, ht, ⟨hsome, hp⟩, hw, hb, ha, List.forall_mem_nil _⟩
  · intro b hb hne
    rw [hblockers, List.mem_filter, decide_eq_true_eq, hchecks] at hb
    obtain ⟨hmem, hfail⟩ := hb
    -- the check of a section that was omitted does not fail
    have hsupplied : ∀ {α : Type} {o : Option α} {P : α → Prop}, ¬ (∀ a ∈ o, P a) → o.isSome = true := by
      intro α o P hno
      cases o with
      | none => exact absurd (fun a ha => absurd ha (Option.not_mem_none a)) hno
      | some a => rfl
    simp only [List.mem_append, List.mem_cons, List.not_mem_nil, or_false] at hmem
    rcases hmem with hmem | rfl | rfl | rfl | rfl | rfl
    · rw [category_buildContractChecks b hmem]
      exact hsupplied fun hall => buildContractChecks_passes_iff.mpr hall b hmem hfail
    · rw [category_buildTreasuryCheck]
      exact hsupplied fun hall => buildTreasuryCheck_passes_iff.mpr hall hfail
    · exact absurd (category_buildProofCheck _ _) hne
    · rw [hcategory]
      exact hsupplied fun hall => hwindow.mpr hall hfail
    · rw [category_buildBatchCheck]
      exact hsupplied fun hall => buildBatchCheck_passes_iff.mpr hall hfail
    · rw [category_buildAuthorizationChecks]
      exact hsupplied fun hall => buildAuthorizationChecks_passes_iff.mpr hall hfail
  · intro hnone
    refine ⟨buildProofCheck host.toReadinessHost input.proof, ?_, category_buildProofCheck _ _⟩
    rw [hblockers, List.mem_filter, decide_eq_true_eq, hchecks, hnone]
    exact ⟨by simp, rfl⟩

end

/-- There is a plan where the window's times are dates, and any plan reports the
run as ready just when the proof's section was supplied and every section that
was supplied passes. Of the sections that were omitted, the proof's blocks the
run and no other does. -/
theorem plan_ready_iff (host : PlannerHost) (input : PayrollExecutionPlanInput) (maxEntries : Option Int)
    (now later : Int) :
    ((∀ w ∈ input.settlementWindow, host.toISOString w.opensAt ≠ none ∧ host.toISOString w.closesAt ≠ none) →
        ∃ plan, planPayrollExecution host input maxEntries now later = some plan) ∧
      ∀ plan, planPayrollExecution host input maxEntries now later = some plan →
        ReportsReadiness host.toReadinessHost input now plan := by
  refine ⟨fun hdates => ?_, fun plan h => reportsReadiness h⟩
  obtain ⟨settlement, hs⟩ : ∃ check, buildSettlementWindowCheck host now input.settlementWindow = some check :=
    exists_buildSettlementWindowCheck hdates
  rw [planPayrollExecution, hs]
  exact ⟨_, rfl⟩

/-- With no section supplied at all, each that was supplied passes, and the run
is not ready: the proof's section blocks it. -/
theorem omitted_proof_blocks :
    ∃ host : PlannerHost, SectionsPass host.toReadinessHost { employeeCount := 2 } 0 ∧
      ∃ plan, planPayrollExecution host { employeeCount := 2 } none 0 0 = some plan ∧
        plan.ready = false ∧ ∃ b ∈ plan.blockers, b.category = .proof := by
  refine ⟨{ urlPathname := some, statSync := none, toLowerCase := id, toISOString := fun _ => none }, ?_,
    _, rfl, rfl, ?_⟩
  · constructor <;> exact fun _ h => absurd h (Option.not_mem_none _)
  · exact ⟨buildProofCheck _ none, List.mem_cons_self, rfl⟩

end ZkPayroll.Planner
