import ZkPayroll.Receipts.VerifiedReceipt

/-!
# The asynchronous verification of a receipt

`verifyPayrollReceiptAsync` of `receipts/receiptVerifier.ts`, which starts from
the issues of `verifyPayrollReceipt`, runs the custom validators a second time
and compares the digest of WebCrypto. Where the validators are synchronous, the
second run finds nothing new: what a validator throws is listed again
(`rerunValidators_eq`), and the digest is one that does not match already
(`checkDigestAgain_eq`). So the two verifications have one verdict and one set
of codes (`async_agrees`).
-/

namespace ZkPayroll.Receipts

open Framework

variable {ν : Type}

/-- The digest of WebCrypto beside the synchronous one. -/
structure AsyncRuntime (ν : Type) extends Runtime ν where
  sha256Async : String → String

/-- What the promise of a validator settles to. -/
inductive Settled where
  | none
  | issue (i : ReceiptVerificationIssue)
  | rejects (message : String)

/-- `issues.some(existing => existing.code === issue.code && existing.message === issue.message)`. -/
def isListed (issues : List ReceiptVerificationIssue) (i : ReceiptVerificationIssue) : Bool :=
  issues.any fun existing => existing.code = i.code && existing.message = i.message

def customValidationFailed (message : String) : ReceiptVerificationIssue where
  code := .CUSTOM_VALIDATION_FAILED
  message := "Custom validator failed: " ++ message

def pushNew (issues : List ReceiptVerificationIssue) (i : ReceiptVerificationIssue) : List ReceiptVerificationIssue :=
  if isListed issues i then issues else issues ++ [i]

/-- The issues after a validator; `settled` is what its promise settles to, if
it returns one. -/
def rerunValidator (settled : Settled) (issues : List ReceiptVerificationIssue) :
    ValidatorOutcome → List ReceiptVerificationIssue
  | .none => issues
  | .issue i => pushNew issues i
  | .throws message => issues ++ [customValidationFailed message]
  | .promise =>
    match settled with
    | .none => issues
    | .issue i => pushNew issues i
    | .rejects message => issues ++ [customValidationFailed message]

/-- The loop over the validators, of which the next is the `n`-th. -/
def rerunValidators (settled : Nat → Settled) (receipt : PayrollReceipt ν) :
    Nat → List (PayrollReceipt ν → ValidatorOutcome) → List ReceiptVerificationIssue → List ReceiptVerificationIssue
  | _, [], issues => issues
  | n, validator :: validators, issues =>
    rerunValidators settled receipt (n + 1) validators (rerunValidator (settled n) issues (validator receipt))

variable [NumberFormat ν] [CommRing ν] [LinearOrder ν]

/-- The issues after the digest of WebCrypto is compared. -/
def checkDigestAgain (rt : AsyncRuntime ν) (options : ReceiptVerificationOptions ν) (receipt : PayrollReceipt ν)
    (issues : List ReceiptVerificationIssue) : List ReceiptVerificationIssue :=
  let metadata := metadataToVerify options receipt
  if isUndefined metadata = false ∧ isValidHexDigest receipt.metadataDigest = true then
    let asyncDigest := rt.sha256Async (canonicalizeMetadata metadata)
    if rt.toLowerCase (trim receipt.metadataDigest) ≠ rt.toLowerCase asyncDigest then
      if issues.any (·.code = .METADATA_DIGEST_MISMATCH) then issues
      else issues ++ [{
        code := .METADATA_DIGEST_MISMATCH
        field := "metadataDigest"
        message := "Receipt metadataDigest does not match the computed hash of the metadata payload." }]
    else issues
  else issues

def verifyPayrollReceiptAsync (rt : AsyncRuntime ν) (settled : Nat → Settled) (now : ν) (receiptCandidate : Value ν)
    (options : ReceiptVerificationOptions ν) : ReceiptVerificationResult ν :=
  let result := verifyPayrollReceipt rt.toRuntime now receiptCandidate options
  match readReceipt receiptCandidate with
  | none => result
  | some receipt =>
    let issues := checkDigestAgain rt options receipt
      (rerunValidators settled receipt 0 options.customValidators result.issues)
    buildResult receipt.receiptId receipt.payrollId (.str receipt.settlementStatus) receipt.settlementStatus
      (decide (issues.filter (isCritical options) = [])) result.verifiedFields issues result.verifiedAt

/-! ## Validators that run again -/

/-- The issue of a validator that throws. -/
def thrownBy (receipt : PayrollReceipt ν) (validator : PayrollReceipt ν → ValidatorOutcome) :
    Option ReceiptVerificationIssue :=
  match validator receipt with
  | .throws message => some (customValidationFailed message)
  | _ => none

variable {issues : List ReceiptVerificationIssue}
variable {i : ReceiptVerificationIssue}

theorem isListed_of_mem (h : i ∈ issues) : isListed issues i = true := by
  rw [isListed, List.any_eq_true]
  exact ⟨i, h, by simp⟩

variable {receipt : PayrollReceipt ν}
variable {validator : PayrollReceipt ν → ValidatorOutcome}

omit [NumberFormat ν] [CommRing ν] [LinearOrder ν] in
/-- A validator whose issue is listed adds what it throws. -/
theorem rerunValidator_eq {settled : Settled}
    (hsync : validator receipt ≠ .promise) (hlisted : ∀ i, runValidator receipt validator = some i → i ∈ issues) :
    rerunValidator settled issues (validator receipt) = issues ++ (thrownBy receipt validator).toList := by
  unfold thrownBy
  cases houtcome : validator receipt with
  | none => exact (List.append_nil issues).symm
  | issue i =>
    have hmem : i ∈ issues := hlisted i (by rw [runValidator, houtcome])
    show pushNew issues i = issues ++ []
    rw [pushNew, if_pos (isListed_of_mem hmem), List.append_nil]
  | throws message => rfl
  | promise => exact absurd houtcome hsync

omit [NumberFormat ν] [CommRing ν] [LinearOrder ν] in
/-- The second run of the validators adds what they throw. -/
theorem rerunValidators_eq {settled : Nat → Settled} {receipt : PayrollReceipt ν} :
    ∀ {validators : List (PayrollReceipt ν → ValidatorOutcome)} (n : Nat) {issues : List ReceiptVerificationIssue},
      (∀ v ∈ validators, v receipt ≠ .promise) →
      (∀ i ∈ validators.filterMap (runValidator receipt), i ∈ issues) →
      rerunValidators settled receipt n validators issues = issues ++ validators.filterMap (thrownBy receipt)
  | [], _, issues, _, _ => (List.append_nil issues).symm
  | v :: validators, n, issues, hsync, hlisted => by
    have hfirst : rerunValidator (settled n) issues (v receipt) = issues ++ (thrownBy receipt v).toList := by
      refine rerunValidator_eq (hsync v List.mem_cons_self) fun i hi => hlisted i ?_
      exact List.mem_filterMap.mpr ⟨v, List.mem_cons_self, hi⟩
    have hrest : ∀ i ∈ validators.filterMap (runValidator receipt), i ∈ issues ++ (thrownBy receipt v).toList := by
      intro i hi
      obtain ⟨w, hw, hrun⟩ := List.mem_filterMap.mp hi
      exact List.mem_append_left _ (hlisted i (List.mem_filterMap.mpr ⟨w, List.mem_cons_of_mem _ hw, hrun⟩))
    rw [rerunValidators, hfirst, rerunValidators_eq (n + 1) (fun w hw => hsync w (List.mem_cons_of_mem _ hw)) hrest,
      List.append_assoc]
    cases hthrown : thrownBy receipt v with
    | none => rw [List.filterMap_cons_none hthrown]; rfl
    | some i => rw [List.filterMap_cons_some hthrown]; rfl

omit [NumberFormat ν] [CommRing ν] [LinearOrder ν] in
/-- What a validator throws is an issue of the first run. -/
theorem runValidator_of_thrownBy (h : thrownBy receipt validator = some i) :
    runValidator receipt validator = some i := by
  unfold thrownBy at h
  unfold runValidator
  cases houtcome : validator receipt with
  | throws message =>
    rw [houtcome] at h
    exact h
  | none | issue | promise =>
    rw [houtcome] at h
    cases h

/-! ## The digest -/

theorem isBlank_eq_false_of_isValidHexDigest {digest : String} (h : isValidHexDigest digest = true) :
    isBlank digest = false := by
  rw [isValidHexDigest, Bool.and_eq_true, beq_iff_eq] at h
  rw [Bool.eq_false_iff]
  intro hblank
  have hnil : trimChars digest.toList = [] := List.isEmpty_iff.mp hblank
  rw [hnil] at h
  exact absurd h.1 (by decide)

variable {options : ReceiptVerificationOptions ν}

omit [CommRing ν] [LinearOrder ν] in
/-- Where the digest of the metadata is another, the synchronous check has
found it. -/
theorem mismatch_of_digest_ne {rt : Runtime ν}
    (hdefined : isUndefined (metadataToVerify options receipt) = false)
    (hhex : isValidHexDigest receipt.metadataDigest = true)
    (hne : rt.toLowerCase (trim receipt.metadataDigest) ≠
      rt.toLowerCase (rt.sha256Sync (canonicalizeMetadata (metadataToVerify options receipt)))) :
    ∃ i, checkMetadataDigest rt options receipt = some i ∧ i.code = .METADATA_DIGEST_MISMATCH := by
  have hblank := isBlank_eq_false_of_isValidHexDigest hhex
  unfold checkMetadataDigest
  rw [if_neg (Bool.eq_false_iff.mp hblank), if_neg (by rw [hhex]; decide)]
  split
  · exact ⟨_, rfl, rfl⟩
  · rw [if_pos ⟨hdefined, hne⟩]
    exact ⟨_, rfl, rfl⟩

omit [CommRing ν] [LinearOrder ν] in
/-- Comparing the digest again adds nothing. -/
theorem checkDigestAgain_eq {rt : AsyncRuntime ν}
    (hsha : ∀ text, rt.sha256Async text = rt.sha256Sync text)
    (hlisted : ∀ i, checkMetadataDigest rt.toRuntime options receipt = some i → i ∈ issues) :
    checkDigestAgain rt options receipt issues = issues := by
  unfold checkDigestAgain
  simp only [hsha]
  split
  · rename_i hchecked
    split
    · rename_i hne
      obtain ⟨i, hi, hcode⟩ := mismatch_of_digest_ne hchecked.1 hchecked.2 hne
      rw [if_pos (List.any_eq_true.mpr ⟨i, hlisted i hi, by simpa using hcode⟩)]
    · rfl
  · rfl

/-! ## One verdict -/

section Verdict

variable {rt : AsyncRuntime ν} {settled : Nat → Settled} {now : ν} {candidate : Value ν}
  {options : ReceiptVerificationOptions ν} {receipt : PayrollReceipt ν}

/-- The synchronous verdict on a receipt. -/
theorem verdict_sync (rt : Runtime ν) (now : ν) (options : ReceiptVerificationOptions ν)
    (hread : readReceipt candidate = some receipt) :
    (verifyPayrollReceipt rt now candidate options).issues = findIssues rt now options receipt ∧
      ((verifyPayrollReceipt rt now candidate options).isValid = true ↔
        ∀ i ∈ findIssues rt now options receipt, ¬isCritical options i = true) := by
  simp only [verifyPayrollReceipt, hread, buildResult, decide_eq_true_iff]
  exact ⟨trivial, List.filter_eq_nil_iff⟩

variable (settled now) in
/-- The asynchronous verification finds the issues of the synchronous one, and
lists again what the validators throw. -/
theorem issues_again (hsha : ∀ text, rt.sha256Async text = rt.sha256Sync text)
    (hsync : ∀ v ∈ options.customValidators, v receipt ≠ .promise) :
    checkDigestAgain rt options receipt (rerunValidators settled receipt 0 options.customValidators
        (findIssues rt.toRuntime now options receipt)) =
      findIssues rt.toRuntime now options receipt ++ options.customValidators.filterMap (thrownBy receipt) := by
  have hrun : ∀ i ∈ options.customValidators.filterMap (runValidator receipt),
      i ∈ findIssues rt.toRuntime now options receipt := fun i hi => List.mem_append_right _ hi
  rw [rerunValidators_eq 0 hsync hrun]
  refine checkDigestAgain_eq hsha fun i hi => List.mem_append_left _ ?_
  have hfound : i ∈ (checkMetadataDigest rt.toRuntime options receipt).toList := Option.mem_toList.mpr hi
  simp only [findIssues, List.mem_append]
  tauto

variable (settled now) in
/-- The asynchronous verdict on a receipt. -/
theorem verdict_async (hread : readReceipt candidate = some receipt)
    (hsha : ∀ text, rt.sha256Async text = rt.sha256Sync text)
    (hsync : ∀ v ∈ options.customValidators, v receipt ≠ .promise) :
    let issues := findIssues rt.toRuntime now options receipt ++ options.customValidators.filterMap (thrownBy receipt)
    (verifyPayrollReceiptAsync rt settled now candidate options).issues = issues ∧
      ((verifyPayrollReceiptAsync rt settled now candidate options).isValid = true ↔
        ∀ i ∈ issues, ¬isCritical options i = true) := by
  have hissues := issues_again settled now hsha hsync
  simp only [verifyPayrollReceiptAsync, hread, (verdict_sync _ _ _ hread).1, hissues]
  simp only [buildResult, decide_eq_true_iff]
  exact ⟨trivial, List.filter_eq_nil_iff⟩

end Verdict

/-- The two verifications have one verdict and the same codes. -/
def SameVerdict (r r' : ReceiptVerificationResult ν) : Prop :=
  r.isValid = r'.isValid ∧
    ∀ code, code ∈ r.issues.map ReceiptVerificationIssue.code ↔ code ∈ r'.issues.map ReceiptVerificationIssue.code

/-- With validators that are synchronous and one SHA-256, the asynchronous
verification tells what the synchronous one does. -/
theorem async_agrees (rt : AsyncRuntime ν) (settled : Nat → Settled) (now : ν) (candidate : Value ν)
    (options : ReceiptVerificationOptions ν) (hsha : ∀ text, rt.sha256Async text = rt.sha256Sync text)
    (hsync : ∀ v ∈ options.customValidators, ∀ receipt, v receipt ≠ .promise) :
    SameVerdict (verifyPayrollReceiptAsync rt settled now candidate options)
      (verifyPayrollReceipt rt.toRuntime now candidate options) := by
  cases hread : readReceipt candidate with
  | none =>
    have hsame : verifyPayrollReceiptAsync rt settled now candidate options =
        verifyPayrollReceipt rt.toRuntime now candidate options := by
      rw [verifyPayrollReceiptAsync, hread]
    rw [hsame]
    exact ⟨rfl, fun _ => Iff.rfl⟩
  | some receipt =>
    obtain ⟨hissues, hvalid⟩ := verdict_async settled now hread hsha fun v hv => hsync v hv receipt
    obtain ⟨hissues', hvalid'⟩ := verdict_sync rt.toRuntime now options hread
    -- an issue that is listed again is listed
    have hmem : ∀ i, i ∈ findIssues rt.toRuntime now options receipt ++
        options.customValidators.filterMap (thrownBy receipt) ↔ i ∈ findIssues rt.toRuntime now options receipt := by
      intro i
      rw [List.mem_append, or_iff_left_iff_imp]
      intro hi
      obtain ⟨v, hv, hthrow⟩ := List.mem_filterMap.mp hi
      exact List.mem_append_right _ (List.mem_filterMap.mpr ⟨v, hv, runValidator_of_thrownBy hthrow⟩)
    refine ⟨?_, fun code => ?_⟩
    · rw [Bool.eq_iff_iff, hvalid, hvalid']
      exact forall_congr' fun i => by rw [hmem i]
    · rw [hissues, hissues']
      simp only [List.mem_map, hmem]

/-- A validator that throws is listed twice by the asynchronous verification. -/
theorem async_agrees_throwing :
    let rt : AsyncRuntime Int := { exampleRuntime with sha256Async := exampleRuntime.sha256Sync }
    let options := { exampleOptions with customValidators := [fun _ => .throws "no"] }
    SameVerdict (verifyPayrollReceiptAsync rt (fun _ => .none) 20000000000 (exampleCandidate (.obj [])) options)
      (verifyPayrollReceipt exampleRuntime 20000000000 (exampleCandidate (.obj [])) options) :=
  async_agrees { exampleRuntime with sha256Async := exampleRuntime.sha256Sync } _ _ _ _ (fun _ => rfl)
    (by
      intro v hv receipt
      obtain rfl := List.mem_singleton.mp hv
      exact nofun)

end ZkPayroll.Receipts
