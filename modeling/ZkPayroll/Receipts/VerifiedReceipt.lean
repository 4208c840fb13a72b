import Mathlib.Algebra.Order.Ring.Int
import ZkPayroll.Receipts.ReceiptVerifier

/-!
# What a valid receipt has

A receipt is valid exactly when it has the shape of one, no validator of the
caller objects to it, and it is as the options expect it to be (`Expected`,
`isValid_iff`). Metadata in the options are checked in place of those in the
receipt, a signature only for being there, and the signer's key only for being
one of those that are trusted.
-/

namespace ZkPayroll.Receipts

open Framework

variable {ν : Type}

section Expected

variable [NumberFormat ν] [CommRing ν] [LinearOrder ν]

/-- The digest of the receipt is that of the metadata, letter case apart. -/
def DigestOf (rt : Runtime ν) (receipt : PayrollReceipt ν) (metadata : Value ν) : Prop :=
  rt.toLowerCase (trim receipt.metadataDigest) = rt.toLowerCase (computeMetadataDigest rt metadata)

/-- The receipt is issued by the time that the options give, and is not too old
then. -/
structure Fresh (rt : Runtime ν) (now : ν) (options : ReceiptVerificationOptions ν) (issuedAt : JsNumber ν) :
    Prop where
  past : JsNumber.lt ((currentTime rt now options).add (toleranceOf options)) issuedAt = false
  young : ∀ maxAge ∈ options.maxAgeMs, JsNumber.lt (.finite 0) maxAge = true →
    JsNumber.lt (maxAge.add (toleranceOf options)) ((currentTime rt now options).sub issuedAt) = false

/-- The receipt is as the options expect it. -/
structure Expected (rt : Runtime ν) (now : ν) (options : ReceiptVerificationOptions ν)
    (receipt : PayrollReceipt ν) : Prop where
  payrollId : ∀ id ∈ given options.expectedPayrollId, trim receipt.payrollId = trim id
  transactionHash : ∀ hash ∈ given options.expectedTransactionHash,
    rt.toLowerCase (extractReceiptTxHash receipt) = trim (rt.toLowerCase hash)
  status : ∀ allowed ∈ allowedStatuses options, receipt.settlementStatus ∈ allowed
  digest : isValidHexDigest receipt.metadataDigest = true
  expectedDigest : ∀ d ∈ given options.expectedMetadataDigest,
    rt.toLowerCase (trim receipt.metadataDigest) = rt.toLowerCase (trim d)
  metadata : isUndefined options.metadata = false → DigestOf rt receipt options.metadata
  embedded : isUndefined options.metadata = true → isUndefined receipt.metadata = false →
    DigestOf rt receipt receipt.metadata
  issuedAt : ∃ issuedAt, parseTimestampToMs rt receipt.issuedAt = some issuedAt ∧ Fresh rt now options issuedAt
  signature : options.requireSignature = true → receipt.signature.truthy = true
  signer : ∀ trusted ∈ options.trustedSigners, trusted ≠ [] →
    ∃ key ∈ trusted, key ≠ "" ∧ receipt.signerPublicKey = .str key

end Expected

/-! ## Each check -/

section Texts

variable {rt : Runtime ν} {options : ReceiptVerificationOptions ν} {receipt : PayrollReceipt ν}

theorem checkPayrollId_eq_none (hid : isBlank receipt.payrollId = false) :
    checkPayrollId options receipt = none ↔
      ∀ id ∈ given options.expectedPayrollId, trim receipt.payrollId = trim id := by
  rw [checkPayrollId, hid, if_neg Bool.false_ne_true]
  cases given options.expectedPayrollId with
  | none => simp
  | some id => simp

theorem checkSettlementStatus_eq_none (hs : receipt.settlementStatus ≠ "") :
    checkSettlementStatus options receipt = none ↔
      ∀ allowed ∈ allowedStatuses options, receipt.settlementStatus ∈ allowed := by
  rw [checkSettlementStatus, if_neg hs]
  cases allowedStatuses options with
  | none => simp
  | some allowed => simp

theorem checkTransaction_eq_none (ht : extractReceiptTxHash receipt ≠ "") :
    checkTransaction rt options receipt = none ↔ ∀ hash ∈ given options.expectedTransactionHash,
      rt.toLowerCase (extractReceiptTxHash receipt) = trim (rt.toLowerCase hash) := by
  simp only [checkTransaction, if_neg ht]
  cases given options.expectedTransactionHash with
  | none => simp
  | some hash => simp

theorem isTrusted_iff {trusted : List String} {v : Value ν} :
    isTrusted trusted v = true ↔ ∃ key ∈ trusted, key ≠ "" ∧ v = .str key := by
  unfold isTrusted
  split
  · rename_i key
    simp only [Bool.and_eq_true, decide_eq_true_eq, List.contains_iff_mem]
    constructor
    · intro h
      exact ⟨key, h.2, h.1, rfl⟩
    · intro h
      obtain ⟨k, hmem, hne, heq⟩ := h
      cases heq
      exact ⟨hne, hmem⟩
  · rename_i h
    refine iff_of_false nofun fun hex => ?_
    obtain ⟨key, -, -, heq⟩ := hex
    exact h key heq

/-- What a check finds, or else the next one, is critical when each finds nothing
but critical issues. -/
theorem critical_of_ite {c : Prop} [Decidable c] {i j : ReceiptVerificationIssue}
    {next : Option ReceiptVerificationIssue} (h : (if c then some j else next) = some i)
    (hj : j.critical = true) (hnext : next = some i → i.critical = true) : i.critical = true := by
  split at h
  · cases h
    exact hj
  · exact hnext h

variable (i : ReceiptVerificationIssue)

theorem checkPayrollId_critical (h : checkPayrollId options receipt = some i) :
    i.critical = true := by
  unfold checkPayrollId at h
  refine critical_of_ite h rfl fun h => ?_
  split at h
  · exact critical_of_ite h rfl nofun
  · cases h

theorem checkSettlementStatus_critical (h : checkSettlementStatus options receipt = some i) : i.critical = true := by
  unfold checkSettlementStatus at h
  refine critical_of_ite h rfl fun h => ?_
  split at h
  · exact critical_of_ite h rfl nofun
  · cases h

theorem checkTransaction_critical (h : checkTransaction rt options receipt = some i) : i.critical = true := by
  simp only [checkTransaction] at h
  refine critical_of_ite h rfl fun h => ?_
  split at h
  · exact critical_of_ite h rfl nofun
  · cases h

end Texts

section Digest

variable [NumberFormat ν] {rt : Runtime ν} {options : ReceiptVerificationOptions ν} {receipt : PayrollReceipt ν}

theorem checkMetadataDigest_eq_none (hd : isBlank receipt.metadataDigest = false) :
    checkMetadataDigest rt options receipt = none ↔ isValidHexDigest receipt.metadataDigest = true ∧
      (∀ d ∈ given options.expectedMetadataDigest,
        rt.toLowerCase (trim receipt.metadataDigest) = rt.toLowerCase (trim d)) ∧
      (isUndefined (metadataToVerify options receipt) = false →
        DigestOf rt receipt (metadataToVerify options receipt)) := by
  simp only [checkMetadataDigest, hd, if_neg Bool.false_ne_true]
  split
  · rename_i h
    simp [h]
  · rename_i h
    rw [Bool.not_eq_false] at h
    split
    · rename_i hexp
      obtain ⟨d, hmem, hne⟩ := hexp
      exact iff_of_false nofun fun hall => hne (hall.2.1 d hmem)
    · rename_i hexp
      have hall : ∀ d ∈ given options.expectedMetadataDigest,
          rt.toLowerCase (trim receipt.metadataDigest) = rt.toLowerCase (trim d) := by
        simpa using hexp
      split
      · rename_i hm
        exact iff_of_false nofun fun h' => hm.2 (h'.2.2 hm.1)
      · rename_i hm
        rw [not_and, not_not] at hm
        exact iff_of_true rfl ⟨h, hall, hm⟩

/-- The metadata of the options come first. -/
theorem digestOf_metadataToVerify : (isUndefined (metadataToVerify options receipt) = false →
      DigestOf rt receipt (metadataToVerify options receipt)) ↔
    (isUndefined options.metadata = false → DigestOf rt receipt options.metadata) ∧
      (isUndefined options.metadata = true → isUndefined receipt.metadata = false →
        DigestOf rt receipt receipt.metadata) := by
  rw [metadataToVerify]
  split
  · rename_i h
    rw [h]
    exact ⟨fun h' => ⟨nofun, fun _ => h'⟩, fun h' => h'.2 rfl⟩
  · rename_i h
    have hdef : isUndefined options.metadata = false := by
      cases hm : options.metadata with
      | undefined => exact absurd hm h
      | _ => rfl
    rw [hdef]
    exact ⟨fun h' => ⟨fun _ => h' rfl, nofun⟩, fun h' => h'.1⟩

theorem checkMetadataDigest_critical (i : ReceiptVerificationIssue)
    (h : checkMetadataDigest rt options receipt = some i) : i.critical = true := by
  simp only [checkMetadataDigest] at h
  split_ifs at h <;> cases h <;> rfl

end Digest

section Numbers

variable [CommRing ν] [LinearOrder ν] {rt : Runtime ν} {now : ν} {options : ReceiptVerificationOptions ν}
  {receipt : PayrollReceipt ν}

theorem checkFreshness_eq_nil : checkFreshness rt now options receipt = [] ↔
    ∃ issuedAt, parseTimestampToMs rt receipt.issuedAt = some issuedAt ∧ Fresh rt now options issuedAt := by
  have hnil {c : Prop} [Decidable c] {i : ReceiptVerificationIssue} : (if c then [i] else []) = [] ↔ ¬ c := by
    split <;> simp [*]
  rw [checkFreshness]
  cases parseTimestampToMs rt receipt.issuedAt with
  | none => exact iff_of_false nofun nofun
  | some issuedAt =>
    rw [List.append_eq_nil_iff, hnil, Bool.not_eq_true]
    cases hmax : options.maxAgeMs with
    | none =>
      constructor
      · intro h
        exact ⟨issuedAt, rfl, h.1, fun m hm => by rw [hmax] at hm; cases hm⟩
      · intro h
        obtain ⟨t, ht, hfresh⟩ := h
        cases ht
        exact ⟨hfresh.past, rfl⟩
    | some maxAge =>
      rw [hnil]
      constructor
      · intro h
        refine ⟨issuedAt, rfl, h.1, fun m hm hpos => ?_⟩
        rw [hmax] at hm
        obtain rfl : maxAge = m := Option.some.inj hm
        exact Bool.eq_false_iff.mpr fun hlt => h.2 ⟨hpos, hlt⟩
      · intro h
        obtain ⟨t, ht, hfresh⟩ := h
        cases ht
        refine ⟨hfresh.past, fun hexpired => ?_⟩
        exact Bool.eq_false_iff.mp (hfresh.young maxAge hmax hexpired.1) hexpired.2

theorem checkSignature_eq_none : (checkSignature options receipt).1 = none ↔
    (options.requireSignature = true → receipt.signature.truthy = true) ∧
      ∀ trusted ∈ options.trustedSigners, trusted ≠ [] →
        ∃ key ∈ trusted, key ≠ "" ∧ receipt.signerPublicKey = .str key := by
  have hsigners : (∀ trusted ∈ options.trustedSigners, trusted ≠ [] →
      ∃ key ∈ trusted, key ≠ "" ∧ receipt.signerPublicKey = .str key) ↔
        (options.trustedSigners.getD [] ≠ [] →
          isTrusted (options.trustedSigners.getD []) receipt.signerPublicKey = true) := by
    rw [isTrusted_iff]
    cases options.trustedSigners with
    | none => simp
    | some trusted => simp
  rw [hsigners, checkSignature]
  split
  · rename_i h
    refine iff_of_false nofun fun hall => ?_
    have hsig := hall.1 h.1
    rw [h.2] at hsig
    cases hsig
  · rename_i hsig
    rw [not_and, Bool.not_eq_false] at hsig
    split
    · rename_i hne
      split
      · rename_i hno
        refine iff_of_false nofun fun hall => ?_
        rw [hall.2 hne] at hno
        cases hno
      · rename_i hyes
        rw [Bool.not_eq_false] at hyes
        exact iff_of_true rfl ⟨hsig, fun _ => hyes⟩
    · rename_i hempty
      exact iff_of_true rfl ⟨hsig, fun hne => absurd hne hempty⟩

theorem checkFreshness_critical (i : ReceiptVerificationIssue) (h : i ∈ checkFreshness rt now options receipt) :
    i.critical = true := by
  have hite {c : Prop} [Decidable c] {j : ReceiptVerificationIssue} (hj : j.critical = true)
      (h : i ∈ if c then [j] else []) : i.critical = true := by
    split at h
    · exact List.mem_singleton.mp h ▸ hj
    · cases h
  simp only [checkFreshness] at h
  split at h
  · exact List.mem_singleton.mp h ▸ rfl
  · rcases List.mem_append.mp h with h | h
    · exact hite rfl h
    · split at h
      · exact hite rfl h
      · cases h

theorem checkSignature_critical (i : ReceiptVerificationIssue) (h : (checkSignature options receipt).1 = some i) :
    i.critical = true := by
  unfold checkSignature at h
  split at h
  · cases h
    rfl
  · split at h
    · split at h
      · cases h
        rfl
      · cases h
    · cases h

/-- The limits of time, where all that is compared is a number. -/
structure WithinLimits (rt : Runtime ν) (now : ν) (options : ReceiptVerificationOptions ν)
    (issuedAt : JsNumber ν) : Prop where
  past : issuedAt.isNaN = false → ((currentTime rt now options).add (toleranceOf options)).isNaN = false →
    JsNumber.le issuedAt ((currentTime rt now options).add (toleranceOf options)) = true
  young : ∀ maxAge ∈ options.maxAgeMs, JsNumber.lt (.finite 0) maxAge = true →
    ((currentTime rt now options).sub issuedAt).isNaN = false →
    (maxAge.add (toleranceOf options)).isNaN = false →
    JsNumber.le ((currentTime rt now options).sub issuedAt) (maxAge.add (toleranceOf options)) = true

theorem Fresh.withinLimits {issuedAt : JsNumber ν} (h : Fresh rt now options issuedAt) :
    WithinLimits rt now options issuedAt where
  past hissued hlimit := JsNumber.le_of_not_lt hissued hlimit h.past
  young maxAge hmax hpos hage hlimit := JsNumber.le_of_not_lt hage hlimit (h.young maxAge hmax hpos)

end Numbers

/-! ## The shape of a receipt and the issues that count -/

section Shape

variable {options : ReceiptVerificationOptions ν} {receipt : PayrollReceipt ν}

theorem nonBlank_eq_some {v : Value ν} {s : String} (h : nonBlank v = some s) : isBlank s = false := by
  unfold nonBlank at h
  split at h
  · split at h
    · cases h
    · rename_i hs
      cases h
      exact Bool.eq_false_iff.mpr hs
  · cases h

theorem ne_empty_of_not_blank {s : String} (h : isBlank s = false) : s ≠ "" := by
  rintro rfl
  exact absurd h (by decide)

theorem trim_ne_empty {s : String} (h : isBlank s = false) : trim s ≠ "" := by
  intro ht
  have hnil : trimChars s.toList = [] := String.ofList_eq_empty_iff.mp ht
  rw [isBlank, hnil] at h
  cases h

/-- What the shape of a receipt gives. -/
theorem readReceipt_eq_some {candidate : Value ν} (h : readReceipt candidate = some receipt) :
    isBlank receipt.payrollId = false ∧ receipt.settlementStatus ≠ "" ∧ extractReceiptTxHash receipt ≠ "" ∧
      isBlank receipt.metadataDigest = false := by
  unfold readReceipt at h
  split at h
  · rename_i fields
    simp only [Option.bind_eq_bind, Option.bind_eq_some_iff, Option.pure_def, Option.some.injEq] at h
    obtain ⟨id, -, payrollId, hp, status, hs, digest, hd, tx, ht, issuedAt, -, rfl⟩ := h
    refine ⟨nonBlank_eq_some hp, ne_empty_of_not_blank (nonBlank_eq_some hs), ?_, nonBlank_eq_some hd⟩
    unfold readTransactionReference at ht
    split at ht
    · split at ht
      · cases ht
      · rename_i hblank
        cases ht
        exact trim_ne_empty (Bool.eq_false_iff.mpr hblank)
    · obtain ⟨txHash, htx, rfl⟩ := Option.map_eq_some_iff.mp ht
      exact trim_ne_empty (nonBlank_eq_some htx)
    · cases ht
  · cases h

/-- A check that finds only critical issues leaves none that is not found when
the critical ones are looked for. -/
theorem filter_isCritical_eq_nil {l : List ReceiptVerificationIssue} (h : ∀ i ∈ l, i.critical = true) :
    l.filter (isCritical options) = [] ↔ l = [] := by
  refine ⟨fun hnil => ?_, fun hnil => by rw [hnil]; rfl⟩
  refine List.eq_nil_iff_forall_not_mem.mpr fun i hi => ?_
  refine List.filter_eq_nil_iff.mp hnil i hi ?_
  rw [isCritical, h i hi, Bool.true_or, Bool.or_true]

theorem toList_critical {o : Option ReceiptVerificationIssue} (h : ∀ i, o = some i → i.critical = true) :
    o.toList.filter (isCritical options) = [] ↔ o = none := by
  rw [filter_isCritical_eq_nil fun i hi => h i (Option.mem_toList.mp hi)]
  cases o <;> simp

end Shape

/-! ## Valid receipts -/

section Valid

variable [NumberFormat ν] [CommRing ν] [LinearOrder ν] {rt : Runtime ν} {now : ν}
  {options : ReceiptVerificationOptions ν} {receipt : PayrollReceipt ν}

/-- No check finds an issue exactly when the receipt is as expected. -/
theorem checks_eq_none_iff {candidate : Value ν} (h : readReceipt candidate = some receipt) :
    (checkPayrollId options receipt = none ∧ checkSettlementStatus options receipt = none ∧
      checkTransaction rt options receipt = none ∧ checkMetadataDigest rt options receipt = none ∧
      checkFreshness rt now options receipt = [] ∧ (checkSignature options receipt).1 = none) ↔
      Expected rt now options receipt := by
  obtain ⟨hid, hs, ht, hd⟩ := readReceipt_eq_some h
  rw [checkPayrollId_eq_none hid, checkSettlementStatus_eq_none hs, checkTransaction_eq_none ht,
    checkMetadataDigest_eq_none hd, digestOf_metadataToVerify, checkFreshness_eq_nil, checkSignature_eq_none]
  constructor
  · intro hall
    obtain ⟨h₁, h₂, h₃, ⟨h₄, h₅, h₆, h₇⟩, h₈, h₉, h₁₀⟩ := hall
    exact ⟨h₁, h₃, h₂, h₄, h₅, h₆, h₇, h₈, h₉, h₁₀⟩
  · intro he
    exact ⟨he.payrollId, he.status, he.transactionHash, ⟨he.digest, he.expectedDigest, he.metadata, he.embedded⟩,
      he.issuedAt, he.signature, he.signer⟩

theorem isValid_iff {candidate : Value ν} :
    (verifyPayrollReceipt rt now candidate options).isValid = true ↔
      ∃ receipt, readReceipt candidate = some receipt ∧ Expected rt now options receipt ∧
        ∀ i ∈ options.customValidators.filterMap (runValidator receipt), isCritical options i = false := by
  cases hread : readReceipt candidate with
  | none =>
    simp only [verifyPayrollReceipt, hread, buildResult]
    exact iff_of_false Bool.false_ne_true fun h => by simp at h
  | some receipt =>
    have hissues : (findIssues rt now options receipt).filter (isCritical options) = [] ↔
        Expected rt now options receipt ∧
          ∀ i ∈ options.customValidators.filterMap (runValidator receipt), isCritical options i = false := by
      simp only [findIssues, List.filter_append, List.append_eq_nil_iff]
      rw [toList_critical checkPayrollId_critical, toList_critical checkSettlementStatus_critical,
        toList_critical checkTransaction_critical, toList_critical checkMetadataDigest_critical,
        filter_isCritical_eq_nil checkFreshness_critical, toList_critical checkSignature_critical,
        ← checks_eq_none_iff hread, List.filter_eq_nil_iff]
      simp only [Bool.not_eq_true, and_assoc]
    simp only [verifyPayrollReceipt, hread, buildResult, decide_eq_true_iff, Option.some.injEq,
      exists_eq_left']
    exact hissues

/-- A valid receipt is as the options expect it. -/
theorem valid_is_expected {candidate : Value ν}
    (h : (verifyPayrollReceipt rt now candidate options).isValid = true) :
    ∃ receipt, readReceipt candidate = some receipt ∧ Expected rt now options receipt ∧
      ∃ issuedAt, parseTimestampToMs rt receipt.issuedAt = some issuedAt ∧
        WithinLimits rt now options issuedAt := by
  obtain ⟨receipt, hread, he, -⟩ := isValid_iff.mp h
  obtain ⟨issuedAt, hissued, hfresh⟩ := he.issuedAt
  exact ⟨receipt, hread, he, issuedAt, hissued, hfresh.withinLimits⟩

end Valid

/-! ## What is not looked at -/

/-- A run time for whole numbers, which knows the digests of two texts. -/
def exampleRuntime : Runtime Int where
  toLowerCase s := String.ofList (s.toList.map lowerAscii)
  toNumber _ := .nan
  parseDate _ := .nan
  toText _ := ""
  roundSeconds n := n
  sha256Sync text :=
    if text = "\x7b\x7d" then "44136fa355b3678a1146ad16f7e8649e94fb4fc21fe77e8310c060f61caaff8a"
    else "015abd7f5cc57a2dd94b7590f04ad8084273905ee33ec5cebeae62276a97f862"

/-- A receipt that is not signed, with the digest of empty metadata. -/
def exampleCandidate (metadata : Value Int) : Value Int :=
  .obj [("receiptId", .str "r"), ("payrollId", .str "p"), ("settlementStatus", .str "settled"),
    ("transactionReference", .str "AB"),
    ("metadataDigest", .str "44136fa355b3678a1146ad16f7e8649e94fb4fc21fe77e8310c060f61caaff8a"),
    ("metadata", metadata), ("issuedAt", .num (.finite 20000000000)), ("signerPublicKey", .str "K")]

def exampleOptions : ReceiptVerificationOptions Int where
  expectedPayrollId := some "p"
  expectedTransactionHash := some "ab"
  metadata := .obj []
  maxAgeMs := some (.finite 5)
  trustedSigners := some ["K"]

theorem example_is_expected :
    ∃ receipt, readReceipt (exampleCandidate (.obj [])) = some receipt ∧
      Expected exampleRuntime 20000000000 exampleOptions receipt ∧
      ∃ issuedAt, parseTimestampToMs exampleRuntime receipt.issuedAt = some issuedAt ∧
        WithinLimits exampleRuntime 20000000000 exampleOptions issuedAt :=
  valid_is_expected (by decide +kernel)

/-- With metadata in the options, those of the receipt need not have its digest,
and a trusted key does without a signature. -/
theorem valid_not_bound : ∃ receipt,
    (verifyPayrollReceipt exampleRuntime 20000000000 (exampleCandidate (.obj [("a", .num (.finite 1))]))
      exampleOptions).isValid = true ∧
    readReceipt (exampleCandidate (.obj [("a", .num (.finite 1))])) = some receipt ∧
    ¬ DigestOf exampleRuntime receipt receipt.metadata ∧ receipt.signature.truthy = false := by
  refine ⟨_, by decide +kernel, rfl, ?_, rfl⟩
  rw [DigestOf]
  decide +kernel

end ZkPayroll.Receipts
