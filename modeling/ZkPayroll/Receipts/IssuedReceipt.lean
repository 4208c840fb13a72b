import ZkPayroll.Framework.Maps
import ZkPayroll.Receipts.DigestAgreement
import ZkPayroll.Receipts.VerifiedReceipt

/-!
# Receipts that are issued

`createPayrollReceipt` of `receipts/receiptVerifier.ts`, and what
`verifyPayrollReceipt` makes of its receipts. A receipt that is issued is verified
exactly where its parameters are complete, the payroll is settled, and a digest
that is given is the one of the metadata (`Verifiable`); and with other metadata
put in, only where they have the digest of the receipt (`receipts_verify`).
-/

namespace ZkPayroll.Receipts

open Framework

variable {ν : Type}

/-! ## Issuing -/

structure CreatePayrollReceiptParams (ν : Type) where
  receiptId : Option String := none
  payrollId : String
  settlementStatus : Option String := none
  transactionReference : TransactionReference
  metadata : Option (List (String × Value ν)) := none
  metadataDigest : Option String := none
  totalAmount : Value ν := .undefined
  currency : Value ν := .undefined
  recipientCount : Value ν := .undefined
  /-- A number or a text. -/
  issuedAt : Option (JsNumber ν ⊕ String) := none
  settledAt : Value ν := .undefined
  viewKeyId : Value ν := .undefined
  complianceHash : Value ν := .undefined
  signature : Value ν := .undefined
  signerPublicKey : Value ν := .undefined
  redacted : Option Bool := none

def TransactionReference.toValue : TransactionReference → Value ν
  | .text s => .str s
  | .record txHash => .obj [("txHash", .str txHash)]

/-- The text in which the hash of the transaction is. -/
def TransactionReference.hash : TransactionReference → String
  | .text s => s
  | .record txHash => txHash

namespace CreatePayrollReceiptParams

variable (params : CreatePayrollReceiptParams ν)

def statusOf : String := params.settlementStatus.getD "settled"

/-- `params.issuedAt ?? Date.now()`. -/
def issuedAtOf (now : ν) : Timestamp ν :=
  match params.issuedAt with
  | some (.inl n) => .number n
  | some (.inr s) => .text s
  | none => .number (.finite now)

end CreatePayrollReceiptParams

section Issue

variable [NumberFormat ν] (rt : Runtime ν) (generatedId : String) (now : ν) (params : CreatePayrollReceiptParams ν)

/-- The digest of a receipt: the one that is given, if it is one, or else that of
the metadata. -/
def issuedDigest : String :=
  match params.metadataDigest.filter isValidHexDigest with
  | some digest => rt.toLowerCase (trim digest)
  | none => rt.sha256Sync (canonicalizeMetadata (.obj (params.metadata.getD []) : Value ν))

/-- The properties of a receipt; `generatedId` is the identifier that is made up
where none is given. -/
def receiptFields : List (String × Value ν) :=
  [("receiptId", .str (params.receiptId.getD generatedId)), ("payrollId", .str params.payrollId),
    ("settlementStatus", .str params.statusOf), ("transactionReference", params.transactionReference.toValue),
    ("metadataDigest", .str (issuedDigest rt params)),
    ("metadata", (params.metadata.map Value.obj).getD .undefined), ("totalAmount", params.totalAmount),
    ("currency", params.currency), ("recipientCount", params.recipientCount),
    ("issuedAt", (params.issuedAtOf now).toValue), ("settledAt", params.settledAt), ("viewKeyId", params.viewKeyId),
    ("complianceHash", params.complianceHash), ("signature", params.signature),
    ("signerPublicKey", params.signerPublicKey), ("redacted", .bool (params.redacted.getD false))]

def createPayrollReceipt : Value ν := .obj (receiptFields rt generatedId now params)

end Issue

/-! ## What is verified -/

/-- A digest as it is computed. -/
def LowerHex (s : String) : Prop := s.toList.length = 64 ∧ ∀ c ∈ s.toList, c ∈ hexDigits

/-- What is relied on of the platform: the case of hexadecimal digits, and that a
digest is one, or empty where it cannot be computed. -/
structure DigestPlatform (rt : Runtime ν) : Prop where
  toLowerCase : ∀ s, (∀ c ∈ s.toList, (hexValue c).isSome = true) →
    rt.toLowerCase s = String.ofList (s.toList.map lowerAscii)
  sha256Sync : ∀ text, rt.sha256Sync text = "" ∨ LowerHex (rt.sha256Sync text)

section Verify

variable [NumberFormat ν] [CommRing ν] [LinearOrder ν]

/-- The receipt is verified at the time `later`, as receipts are by default. -/
structure Verifiable (rt : Runtime ν) (generatedId : String) (now later : ν) (params : CreatePayrollReceiptParams ν) :
    Prop where
  receiptId : isBlank (params.receiptId.getD generatedId) = false
  payrollId : isBlank params.payrollId = false
  settled : params.statusOf = "settled" ∨ params.statusOf = "confirmed"
  transaction : isBlank params.transactionReference.hash = false
  digest : issuedDigest rt params ≠ ""
  metadata : ∀ metadata ∈ params.metadata, issuedDigest rt params = computeMetadataDigest rt (.obj metadata)
  issuedAt : ∃ issuedAt, parseTimestampToMs rt (params.issuedAtOf now) = some issuedAt ∧
    JsNumber.lt (.finite (later + 60000)) issuedAt = false

/-- What verification tells of a receipt that was issued. -/
structure IssuedVerifies (rt : Runtime ν) (generatedId : String) (now later : ν) (params : CreatePayrollReceiptParams ν) :
    Prop where
  verifies_iff : (verifyPayrollReceipt rt later (createPayrollReceipt rt generatedId now params) {}).isValid = true ↔
    Verifiable rt generatedId now later params
  /-- With other metadata the receipt is verified only if they have its digest. -/
  evident : ∀ metadata, (verifyPayrollReceipt rt later
      (.obj (setKey "metadata" (.obj metadata) (receiptFields rt generatedId now params))) {}).isValid = true →
    computeMetadataDigest rt (.obj metadata) = issuedDigest rt params

end Verify

/-! ## Digests -/

theorem lowerAscii_mem_hexDigits {c : Char} (h : (hexValue c).isSome = true) : lowerAscii c ∈ hexDigits := by
  have hlt : c.toNat < 103 := by
    unfold hexValue at h
    split at h
    · omega
    · split at h
      · omega
      · split at h
        · omega
        · cases h
  exact of_codePoints (P := fun c => (hexValue c).isSome = true → lowerAscii c ∈ hexDigits) (by decide) hlt h

section Digests

variable {rt : Runtime ν} (hrt : DigestPlatform rt) {s : String}

theorem LowerHex.trimChars_eq (h : LowerHex s) : trimChars s.toList = s.toList := by
  exact trimChars_of_no_space fun c hc => (hexDigits_lower c (h.2 c hc)).1

theorem lowerHex_of_all (h : (s.toList.length == 64 && s.toList.all hexDigits.contains) = true) : LowerHex s := by
  rw [Bool.and_eq_true, beq_iff_eq, List.all_eq_true] at h
  exact ⟨h.1, fun c hc => List.contains_iff_mem.mp (h.2 c hc)⟩

theorem LowerHex.trim_eq (h : LowerHex s) : trim s = s := by
  rw [trim, h.trimChars_eq, String.ofList_toList]

theorem LowerHex.isValid (h : LowerHex s) : isValidHexDigest s = true := by
  rw [isValidHexDigest, h.trimChars_eq, Bool.and_eq_true, beq_iff_eq, List.all_eq_true]
  exact ⟨h.1, fun c hc => (hexDigits_lower c (h.2 c hc)).2.1⟩

theorem LowerHex.not_blank (h : LowerHex s) : isBlank s = false := by
  rw [isBlank, h.trimChars_eq, List.isEmpty_eq_false_iff]
  exact List.ne_nil_of_length_pos (by rw [h.1]; decide)

include hrt

theorem DigestPlatform.toLowerCase_eq (h : s = "" ∨ LowerHex s) : rt.toLowerCase s = s := by
  have hdigits : ∀ c ∈ s.toList, c ∈ hexDigits := by
    rcases h with rfl | h
    · exact List.forall_mem_nil _
    · exact h.2
  rw [hrt.toLowerCase s fun c hc => (hexDigits_lower c (hdigits c hc)).2.1,
    List.map_congr_left fun c hc => (hexDigits_lower c (hdigits c hc)).2.2, List.map_id', String.ofList_toList]

/-- A digest that is given becomes one as they are computed. -/
theorem DigestPlatform.lowerHex_of_valid (h : isValidHexDigest s = true) : LowerHex (rt.toLowerCase (trim s)) := by
  rw [isValidHexDigest, Bool.and_eq_true, beq_iff_eq, List.all_eq_true] at h
  have htrim : (trim s).toList = trimChars s.toList := String.toList_ofList
  rw [hrt.toLowerCase (trim s) (by rw [htrim]; exact h.2), LowerHex, String.toList_ofList, List.length_map, htrim]
  refine ⟨h.1, fun c hc => ?_⟩
  obtain ⟨d, hd, rfl⟩ := List.mem_map.mp hc
  exact lowerAscii_mem_hexDigits (h.2 d hd)

theorem DigestPlatform.issuedDigest_cases [NumberFormat ν] (params : CreatePayrollReceiptParams ν) :
    issuedDigest rt params = "" ∨ LowerHex (issuedDigest rt params) := by
  rw [issuedDigest]
  split
  · rename_i digest hdigest
    exact .inr (hrt.lowerHex_of_valid (Option.filter_eq_some_iff.mp hdigest).2)
  · exact hrt.sha256Sync _

theorem DigestPlatform.digestOf_iff [NumberFormat ν] {receipt : PayrollReceipt ν} {metadata : Value ν}
    (h : LowerHex receipt.metadataDigest) :
    DigestOf rt receipt metadata ↔ receipt.metadataDigest = computeMetadataDigest rt metadata := by
  rw [DigestOf, h.trim_eq, hrt.toLowerCase_eq (.inr h), computeMetadataDigest,
    hrt.toLowerCase_eq (hrt.sha256Sync _)]

end Digests

/-! ## Reading a receipt -/

section Read

variable {rt : Runtime ν} {generatedId : String} {now : ν} {params : CreatePayrollReceiptParams ν}

theorem nonBlank_str {s t : String} : nonBlank (.str s : Value ν) = some t ↔ isBlank s = false ∧ t = s := by
  rw [nonBlank]
  split
  · rename_i h
    simp [h]
  · rename_i h
    rw [Bool.not_eq_true] at h
    simp [h, eq_comm]

theorem readTransactionReference_toValue {t t' : TransactionReference} :
    readTransactionReference (t.toValue : Value ν) = some t' ↔ isBlank t.hash = false ∧ t' = t := by
  cases t with
  | text s =>
    show (if isBlank s then none else some (.text s)) = some t' ↔ isBlank s = false ∧ t' = .text s
    cases isBlank s with
    | true => simp
    | false => simp [eq_comm]
  | record txHash =>
    show (nonBlank (.str txHash : Value ν)).map TransactionReference.record = some t' ↔ _
    rw [Option.map_eq_some_iff]
    simp only [nonBlank_str, TransactionReference.hash]
    constructor
    · rintro ⟨s, ⟨hblank, rfl⟩, rfl⟩
      exact ⟨hblank, rfl⟩
    · rintro ⟨hblank, rfl⟩
      exact ⟨txHash, ⟨hblank, rfl⟩, rfl⟩

theorem readIssuedAt_issuedAtOf : readIssuedAt (params.issuedAtOf now).toValue = some (params.issuedAtOf now) := by
  rw [CreatePayrollReceiptParams.issuedAtOf]
  split <;> rfl

variable {receipt : PayrollReceipt ν}

/-- What is read of an object that has the properties of a receipt. -/
theorem readReceipt_obj {fields : List (String × Value ν)} :
    readReceipt (.obj fields) = some receipt ↔
      nonBlank (field fields "receiptId") = some receipt.receiptId ∧
      nonBlank (field fields "payrollId") = some receipt.payrollId ∧
      nonBlank (field fields "settlementStatus") = some receipt.settlementStatus ∧
      nonBlank (field fields "metadataDigest") = some receipt.metadataDigest ∧
      readTransactionReference (field fields "transactionReference") = some receipt.transactionReference ∧
      readIssuedAt (field fields "issuedAt") = some receipt.issuedAt ∧
      receipt.metadata = field fields "metadata" ∧ receipt.signature = field fields "signature" ∧
      receipt.signerPublicKey = field fields "signerPublicKey" := by
  simp only [readReceipt, Option.bind_eq_bind, Option.bind_eq_some_iff, Option.pure_def, Option.some.injEq]
  constructor
  · rintro ⟨id, hid, payrollId, hp, status, hs, digest, hd, tx, ht, issuedAt, hi, rfl⟩
    exact ⟨hid, hp, hs, hd, ht, hi, rfl, rfl, rfl⟩
  · rintro ⟨hid, hp, hs, hd, ht, hi, hm, hsig, hkey⟩
    refine ⟨_, hid, _, hp, _, hs, _, hd, _, ht, _, hi, ?_⟩
    rw [← hm, ← hsig, ← hkey]

variable [NumberFormat ν]

theorem readReceipt_createPayrollReceipt :
    readReceipt (createPayrollReceipt rt generatedId now params) = some receipt ↔
      (isBlank (params.receiptId.getD generatedId) = false ∧ isBlank params.payrollId = false ∧
        isBlank params.statusOf = false ∧ isBlank (issuedDigest rt params) = false ∧
        isBlank params.transactionReference.hash = false) ∧
      receipt = {
        receiptId := params.receiptId.getD generatedId
        payrollId := params.payrollId
        settlementStatus := params.statusOf
        transactionReference := params.transactionReference
        metadataDigest := issuedDigest rt params
        metadata := (params.metadata.map Value.obj).getD .undefined
        issuedAt := params.issuedAtOf now
        signature := params.signature
        signerPublicKey := params.signerPublicKey } := by
  have hfields : ∀ v : Value ν, ∀ name, (receiptFields rt generatedId now params).lookup name = some v →
      field (receiptFields rt generatedId now params) name = v := by
    intro v name h
    rw [field, h, Option.getD_some]
  rw [createPayrollReceipt, readReceipt_obj, hfields _ "receiptId" rfl, hfields _ "payrollId" rfl,
    hfields _ "settlementStatus" rfl, hfields _ "metadataDigest" rfl, hfields _ "transactionReference" rfl,
    hfields _ "issuedAt" rfl, hfields _ "metadata" rfl, hfields _ "signature" rfl, hfields _ "signerPublicKey" rfl,
    nonBlank_str, nonBlank_str, nonBlank_str, nonBlank_str, readTransactionReference_toValue, readIssuedAt_issuedAtOf,
    Option.some.injEq]
  constructor
  · rintro ⟨⟨hid, h₁⟩, ⟨hp, h₂⟩, ⟨hs, h₃⟩, ⟨hd, h₄⟩, ⟨ht, h₅⟩, h₆, h₇, h₈, h₉⟩
    refine ⟨⟨hid, hp, hs, hd, ht⟩, ?_⟩
    cases receipt
    simp_all
  · rintro ⟨⟨hid, hp, hs, hd, ht⟩, rfl⟩
    exact ⟨⟨hid, rfl⟩, ⟨hp, rfl⟩, ⟨hs, rfl⟩, ⟨hd, rfl⟩, ⟨ht, rfl⟩, rfl, rfl, rfl, rfl⟩

/-- Other metadata in a receipt leave the digest as it is. -/
theorem readReceipt_setMetadata {metadata : Value ν}
    (h : readReceipt (.obj (setKey "metadata" metadata (receiptFields rt generatedId now params))) = some receipt) :
    receipt.metadata = metadata ∧ receipt.metadataDigest = issuedDigest rt params := by
  obtain ⟨-, -, -, hdigest, -, -, hmetadata, -, -⟩ := readReceipt_obj.mp h
  simp only [field, lookup_setKey] at hdigest hmetadata
  have hlookup : (receiptFields rt generatedId now params).lookup "metadataDigest" =
      some (.str (issuedDigest rt params)) := rfl
  rw [if_neg (by decide), hlookup, Option.getD_some, nonBlank_str] at hdigest
  exact ⟨hmetadata, hdigest.2⟩

end Read

/-! ## Verification -/

section Verify

variable [NumberFormat ν] [CommRing ν] [LinearOrder ν] {rt : Runtime ν} {generatedId : String} {now later : ν}
  {params : CreatePayrollReceiptParams ν} {receipt : PayrollReceipt ν}

/-- What the default options expect. -/
theorem expected_default_iff : Expected rt later {} receipt ↔
    (receipt.settlementStatus = "settled" ∨ receipt.settlementStatus = "confirmed") ∧
      isValidHexDigest receipt.metadataDigest = true ∧
      (isUndefined receipt.metadata = false → DigestOf rt receipt receipt.metadata) ∧
      ∃ issuedAt, parseTimestampToMs rt receipt.issuedAt = some issuedAt ∧
        JsNumber.lt (.finite (later + 60000)) issuedAt = false := by
  constructor
  · intro h
    obtain ⟨issuedAt, hissued, hfresh⟩ := h.issuedAt
    have hstatus := h.status ["settled", "confirmed"] rfl
    exact ⟨by simpa using hstatus, h.digest, h.embedded rfl, issuedAt, hissued, hfresh.past⟩
  · rintro ⟨hstatus, hdigest, hembedded, issuedAt, hissued, hpast⟩
    refine ⟨nofun, nofun, ?_, hdigest, nofun, nofun, fun _ => hembedded, ⟨issuedAt, hissued, hpast, nofun⟩, nofun, nofun⟩
    intro allowed hallowed
    cases hallowed
    simpa using hstatus

theorem isValid_default_iff {candidate : Value ν} : (verifyPayrollReceipt rt later candidate {}).isValid = true ↔
    ∃ receipt, readReceipt candidate = some receipt ∧ Expected rt later {} receipt := by
  rw [isValid_iff]
  simp

/-- A receipt is verified as its parameters say, and with no metadata but those
that its digest is of. -/
theorem receipts_verify (hrt : DigestPlatform rt) (generatedId : String) (now later : ν)
    (params : CreatePayrollReceiptParams ν) : IssuedVerifies rt generatedId now later params where
  verifies_iff := by
    rw [isValid_default_iff]
    simp only [readReceipt_createPayrollReceipt, expected_default_iff]
    constructor
    · rintro ⟨receipt, ⟨⟨hid, hp, hs, hd, ht⟩, rfl⟩, hsettled, hdigest, hembedded, hissued⟩
      have hne : issuedDigest rt params ≠ "" := ne_empty_of_not_blank hd
      have hlower := (hrt.issuedDigest_cases params).resolve_left hne
      refine ⟨hid, hp, hsettled, ht, hne, fun metadata hmetadata => ?_, hissued⟩
      rw [Option.mem_def.mp hmetadata] at hembedded
      exact (hrt.digestOf_iff hlower).mp (hembedded rfl)
    · intro h
      have hlower := (hrt.issuedDigest_cases params).resolve_left h.digest
      have hstatus : isBlank params.statusOf = false := by
        rcases h.settled with hs | hs
        · rw [hs]
          decide
        · rw [hs]
          decide
      refine ⟨_, ⟨⟨h.receiptId, h.payrollId, hstatus, hlower.not_blank, h.transaction⟩, rfl⟩, h.settled, hlower.isValid,
        ?_, h.issuedAt⟩
      intro hdefined
      cases hmetadata : params.metadata with
      | none =>
        rw [hmetadata] at hdefined
        cases hdefined
      | some metadata =>
        exact (hrt.digestOf_iff hlower).mpr (h.metadata metadata hmetadata)
  evident metadata hvalid := by
    obtain ⟨receipt, hread, hexpected⟩ := isValid_default_iff.mp hvalid
    obtain ⟨hmetadata, hdigest⟩ := readReceipt_setMetadata hread
    obtain ⟨-, hvalidDigest, hembedded, -⟩ := expected_default_iff.mp hexpected
    rw [hmetadata] at hembedded
    have hlower : LowerHex receipt.metadataDigest := by
      rw [hdigest] at hvalidDigest ⊢
      refine (hrt.issuedDigest_cases params).resolve_left fun hempty => ?_
      rw [hempty] at hvalidDigest
      exact absurd hvalidDigest (by decide)
    have heq := (hrt.digestOf_iff hlower).mp (hembedded rfl)
    rw [← heq, hdigest]

end Verify

theorem lowerHex_hexEncode {bytes : List UInt8} (h : bytes.length = 32) : LowerHex (String.ofList (hexEncode bytes)) := by
  rw [LowerHex, String.toList_ofList, length_hexEncode, h]
  exact ⟨rfl, fun c hc => mem_hexEncode hc⟩

/-- With `sha256Sync`, whether Node's crypto can be loaded or not, all that is
relied on is the case of hexadecimal digits. -/
theorem digestPlatform_withNodeCrypto {rt : Runtime ν} (nodeCrypto : Bool)
    (h : ∀ s, (∀ c ∈ s.toList, (hexValue c).isSome = true) → rt.toLowerCase s = String.ofList (s.toList.map lowerAscii)) :
    DigestPlatform (rt.withNodeCrypto nodeCrypto) where
  toLowerCase := h
  sha256Sync text := by
    show Receipts.sha256Sync nodeCrypto text = "" ∨ LowerHex (Receipts.sha256Sync nodeCrypto text)
    rw [Receipts.sha256Sync]
    split
    · exact .inr (lowerHex_hexEncode (Sha256.length_digest ..))
    · rw [pureJsSha256]
      simp only []
      split
      · exact .inl rfl
      · exact .inr (lowerHex_hexEncode rfl)

theorem digestPlatform_exampleRuntime : DigestPlatform exampleRuntime where
  toLowerCase _ _ := rfl
  sha256Sync text := by
    refine .inr ?_
    show LowerHex (if text = "\x7b\x7d" then _ else _)
    split
    · exact lowerHex_of_all (by decide +kernel)
    · exact lowerHex_of_all (by decide +kernel)

/-- A receipt for a payroll, with empty metadata, is verified when it is issued. -/
theorem issued_receipt_verified :
    (verifyPayrollReceipt exampleRuntime 20000000000 (createPayrollReceipt exampleRuntime "rcpt_1" 20000000000
      { payrollId := "p", transactionReference := .record "AB", metadata := some [] }) {}).isValid = true := by
  refine (receipts_verify digestPlatform_exampleRuntime "rcpt_1" 20000000000 20000000000
    { payrollId := "p", transactionReference := .record "AB", metadata := some [] }).verifies_iff.mpr ?_
  refine ⟨by decide, by decide, .inl rfl, by decide, by decide +kernel, ?_, _, rfl, by decide +kernel⟩
  intro metadata hmetadata
  cases hmetadata
  rfl

end ZkPayroll.Receipts
