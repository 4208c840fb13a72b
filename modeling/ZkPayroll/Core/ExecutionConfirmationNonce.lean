import Mathlib.Algebra.Order.Ring.Int
import Mathlib.Data.Nat.Digits.Defs
import ZkPayroll.Framework.Encoding
import ZkPayroll.Framework.Guards
import ZkPayroll.Framework.JsArithmetic
import ZkPayroll.Framework.Separated

/-!
# Execution confirmation nonces

`generateExecutionNonce` and `validateExecutionNonce` of
`core/executionConfirmationNonce.ts`. The clock is the argument `now`, in whole
milliseconds, and the random bytes are an argument of the generator. The
functions that look for a used nonce and mark one may throw an error of any
type `ε`. A validator accepts a nonce exactly when it is `Genuine` and its time
passes (`accepts_iff`).
-/

namespace ZkPayroll.Core

open Framework

variable {ν ε : Type}

/-! ## Data -/

inductive NonceValidationCode where
  | VALID
  | EXPIRED
  | ALREADY_USED
  | INVALID_FORMAT
  | INVALID_SIGNATURE
  | CLOCK_SKEW
  | OPERATION_MISMATCH
  | MISSING_NONCE
  deriving DecidableEq, Repr

inductive ExecutionOperationType where
  | payroll_execution
  | payment_submission
  | batch_confirmation
  | settlement_finalization
  | compliance_hold_release
  deriving DecidableEq, Repr

def ExecutionOperationType.name : ExecutionOperationType → String
  | .payroll_execution => "payroll_execution"
  | .payment_submission => "payment_submission"
  | .batch_confirmation => "batch_confirmation"
  | .settlement_finalization => "settlement_finalization"
  | .compliance_hold_release => "compliance_hold_release"

/-- Nothing reads `includeTimestamp`. -/
structure NonceGenerationOptions (ν : Type) where
  operationType : ExecutionOperationType
  contextId : Option String := none
  validityDurationMs : Option (JsNumber ν) := none

structure NonceValidationOptions (ν ε : Type) where
  operationType : ExecutionOperationType
  contextId : Option String := none
  maxClockSkewMs : Option (JsNumber ν) := none
  validityDurationMs : Option (JsNumber ν) := none
  checkIfUsed : Option (String → Except ε Bool) := none
  markAsUsed : Option (String → Except ε Unit) := none

structure NonceInfo (ν : Type) where
  nonce : String
  operationType : ExecutionOperationType
  contextId : Option String
  generatedAt : Int
  expiresAt : JsNumber ν
  deriving DecidableEq

structure NonceValidationResult (ν : Type) where
  valid : Bool
  code : NonceValidationCode
  message : String
  nonceInfo : Option (NonceInfo ν) := none
  deriving DecidableEq

/-! ## Numbers with 36 digits -/

def base36Digits : List Char := "0123456789abcdefghijklmnopqrstuvwxyz".toList

/-- `n.toString(36)`. -/
def base36 (n : Int) : List Char :=
  let digits := if n = 0 then ['0'] else (Nat.digits 36 n.natAbs).reverse.map fun d => base36Digits.getD d '0'
  if n < 0 then '-' :: digits else digits

/-- The value of a digit, of either case. -/
def digitValue36 (c : Char) : Option Nat :=
  if 48 ≤ c.toNat ∧ c.toNat ≤ 57 then some (c.toNat - 48)
  else if 97 ≤ c.toNat ∧ c.toNat ≤ 122 then some (c.toNat - 87)
  else if 65 ≤ c.toNat ∧ c.toNat ≤ 90 then some (c.toNat - 55)
  else none

/-- The digits that a text starts with, as a number. -/
def readDigits36 : Option Nat → List Char → Option Nat
  | n, [] => n
  | n, c :: cs =>
    match digitValue36 c with
    | none => n
    | some d => readDigits36 (some (36 * n.getD 0 + d)) cs

/-- `parseInt(s, 36)`, where `none` is `NaN`. -/
def parseInt36 (s : List Char) : Option Int :=
  match s.dropWhile isSpace with
  | '-' :: cs => (readDigits36 none cs).map fun n => -(n : Int)
  | '+' :: cs => (readDigits36 none cs).map fun n => (n : Int)
  | cs => (readDigits36 none cs).map fun n => (n : Int)

/-! ## Generation and validation -/

/-- `contextId.replace(/\./g, "-")` -/
def sanitizeContext (contextId : String) : String :=
  String.ofList (contextId.toList.map fun c => if c = '.' then '-' else c)

def createOperationScope (operationType : ExecutionOperationType) (contextId : Option String) : String :=
  match contextId with
  | none => operationType.name
  | some contextId =>
    if contextId = "" then operationType.name
    else operationType.name ++ ":" ++ sanitizeContext contextId

/-- `isValidHexString`, on the characters of the string. -/
def isValidHexString (str : List Char) (expectedByteLength : Nat) : Bool :=
  str.length == expectedByteLength * 2 && str.all fun c => (hexValue c).isSome

variable [CommRing ν]

/-- One hour. -/
def DEFAULT_NONCE_VALIDITY_MS : JsNumber ν := .finite 3600000

def generateExecutionNonce (now : Int) (random : Fin 16 → UInt8) (options : NonceGenerationOptions ν) :
    NonceInfo ν :=
  let validityMs := options.validityDurationMs.getD DEFAULT_NONCE_VALIDITY_MS
  let randomPart := hexEncode (List.ofFn random)
  let opScope := createOperationScope options.operationType options.contextId
  { nonce := opScope ++ "." ++ String.ofList (base36 now) ++ "." ++ String.ofList randomPart
    operationType := options.operationType
    contextId := options.contextId
    generatedAt := now
    expiresAt := JsNumber.add (.finite (now : ν)) validityMs }

def refused (code : NonceValidationCode) (message : String) : NonceValidationResult ν :=
  { valid := false, code := code, message := message }

/-- The skew that is allowed. -/
def maxSkewOf (options : NonceValidationOptions ν ε) : JsNumber ν :=
  options.maxClockSkewMs.getD (.finite ((60000 : Int) : ν))

/-- How long a nonce is valid. -/
def validityOf (options : NonceValidationOptions ν ε) : JsNumber ν :=
  options.validityDurationMs.getD DEFAULT_NONCE_VALIDITY_MS

/-- When the nonce expires. -/
def expiryTime (options : NonceValidationOptions ν ε) (generatedAt : Int) : JsNumber ν :=
  JsNumber.add (.finite (generatedAt : ν)) (validityOf options)

variable [LinearOrder ν]

/-- The nonce was generated longer ago than the clocks may differ. -/
def isSkewed (now : Int) (options : NonceValidationOptions ν ε) (generatedAt : Int) : Bool :=
  JsNumber.lt (maxSkewOf options) (.finite ((|now - generatedAt| : Int) : ν)) && decide (now > generatedAt)

/-- The checks of a nonce for which nothing else is asked, and its marking. -/
def claimNonce (options : NonceValidationOptions ν ε) (trimmedNonce : String) (generatedAt : Int) :
    Except ε (NonceValidationResult ν) := do
  if let some checkIfUsed := options.checkIfUsed then
    if ← checkIfUsed trimmedNonce then
      return refused .ALREADY_USED "Nonce has already been used; create a new execution with a fresh nonce"
  if let some markAsUsed := options.markAsUsed then
    markAsUsed trimmedNonce
  return {
    valid := true
    code := .VALID
    message := "Nonce is valid and confirmed"
    nonceInfo := some
      { nonce := trimmedNonce
        operationType := options.operationType
        contextId := options.contextId
        generatedAt := generatedAt
        expiresAt := expiryTime options generatedAt } }

def validateExecutionNonce (now : Int) (nonce : Option String) (options : NonceValidationOptions ν ε) :
    Except ε (NonceValidationResult ν) :=
  match nonce with
  | none => return refused .MISSING_NONCE "No nonce provided for operation confirmation"
  | some nonce =>
    if isBlank nonce then
      return refused .MISSING_NONCE "No nonce provided for operation confirmation"
    else
      match (trim nonce).toList.splitOn '.' with
      | [opScope, timestampPart, randomPart] =>
        if String.ofList opScope ≠ createOperationScope options.operationType options.contextId then
          return refused .OPERATION_MISMATCH "Nonce is not scoped to the expected operation"
        else
          -- `parseInt` does not throw
          match parseInt36 timestampPart with
          | none => return refused .INVALID_FORMAT "Nonce timestamp is malformed"
          | some generatedAt =>
            if isSkewed now options generatedAt then
              return refused .CLOCK_SKEW "Nonce timestamp is outside acceptable range"
            else if JsNumber.lt (expiryTime options generatedAt) (.finite (now : ν)) then
              return refused .EXPIRED "Nonce has expired and is no longer valid"
            else if isValidHexString randomPart 32 = false then
              return refused .INVALID_SIGNATURE "Nonce signature validation failed"
            else
              claimNonce options (trim nonce) generatedAt
      | _ => return refused .INVALID_FORMAT "Nonce format is invalid"

/-! ## Acceptance -/

/-- The nonce is reported valid. -/
def Accepts (now : Int) (nonce : String) (options : NonceValidationOptions ν ε) : Prop :=
  ∃ result, validateExecutionNonce now (some nonce) options = .ok result ∧ result.valid = true

/-- Neither function of the caller objects to the nonce. -/
structure ReplayPasses (options : NonceValidationOptions ν ε) (nonce : String) : Prop where
  unused : ∀ checkIfUsed ∈ options.checkIfUsed, checkIfUsed (trim nonce) = .ok false
  marked : ∀ markAsUsed ∈ options.markAsUsed, markAsUsed (trim nonce) = .ok ()

/-- The nonce, which carries the time `generatedAt`, passes every check but
those of the time. -/
structure Genuine (options : NonceValidationOptions ν ε) (nonce : String) (generatedAt : Int) : Prop where
  parts : ∃ timestampPart randomPart,
    (trim nonce).toList.splitOn '.' =
      [(createOperationScope options.operationType options.contextId).toList, timestampPart, randomPart] ∧
    parseInt36 timestampPart = some generatedAt ∧ isValidHexString randomPart 32 = true
  replay : ReplayPasses options nonce

omit [LinearOrder ν] in
theorem claimNonce_valid_iff {options : NonceValidationOptions ν ε} {nonce : String} {generatedAt : Int} :
    (∃ result, claimNonce options (trim nonce) generatedAt = .ok result ∧ result.valid = true) ↔
      ReplayPasses options nonce := by
  constructor
  · rintro ⟨result, h, hvalid⟩
    constructor
    · intro check hcheck
      rw [claimNonce, Option.mem_def.mp hcheck] at h
      obtain ⟨used, hused, h⟩ := except_bind_eq_ok.mp h
      cases used with
      | true =>
        cases h
        cases hvalid
      | false => exact hused
    · intro mark hmark
      rw [claimNonce, Option.mem_def.mp hmark] at h
      cases hc : options.checkIfUsed with
      | none =>
        rw [hc] at h
        obtain ⟨⟨⟩, hmarked, -⟩ := except_bind_eq_ok.mp h
        exact hmarked
      | some check =>
        rw [hc] at h
        obtain ⟨used, -, h⟩ := except_bind_eq_ok.mp h
        cases used with
        | true =>
          cases h
          cases hvalid
        | false =>
          obtain ⟨⟨⟩, hmarked, -⟩ := except_bind_eq_ok.mp h
          exact hmarked
  · intro h
    rw [claimNonce]
    cases hc : options.checkIfUsed with
    | none =>
      cases hm : options.markAsUsed with
      | none => exact ⟨_, rfl, rfl⟩
      | some mark => exact ⟨_, except_bind_eq_ok.mpr ⟨(), h.marked mark hm, rfl⟩, rfl⟩
    | some check =>
      have hunused := h.unused check hc
      cases hm : options.markAsUsed with
      | none => exact ⟨_, except_bind_eq_ok.mpr ⟨false, hunused, rfl⟩, rfl⟩
      | some mark =>
        exact ⟨_, except_bind_eq_ok.mpr ⟨false, hunused,
          except_bind_eq_ok.mpr ⟨(), h.marked mark hm, rfl⟩⟩, rfl⟩

/-- What a validator accepts. -/
theorem accepts_iff {now : Int} {nonce : String} {options : NonceValidationOptions ν ε} :
    Accepts now nonce options ↔ ∃ generatedAt, Genuine options nonce generatedAt ∧
      isSkewed now options generatedAt = false ∧
      JsNumber.lt (expiryTime options generatedAt) (.finite (now : ν)) = false := by
  constructor
  · rintro ⟨result, h, hvalid⟩
    have hrefused : ∀ {code message}, (.ok (refused code message) : Except ε _) = .ok result → False := by
      intro code message h
      cases h
      cases hvalid
    rw [validateExecutionNonce] at h
    split at h
    · exact absurd h hrefused
    split at h
    case h_2 => exact absurd h hrefused
    rename_i opScope timestampPart randomPart hsplit
    split at h
    · exact absurd h hrefused
    rename_i hscope
    split at h
    · exact absurd h hrefused
    rename_i generatedAt hparse
    split at h
    · exact absurd h hrefused
    rename_i hskew
    split at h
    · exact absurd h hrefused
    rename_i hexpired
    split at h
    · exact absurd h hrefused
    rename_i hhex
    refine ⟨generatedAt, ⟨⟨timestampPart, randomPart, ?_, hparse, by simpa using hhex⟩, ?_⟩, by simpa using hskew,
      by simpa using hexpired⟩
    · rw [hsplit, ← not_not.mp hscope, String.toList_ofList]
    · exact claimNonce_valid_iff.mp ⟨result, h, hvalid⟩
  · rintro ⟨generatedAt, ⟨⟨timestampPart, randomPart, hsplit, hparse, hhex⟩, hreplay⟩, hskew, hexpired⟩
    obtain ⟨result, hclaim, hvalid⟩ : ∃ result, claimNonce options (trim nonce) generatedAt = .ok result ∧ _ :=
      claimNonce_valid_iff.mpr hreplay
    have hblank : isBlank nonce = false := by
      rw [Bool.eq_false_iff]
      intro hblank
      have hnil := splitOn_of_isBlank hblank
      rw [← String.toList_ofList (l := trimChars nonce.toList), ← trim, hsplit] at hnil
      simp at hnil
    refine ⟨result, ?_, hvalid⟩
    simp only [validateExecutionNonce, hblank, hsplit, String.ofList_toList, hparse, hskew, hexpired, hhex]
    simpa using hclaim

end ZkPayroll.Core
