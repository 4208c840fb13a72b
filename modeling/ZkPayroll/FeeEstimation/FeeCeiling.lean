import ZkPayroll.Framework.DecimalText
import ZkPayroll.Framework.Guards
import ZkPayroll.Framework.JsArithmetic

/-!
# The ceiling of a transaction fee

`fee-estimation/feeCeiling.ts`, and `buildEstimate` of
`fee-estimation/transactionFeeEstimator.ts`. A fee and a ceiling are integers in
one of several representations, all of which are read alike
(`parseStroops_eq_ok_iff`).

The basis points of a fee are rounded down, and are yet compared with the warning
band as the fee itself is (`le_utilizationBps_iff`). So a fee passes where it is
between zero and a positive ceiling, and approaches it where its share is that of
the band (`compareFee_eq`); the other entry points tell the same
(`judged`), and no estimate is above its ceiling
(`buildEstimate_le_feeCeiling`). A band that is no integer between 0 and 10000
is refused, whatever the fee (`validateFeeCeiling_of_no_band`).
-/

namespace ZkPayroll.FeeEstimation

open Framework

variable {ν : Type}

/-! ## Data -/

inductive FeeCeilingErrorCode where
  | FEE_REQUIRED
  | FEE_INVALID
  | FEE_NEGATIVE
  | CEILING_REQUIRED
  | CEILING_INVALID
  | WARN_BAND_INVALID
  | FEE_EXCEEDS_CEILING
  deriving DecidableEq

/-- Why a fee is refused. -/
inductive FailureState where
  | exceeds_ceiling
  | invalid
  deriving DecidableEq

/-- How a fee passes. -/
inductive PassingState where
  | within_ceiling
  | approaching_ceiling
  deriving DecidableEq

/-- A validation that has `ok: false`. -/
structure Failure where
  code : FeeCeilingErrorCode
  state : FailureState
  message : String
  deriving DecidableEq

/-- A validation that has `ok: true`. -/
structure Passed where
  state : PassingState
  fee : Int
  ceiling : Int
  headroom : Int
  utilizationBps : Int
  warning : Option String
  deriving DecidableEq

/-- An amount of stroops as a caller gives it. -/
inductive RawStroops (ν : Type) where
  /-- `undefined` or `null`. -/
  | missing
  | bigint (n : Int)
  | number (n : JsNumber ν)
  | text (s : String)
  | other

structure FeeCeilingValidationOptions (ν : Type) where
  warnBps : Option (JsNumber ν) := none
  label : Option String := none

/-- `TransactionFeeCeilingError`. -/
structure TransactionFeeCeilingError where
  message : String
  code : FeeCeilingErrorCode
  state : FailureState
  fee : Option Int
  ceiling : Option Int

structure TransactionFeeEstimate where
  baseFee : Int
  resourceFee : Int
  bufferFee : Int
  totalFee : Int
  operationCount : Nat
  exact : Bool
  breakdown : String

def DEFAULT_FEE_CEILING_WARN_BPS : Int := 8000

def BPS_DENOMINATOR : Int := 10000

/-! ## Validation -/

/-- Why a fee is not read. -/
inductive ParseFailure where
  | missing
  | invalid

section Validation

variable [CommRing ν] [LinearOrder ν] [FloorRing ν]

def parseStroops : RawStroops ν → Except ParseFailure Int
  | .missing => .error .missing
  | .bigint n => .ok n
  | .number n =>
    match n.toInteger with
    | some n => .ok n
    | none => .error .invalid
  | .text s =>
    let trimmed := trimChars s.toList
    if isSignedDigits trimmed then
      match bigIntOf (String.ofList trimmed) with
      | some n => .ok n
      | none => .error .invalid -- not reached: a signed text of digits is one that is read
    else .error .invalid
  | .other => .error .invalid

def failure (code : FeeCeilingErrorCode) (state : FailureState) (message : String) : Failure where
  code := code
  state := state
  message := message

/-- The name of the operation, as it stands in messages. -/
def scope (label : Option String) : String :=
  match label with
  | some label => if isBlank label then "" else " for " ++ trim label
  | none => ""

/-- `Math.round((utilizationBps / 100) * 100) / 100`, written. -/
def percentText (utilizationBps : Int) : String :=
  let whole := utilizationBps / 100
  let cents := utilizationBps % 100
  if cents = 0 then s!"{whole}"
  else if cents % 10 = 0 then s!"{whole}.{cents / 10}"
  else s!"{whole}.{cents / 10}{cents % 10}"

/-- The warning band of the options, if it is an integer between 0 and 10000. -/
def warnBand (options : FeeCeilingValidationOptions ν) : Option Int :=
  match options.warnBps with
  | none => some DEFAULT_FEE_CEILING_WARN_BPS
  | some warnBps => warnBps.toInteger.filter fun w => 0 ≤ w ∧ w ≤ BPS_DENOMINATOR

/-- The ceiling, where it is a positive number of stroops. -/
def readCeiling (ceiling : RawStroops ν) : Except Failure Int :=
  match parseStroops ceiling with
  | .error .missing =>
    .error (failure .CEILING_REQUIRED .invalid
      "A fee ceiling is required: configure the maximum total fee in stroops.")
  | .error .invalid =>
    .error (failure .CEILING_INVALID .invalid "Fee ceiling must be an integer number of stroops.")
  | .ok value =>
    if value ≤ 0 then
      .error (failure .CEILING_INVALID .invalid "Fee ceiling must be a positive integer number of stroops.")
    else .ok value

/-- The fee, where it is a number of stroops that is not negative. -/
def readFee (fee : RawStroops ν) : Except Failure Int :=
  match parseStroops fee with
  | .error .missing =>
    .error (failure .FEE_REQUIRED .invalid "A transaction fee estimate is required for ceiling validation.")
  | .error .invalid =>
    .error (failure .FEE_INVALID .invalid "Transaction fee must be an integer number of stroops.")
  | .ok value =>
    if value < 0 then .error (failure .FEE_NEGATIVE .invalid "Transaction fee must not be negative.") else .ok value

/-- What `validateFeeCeiling` makes of a fee and a ceiling that are read. -/
def compareFee (feeValue ceilingValue warnBps : Int) (label : Option String) : Except Failure Passed :=
  -- the division of two `bigint`s rounds towards zero
  let utilizationBps := (feeValue * BPS_DENOMINATOR).tdiv ceilingValue
  let headroom := ceilingValue - feeValue
  if feeValue > ceilingValue then
    .error (failure .FEE_EXCEEDS_CEILING .exceeds_ceiling
      (s!"Estimated transaction fee of {feeValue} stroops exceeds the configured ceiling of {ceilingValue} stroops by " ++
        s!"{feeValue - ceilingValue} stroops{scope label}. Raise the ceiling or reduce the transaction's resource usage " ++
        "before signing."))
  else
    let approaching := warnBps > 0 ∧ utilizationBps ≥ warnBps
    let percent := percentText utilizationBps
    .ok {
      state := if approaching then .approaching_ceiling else .within_ceiling
      fee := feeValue
      ceiling := ceilingValue
      headroom := headroom
      utilizationBps := utilizationBps
      warning :=
        if approaching then
          some (s!"Estimated transaction fee is at {percent}% of the configured ceiling{scope label} " ++
            s!"({feeValue} of {ceilingValue} stroops).")
        else none }

def validateFeeCeiling (fee ceiling : RawStroops ν) (options : FeeCeilingValidationOptions ν := {}) :
    Except Failure Passed :=
  match warnBand options with
  | none =>
    .error (failure .WARN_BAND_INVALID .invalid s!"warnBps must be an integer between 0 and {BPS_DENOMINATOR}.")
  | some warnBps => do
    let ceilingValue ← readCeiling ceiling
    let feeValue ← readFee fee
    compareFee feeValue ceilingValue warnBps options.label

/-- `typeof raw === "bigint" ? raw : undefined`. -/
def RawStroops.asBigint : RawStroops ν → Option Int
  | .bigint n => some n
  | _ => none

def assertFeeWithinCeiling (fee ceiling : RawStroops ν) (options : FeeCeilingValidationOptions ν := {}) :
    Except TransactionFeeCeilingError Unit :=
  match ceiling with
  | .missing => .ok ()
  | ceiling =>
    match validateFeeCeiling fee ceiling options with
    | .ok _ => .ok ()
    | .error failure =>
      .error {
        message := failure.message
        code := failure.code
        state := failure.state
        fee := fee.asBigint
        ceiling := ceiling.asBigint }

/-- `validateTransactionFeeCeiling` of an estimate that has a `totalFee`, or of
a value that is no object. -/
def validateTransactionFeeCeiling (estimate : Option (RawStroops ν)) (ceiling : RawStroops ν)
    (options : FeeCeilingValidationOptions ν := {}) : Except Failure Passed :=
  match estimate with
  | none =>
    .error (failure .FEE_REQUIRED .invalid "Fee estimate must be an object exposing a totalFee in stroops.")
  | some .missing => .error (failure .FEE_REQUIRED .invalid "Fee estimate must expose a totalFee in stroops.")
  | some totalFee => validateFeeCeiling totalFee ceiling options

def isFeeWithinCeiling (fee ceiling : RawStroops ν) : Bool := (validateFeeCeiling fee ceiling).isOk

end Validation

/-! ## Estimates -/

def formatBreakdown (baseFee resourceFee bufferFee totalFee : Int) (note : Option String) : String :=
  let parts := [s!"Base: {baseFee}", s!"Resource: {resourceFee}"] ++
    (if bufferFee > 0 then [s!"Buffer: {bufferFee}"] else []) ++ [s!"Total: {totalFee} stroops"]
  let detail := ", ".intercalate parts
  match note.filter (· ≠ "") with
  | some note => s!"{detail} ({note})"
  | none => detail

/-- The amount of an optional `bigint`. -/
def ofBigint (n : Option Int) : RawStroops Int :=
  match n with
  | some n => .bigint n
  | none => .missing

def buildEstimate (baseFee resourceFee : Int) (operationCount : Nat) (bufferBps : Int) (exact : Bool)
    (note : Option String) (feeCeiling : Option Int) : Except TransactionFeeCeilingError TransactionFeeEstimate := do
  let subtotal := baseFee + resourceFee
  let bufferFee := if bufferBps > 0 then (subtotal * bufferBps).tdiv BPS_DENOMINATOR else 0
  let totalFee := subtotal + bufferFee
  -- the total with its buffer is what the ceiling is compared with
  assertFeeWithinCeiling (.bigint totalFee) (ofBigint feeCeiling)
  return {
    baseFee := baseFee
    resourceFee := resourceFee
    bufferFee := bufferFee
    totalFee := totalFee
    operationCount := operationCount
    exact := exact
    breakdown := formatBreakdown baseFee resourceFee bufferFee totalFee note }

/-! ## Representations -/

section Representations

variable [CommRing ν] [LinearOrder ν] [FloorRing ν]

/-- The amount stands for an integer: it is that `bigint`, a number that is that
integer, or a text of its digits, with a sign or none and spaces around it. -/
inductive Represents : RawStroops ν → Int → Prop
  | bigint (n : Int) : Represents (.bigint n) n
  | number {n : JsNumber ν} {v : Int} (h : n.toInteger = some v) : Represents (.number n) v
  | text {s : String} (h : isSignedDigits (trimChars s.toList) = true) :
      Represents (.text s) (signedValue (trimChars s.toList))

theorem bigIntOf_signed {cs : List Char} (h : isSignedDigits cs = true) :
    bigIntOf (String.ofList cs) = some (signedValue cs) := by
  rw [bigIntOf, String.toList_ofList, trimChars_of_isSignedDigits h, bigIntLiteral_signed h]

/-- An amount is read exactly as the integer it stands for. -/
theorem parseStroops_eq_ok_iff {raw : RawStroops ν} {v : Int} : parseStroops raw = .ok v ↔ Represents raw v := by
  constructor
  · intro h
    cases raw with
    | missing => cases h
    | other => cases h
    | bigint n =>
      cases h
      exact .bigint _
    | number n =>
      cases hn : n.toInteger with
      | none => simp [parseStroops, hn] at h
      | some w =>
        simp only [parseStroops, hn, Except.ok.injEq] at h
        rw [← h]
        exact .number hn
    | text s =>
      rw [parseStroops] at h
      by_cases hs : isSignedDigits (trimChars s.toList) = true
      · simp only [if_pos hs, bigIntOf_signed hs, Except.ok.injEq] at h
        rw [← h]
        exact .text hs
      · simp [if_neg hs] at h
  · intro h
    cases h with
    | bigint => rfl
    | number h => simp only [parseStroops, h]
    | text h => simp only [parseStroops, if_pos h, bigIntOf_signed h]

end Representations

variable [CommRing ν] [LinearOrder ν] [FloorRing ν]

/-! ## Basis points -/

variable {fee ceiling warnBps : Int}

/-- Rounding down does not change how the share of a fee compares with a whole
number of basis points. -/
theorem le_utilizationBps_iff (hfee : 0 ≤ fee) (hceiling : 0 < ceiling) :
    warnBps ≤ (fee * BPS_DENOMINATOR).tdiv ceiling ↔ warnBps * ceiling ≤ fee * 10000 := by
  have hnonneg : 0 ≤ fee * BPS_DENOMINATOR := by
    show 0 ≤ fee * 10000
    omega
  rw [Int.tdiv_eq_ediv_of_nonneg hnonneg, Int.le_ediv_iff_mul_le hceiling]
  rfl

/-- What `validateFeeCeiling` tells of a fee within its ceiling. -/
structure Fits (fee ceiling warnBps : Int) (passed : Passed) : Prop where
  fee_eq : passed.fee = fee
  ceiling_eq : passed.ceiling = ceiling
  headroom_eq : passed.headroom = ceiling - fee
  approaching_iff : passed.state = .approaching_ceiling ↔ 0 < warnBps ∧ warnBps * ceiling ≤ fee * 10000

theorem compareFee_eq {label : Option String} (hfee : 0 ≤ fee) (hceiling : 0 < ceiling) :
    ((compareFee fee ceiling warnBps label).isOk = true ↔ fee ≤ ceiling) ∧
      ∀ passed, compareFee fee ceiling warnBps label = .ok passed → Fits fee ceiling warnBps passed := by
  unfold compareFee
  by_cases hexceeds : fee > ceiling
  · simp only [if_pos hexceeds]
    exact ⟨iff_of_false Bool.false_ne_true (by omega), by simp⟩
  · simp only [if_neg hexceeds]
    refine ⟨iff_of_true rfl (by omega), fun passed h => ?_⟩
    cases h
    refine ⟨rfl, rfl, rfl, ?_⟩
    rw [← le_utilizationBps_iff hfee hceiling]
    by_cases happroaching : warnBps > 0 ∧ (fee * BPS_DENOMINATOR).tdiv ceiling ≥ warnBps
    · simp only [if_pos happroaching]
      exact iff_of_true trivial happroaching
    · simp only [if_neg happroaching]
      exact iff_of_false (by simp) happroaching

/-! ## Validation -/

variable {raw : RawStroops ν}

theorem readCeiling_eq {ceiling : Int} (h : Represents raw ceiling) :
    readCeiling raw = if ceiling ≤ 0 then
        .error (failure .CEILING_INVALID .invalid "Fee ceiling must be a positive integer number of stroops.")
      else .ok ceiling := by
  rw [readCeiling, parseStroops_eq_ok_iff.mpr h]

theorem readFee_eq {fee : Int} (h : Represents raw fee) :
    readFee raw = if fee < 0 then
        .error (failure .FEE_NEGATIVE .invalid "Transaction fee must not be negative.")
      else .ok fee := by
  rw [readFee, parseStroops_eq_ok_iff.mpr h]

variable {options : FeeCeilingValidationOptions ν} {rawFee rawCeiling : RawStroops ν}

section

variable (hfee : Represents rawFee fee) (hceiling : Represents rawCeiling ceiling)
  (hband : warnBand options = some warnBps)
include hfee hceiling hband

/-- A validation by the integers that the amounts stand for. -/
theorem validateFeeCeiling_eq : validateFeeCeiling rawFee rawCeiling options =
      if ceiling ≤ 0 then
        .error (failure .CEILING_INVALID .invalid "Fee ceiling must be a positive integer number of stroops.")
      else if fee < 0 then .error (failure .FEE_NEGATIVE .invalid "Transaction fee must not be negative.")
      else compareFee fee ceiling warnBps options.label := by
  simp only [validateFeeCeiling, hband, readCeiling_eq hceiling, readFee_eq hfee]
  by_cases hpos : ceiling ≤ 0
  · rw [if_pos hpos, if_pos hpos]
    rfl
  · rw [if_neg hpos, if_neg hpos]
    by_cases hneg : fee < 0
    · rw [if_pos hneg, if_pos hneg]
      rfl
    · rw [if_neg hneg, if_neg hneg]
      rfl

theorem isOk_validateFeeCeiling :
    (validateFeeCeiling rawFee rawCeiling options).isOk = true ↔ (0 ≤ fee ∧ fee ≤ ceiling) ∧ 0 < ceiling := by
  rw [validateFeeCeiling_eq hfee hceiling hband]
  by_cases hpos : ceiling ≤ 0
  · rw [if_pos hpos]
    exact iff_of_false nofun (by omega)
  · rw [if_neg hpos]
    by_cases hneg : fee < 0
    · rw [if_pos hneg]
      exact iff_of_false nofun (by omega)
    · rw [if_neg hneg, (compareFee_eq (by omega) (by omega)).1]
      omega

theorem fits_of_validateFeeCeiling {passed : Passed}
    (h : validateFeeCeiling rawFee rawCeiling options = .ok passed) : Fits fee ceiling warnBps passed := by
  rw [validateFeeCeiling_eq hfee hceiling hband] at h
  split at h
  · cases h
  split at h
  · cases h
  · exact (compareFee_eq (by omega) (by omega)).2 passed h

end

/-- A band that is no integer between 0 and 10000 is refused. -/
theorem validateFeeCeiling_of_no_band (hband : warnBand options = none)
    (rawFee rawCeiling : RawStroops ν) :
    ∃ message, validateFeeCeiling rawFee rawCeiling options = .error (failure .WARN_BAND_INVALID .invalid message) := by
  rw [validateFeeCeiling, hband]
  exact ⟨_, rfl⟩

/-! ## The other entry points -/

theorem Represents.ne_missing {v : Int} (h : Represents raw v) : raw ≠ .missing := by
  rintro rfl
  cases h

theorem isOk_assertFeeWithinCeiling {fee ceiling : RawStroops ν} (h : ceiling ≠ .missing) :
    (assertFeeWithinCeiling fee ceiling options).isOk = (validateFeeCeiling fee ceiling options).isOk := by
  unfold assertFeeWithinCeiling
  split
  · exact absurd rfl h
  · cases validateFeeCeiling fee ceiling options <;> rfl

theorem validateTransactionFeeCeiling_eq {totalFee : RawStroops ν} (h : totalFee ≠ .missing) (ceiling : RawStroops ν)
    (options : FeeCeilingValidationOptions ν) :
    validateTransactionFeeCeiling (some totalFee) ceiling options = validateFeeCeiling totalFee ceiling options := by
  cases totalFee with
  | missing => exact absurd rfl h
  | _ => rfl

theorem warnBand_default : warnBand ({} : FeeCeilingValidationOptions ν) = some DEFAULT_FEE_CEILING_WARN_BPS := rfl

/-- What is told of a fee and a ceiling where the band is one of basis points. -/
structure Judged (rawFee rawCeiling : RawStroops ν) (options : FeeCeilingValidationOptions ν) (fee ceiling warnBps : Int) :
    Prop where
  accepts : (validateFeeCeiling rawFee rawCeiling options).isOk = true ↔ (0 ≤ fee ∧ fee ≤ ceiling) ∧ 0 < ceiling
  fits : ∀ passed, validateFeeCeiling rawFee rawCeiling options = .ok passed → Fits fee ceiling warnBps passed
  /-- Other representations of the integers are judged the same. -/
  alike : ∀ rawFee' rawCeiling' : RawStroops ν, Represents rawFee' fee → Represents rawCeiling' ceiling →
    validateFeeCeiling rawFee' rawCeiling' options = validateFeeCeiling rawFee rawCeiling options
  isFeeWithin : isFeeWithinCeiling rawFee rawCeiling = (validateFeeCeiling rawFee rawCeiling options).isOk
  asserts : (assertFeeWithinCeiling rawFee rawCeiling options).isOk = (validateFeeCeiling rawFee rawCeiling options).isOk
  ofEstimate : validateTransactionFeeCeiling (some rawFee) rawCeiling options = validateFeeCeiling rawFee rawCeiling options

theorem judged (hfee : Represents rawFee fee) (hceiling : Represents rawCeiling ceiling)
    (hband : warnBand options = some warnBps) :
    Judged rawFee rawCeiling options fee ceiling warnBps where
  accepts := isOk_validateFeeCeiling hfee hceiling hband
  fits _ h := fits_of_validateFeeCeiling hfee hceiling hband h
  alike rawFee' rawCeiling' hfee' hceiling' := by
    rw [validateFeeCeiling_eq hfee' hceiling' hband, validateFeeCeiling_eq hfee hceiling hband]
  isFeeWithin := by
    rw [Bool.eq_iff_iff, isOk_validateFeeCeiling hfee hceiling hband]
    exact isOk_validateFeeCeiling hfee hceiling warnBand_default
  asserts := isOk_assertFeeWithinCeiling hceiling.ne_missing
  ofEstimate := validateTransactionFeeCeiling_eq hfee.ne_missing rawCeiling options

/-! ## Estimates -/

/-- The parts of an estimate are its total, which is at most the ceiling. -/
theorem buildEstimate_le_feeCeiling {baseFee resourceFee bufferBps feeCeiling : Int} {operationCount : Nat} {exact : Bool}
    {note : Option String} {estimate : TransactionFeeEstimate}
    (h : buildEstimate baseFee resourceFee operationCount bufferBps exact note (some feeCeiling) = .ok estimate) :
    estimate.baseFee + estimate.resourceFee + estimate.bufferFee = estimate.totalFee ∧ estimate.totalFee ≤ feeCeiling := by
  obtain ⟨_, hassert, h⟩ := except_bind_eq_ok.mp h
  have hok := congrArg Except.isOk hassert
  rw [ofBigint, isOk_assertFeeWithinCeiling (show RawStroops.bigint feeCeiling ≠ .missing by nofun)] at hok
  cases h
  have hwithin := (isOk_validateFeeCeiling (.bigint _) (.bigint feeCeiling) warnBand_default).mp hok
  exact ⟨rfl, hwithin.1.2⟩

/-- A fee is judged by its value alone, exactly to the basis point, if the band
is an integer between 0 and 10000, and refused if it is not; and an estimate with
a ceiling is at most that. -/
theorem fee_within_ceiling {rawFee rawCeiling : RawStroops ν} {fee ceiling : Int} (hfee : Represents rawFee fee)
    (hceiling : Represents rawCeiling ceiling) (options : FeeCeilingValidationOptions ν) :
    (∀ warnBps, warnBand options = some warnBps → Judged rawFee rawCeiling options fee ceiling warnBps) ∧
      (warnBand options = none → ∃ message,
        validateFeeCeiling rawFee rawCeiling options = .error (failure .WARN_BAND_INVALID .invalid message)) ∧
      ∀ baseFee resourceFee operationCount bufferBps exact note feeCeiling estimate,
        buildEstimate baseFee resourceFee operationCount bufferBps exact note (some feeCeiling) = .ok estimate →
        estimate.baseFee + estimate.resourceFee + estimate.bufferFee = estimate.totalFee ∧
          estimate.totalFee ≤ feeCeiling :=
  ⟨fun _ hband => judged hfee hceiling hband, fun hband => validateFeeCeiling_of_no_band hband _ _,
    fun _ _ _ _ _ _ _ _ h => buildEstimate_le_feeCeiling h⟩

/-- Eighty percent of a ceiling, as a text and as a number. -/
theorem eighty_percent :
    (validateFeeCeiling (ν := Int) (.text " +0800 ") (.number (.finite 1000)) : Except Failure Passed).isOk = true ∧
      Judged (ν := Int) (.text " +0800 ") (.number (.finite 1000)) {} 800 1000 8000 := by
  refine ⟨by decide +kernel, ?_⟩
  have hfee : Represents (ν := Int) (.text " +0800 ") 800 := .text (by decide)
  exact (fee_within_ceiling hfee (.number rfl) {}).1 8000 rfl

/-- A fee within its ceiling is refused where the band is above the whole. -/
theorem band_above_whole :
    (validateFeeCeiling (ν := Int) (.bigint 1) (.bigint 2) { warnBps := some (.finite 20000) } : Except Failure Passed).isOk = false ∧
      isFeeWithinCeiling (ν := Int) (.bigint 1) (.bigint 2) = true := by
  decide +kernel

end ZkPayroll.FeeEstimation
