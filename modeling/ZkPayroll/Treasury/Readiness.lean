import Mathlib.Algebra.Order.Floor.Ring
import Mathlib.Algebra.Order.Ring.Int
import ZkPayroll.Core.Errors
import ZkPayroll.Framework.Grouping
import ZkPayroll.Framework.Guards
import ZkPayroll.Framework.JsArithmetic

/-!
# Treasury readiness

`evaluateTreasuryReadiness` of `treasury/readiness.ts`: each obligation is
checked against the balance of its asset, and the blockers and warnings of all
the checks decide. The buffer is a JavaScript number, so it may be infinite,
and then has no integer part. Metadata of any type `μ` are passed on.
-/

namespace ZkPayroll.Treasury

open Framework ZkPayroll.Core

variable {ν μ : Type}

/-! ## Data -/

inductive TreasuryBalanceStatus where
  | sufficient
  | low
  | insufficient
  | zero
  | unknown
  deriving DecidableEq, Repr

inductive TreasuryReserveStatus where
  | ready
  | partially_reserved
  | unreserved
  | over_reserved
  | locked
  | expired
  deriving DecidableEq, Repr

def TreasuryReserveStatus.name : TreasuryReserveStatus → String
  | .ready => "ready"
  | .partially_reserved => "partially_reserved"
  | .unreserved => "unreserved"
  | .over_reserved => "over_reserved"
  | .locked => "locked"
  | .expired => "expired"

inductive AssetSupportStatus where
  | supported
  | unsupported
  | suspended
  | insufficient_liquidity
  deriving DecidableEq, Repr

inductive TreasuryReadinessLevel where
  | ready
  | warning
  | blocked
  deriving DecidableEq, Repr

structure AssetReadinessCheck (ν : Type) where
  asset : String
  requiredAmount : Int
  availableBalance : Int
  reservedAmount : Int
  balanceStatus : TreasuryBalanceStatus
  reserveStatus : TreasuryReserveStatus
  supportStatus : AssetSupportStatus
  bufferPercent : JsNumber ν
  shortfallAmount : Option Int
  warnings : List String
  blockers : List String

structure TreasuryReadinessResult (ν μ : Type) where
  isReady : Bool
  readinessLevel : TreasuryReadinessLevel
  overallBalanceStatus : TreasuryBalanceStatus
  overallReserveStatus : TreasuryReserveStatus
  assets : List (AssetReadinessCheck ν)
  blockers : List String
  warnings : List String
  lastCheckedAt : JsNumber ν
  employerAddress : Option String
  batchId : Option String
  metadata : Option μ

/-- What is due in an asset. -/
structure TreasuryObligation where
  asset : String
  requiredAmount : Int
  allowlisted : Option Bool := none
  suspended : Option Bool := none
  deriving DecidableEq

/-- What a treasury holds of an asset. -/
structure TreasuryBalance where
  asset : String
  availableBalance : Int
  reservedAmount : Option Int := none
  isLocked : Option Bool := none
  isExpired : Option Bool := none
  deriving DecidableEq

structure EvaluateTreasuryReadinessInput (ν μ : Type) where
  employerAddress : Option String := none
  batchId : Option String := none
  obligations : List TreasuryObligation
  treasuryBalances : List TreasuryBalance
  defaultBufferPercent : Option (JsNumber ν) := none
  metadata : Option μ := none

structure ReadinessEvaluationOptions where
  strict : Bool := false
  requirePreReservation : Bool := false

/-- What the balance map has of an asset. -/
structure AssetState where
  availableBalance : Int := 0
  reservedAmount : Int := 0
  isLocked : Bool := false
  isExpired : Bool := false

/-! ## The checks of one obligation -/

/-- What is thrown where a number that is not an integer is made a bigint. -/
def bigIntError (text : String) : SdkError :=
  { genericError ("The number " ++ text ++ " cannot be converted to a BigInt because it is not an integer") with
    name := "RangeError" }

section Numbers

variable [CommRing ν] [LinearOrder ν] [FloorRing ν]

/-- `BigInt(Math.floor(n))`. -/
def bigIntFloor : JsNumber ν → Except SdkError Int
  | .finite n => .ok ⌊n⌋
  | .nan => .error (bigIntError "NaN")
  | .infinity => .error (bigIntError "Infinity")
  | .negInfinity => .error (bigIntError "-Infinity")

def deriveBalanceStatus (available required : Int) (bufferPercent : JsNumber ν) :
    Except SdkError (TreasuryBalanceStatus × Int) := do
  if available ≤ 0 ∧ required > 0 then
    return (.zero, required)
  if available < required then
    return (.insufficient, required - available)
  if JsNumber.lt (.finite 0) bufferPercent then
    let bufferMultiplier := 100 + (← bigIntFloor bufferPercent)
    let targetWithBuffer := (required * bufferMultiplier).tdiv 100
    if available < targetWithBuffer then
      return (.low, 0)
  return (.sufficient, 0)

end Numbers

def deriveReserveStatus (reserved required : Int) : TreasuryReserveStatus :=
  if reserved = 0 then .unreserved
  else if reserved = required then .ready
  else if reserved > required then .over_reserved
  else .partially_reserved

/-- The support of the asset, with its blockers. -/
def supportCheck (ob : TreasuryObligation) : AssetSupportStatus × List String :=
  if ob.suspended = some true then
    (.suspended, [s!"Asset {ob.asset} contract is currently suspended."])
  else if ob.allowlisted = some false then
    (.unsupported, [s!"Asset {ob.asset} is not allowlisted in treasury policy."])
  else (.supported, [])

/-- `${n}` -/
def numberText [NumberFormat ν] : JsNumber ν → String
  | .finite n => String.ofList (NumberFormat.toText n)
  | .nan => "NaN"
  | .infinity => "Infinity"
  | .negInfinity => "-Infinity"

/-- The blockers and the warnings of a balance. -/
def balanceCheck [NumberFormat ν] (asset : String) (bufferPercent : JsNumber ν) (status : TreasuryBalanceStatus)
    (shortfall : Int) : List String × List String :=
  if status = .insufficient ∨ status = .zero then
    ([s!"Insufficient treasury balance for {asset}. Shortfall: {shortfall} stroops."], [])
  else if status = .low then
    ([], [s!"Treasury balance for {asset} is low. Below recommended {numberText bufferPercent}% buffer."])
  else ([], [])

/-- The reservation, with its blockers and its warnings. -/
def reserveCheck (options : ReadinessEvaluationOptions) (state : AssetState) (ob : TreasuryObligation) :
    TreasuryReserveStatus × List String × List String :=
  if state.isLocked then
    (.locked, [s!"Treasury reservation for {ob.asset} is locked under administrative hold."], [])
  else if state.isExpired then
    (.expired, [s!"Treasury reservation for {ob.asset} has expired."], [])
  else
    let reserveStatus := deriveReserveStatus state.reservedAmount ob.requiredAmount
    if options.requirePreReservation = true ∧ reserveStatus ≠ .ready ∧ reserveStatus ≠ .over_reserved then
      (reserveStatus, [s!"Pre-reservation required for {ob.asset}, but status is '{reserveStatus.name}'."], [])
    else if reserveStatus = .unreserved ∨ reserveStatus = .partially_reserved then
      (reserveStatus, [], [s!"Asset {ob.asset} has pending reservation status: '{reserveStatus.name}'."])
    else (reserveStatus, [], [])

section Evaluate

variable [NumberFormat ν] [CommRing ν] [LinearOrder ν] [FloorRing ν]

/-- The check of an obligation, with the status and the shortfall of its balance. -/
def assetCheck (options : ReadinessEvaluationOptions) (bufferPercent : JsNumber ν) (state : AssetState)
    (ob : TreasuryObligation) (derived : TreasuryBalanceStatus × Int) : AssetReadinessCheck ν :=
  let support := supportCheck ob
  let balance := balanceCheck ob.asset bufferPercent derived.1 derived.2
  let reserve := reserveCheck options state ob
  { asset := ob.asset
    requiredAmount := ob.requiredAmount
    availableBalance := state.availableBalance
    reservedAmount := state.reservedAmount
    balanceStatus := derived.1
    reserveStatus := reserve.1
    supportStatus := support.1
    bufferPercent := bufferPercent
    shortfallAmount := if derived.2 > 0 then some derived.2 else none
    warnings := balance.2 ++ reserve.2.2
    blockers := support.2 ++ balance.1 ++ reserve.2.1 }

/-- One round of the loop over the obligations. -/
def checkObligation (options : ReadinessEvaluationOptions) (bufferPercent : JsNumber ν) (state : AssetState)
    (ob : TreasuryObligation) : Except SdkError (AssetReadinessCheck ν) := do
  let derived ← deriveBalanceStatus state.availableBalance ob.requiredAmount bufferPercent
  return assetCheck options bufferPercent state ob derived

/-! ## The evaluation -/

def resolveAggregateBalanceStatus (checks : List (AssetReadinessCheck ν)) : TreasuryBalanceStatus :=
  if checks.isEmpty then .unknown
  else if checks.any (·.balanceStatus == .insufficient) then .insufficient
  else if checks.any (·.balanceStatus == .zero) then .zero
  else if checks.any (·.balanceStatus == .low) then .low
  else if checks.all (·.balanceStatus == .sufficient) then .sufficient
  else .unknown

def resolveAggregateReserveStatus (checks : List (AssetReadinessCheck ν)) : TreasuryReserveStatus :=
  if checks.isEmpty then .unreserved
  else if checks.any (·.reserveStatus == .locked) then .locked
  else if checks.any (·.reserveStatus == .expired) then .expired
  else if checks.all (fun c => c.reserveStatus == .ready || c.reserveStatus == .over_reserved) then .ready
  else if checks.any (·.reserveStatus == .partially_reserved) then .partially_reserved
  else .unreserved

/-- The map of the balances: of several for one asset, the last. -/
def balanceMap (treasuryBalances : List TreasuryBalance) : List (String × AssetState) :=
  treasuryBalances.foldl
    (fun m b => setKey b.asset
      { availableBalance := b.availableBalance
        reservedAmount := b.reservedAmount.getD 0
        isLocked := b.isLocked.getD false
        isExpired := b.isExpired.getD false } m)
    []

/-- `balanceMap.get(asset) ?? …` -/
def assetState (treasuryBalances : List TreasuryBalance) (asset : String) : AssetState :=
  ((balanceMap treasuryBalances).lookup asset).getD {}

def readinessLevelOf (options : ReadinessEvaluationOptions) (blockers warnings : List String) :
    TreasuryReadinessLevel :=
  if blockers.length > 0 ∨ options.strict = true ∧ warnings.length > 0 then .blocked
  else if warnings.length > 0 then .warning
  else .ready

/-- The result of the checks. -/
def readinessResult (now : JsNumber ν) (input : EvaluateTreasuryReadinessInput ν μ)
    (options : ReadinessEvaluationOptions) (assetChecks : List (AssetReadinessCheck ν)) :
    TreasuryReadinessResult ν μ :=
  let blockers := assetChecks.flatMap AssetReadinessCheck.blockers
  let warnings := assetChecks.flatMap AssetReadinessCheck.warnings
  let readinessLevel := readinessLevelOf options blockers warnings
  { isReady := readinessLevel != .blocked
    readinessLevel := readinessLevel
    overallBalanceStatus := resolveAggregateBalanceStatus assetChecks
    overallReserveStatus := resolveAggregateReserveStatus assetChecks
    assets := assetChecks
    blockers := blockers
    warnings := warnings
    lastCheckedAt := now
    employerAddress := input.employerAddress
    batchId := input.batchId
    metadata := input.metadata }

def evaluateTreasuryReadiness (now : JsNumber ν) (input : EvaluateTreasuryReadinessInput ν μ)
    (options : ReadinessEvaluationOptions) : Except SdkError (TreasuryReadinessResult ν μ) := do
  let bufferPercent := input.defaultBufferPercent.getD (.finite 0)
  -- the loop ends with the first obligation that throws
  let assetChecks ← allOk (input.obligations.map fun ob =>
    checkObligation options bufferPercent (assetState input.treasuryBalances ob.asset) ob)
  return readinessResult now input options assetChecks

end Evaluate

/-! ## The boundary of the buffer -/

section Boundary

variable [CommRing ν] [LinearOrder ν] [FloorRing ν] [IsStrictOrderedRing ν] {available required b : Int}

/-- `deriveBalanceStatus` calls the balance sufficient. -/
def ReportsSufficient (available required : Int) (bufferPercent : JsNumber ν) : Prop :=
  ∃ shortfall, deriveBalanceStatus available required bufferPercent = .ok (.sufficient, shortfall)

/-- The balance covers what is required and `b` percent of it. -/
def CoversBuffer (available required b : Int) : Prop := required * (100 + b) ≤ 100 * available

instance (available required b : Int) : Decidable (CoversBuffer available required b) :=
  inferInstanceAs (Decidable (_ ≤ _))

theorem deriveBalanceStatus_of_covered (h : required ≤ available) (hpos : 0 < required) (b : Int) :
    deriveBalanceStatus available required (.finite (b : ν)) =
      .ok (if 0 < b ∧ available < required * (100 + b) / 100 then (.low, 0) else (.sufficient, 0)) := by
  have hzero : ¬(available ≤ 0 ∧ required > 0) := by omega
  have hshort : ¬available < required := by omega
  have hlt : JsNumber.lt (.finite 0) (.finite (b : ν)) = decide (0 < b) := by
    rw [Bool.eq_iff_iff]
    simp only [JsNumber.lt, JsNumber.le, Bool.and_eq_true, Bool.not_eq_true', decide_eq_true_eq,
      decide_eq_false_iff_not, Int.cast_nonneg_iff, Int.cast_nonpos]
    omega
  rw [deriveBalanceStatus, if_neg hzero, if_neg hshort, hlt]
  by_cases hb : 0 < b
  · have hdiv : (required * (100 + b)).tdiv 100 = required * (100 + b) / 100 :=
      Int.tdiv_eq_ediv_of_nonneg (Int.mul_nonneg hpos.le (by omega))
    have hfloor : bigIntFloor (JsNumber.finite (b : ν)) = .ok b := by rw [bigIntFloor, Int.floor_intCast]
    rw [if_pos (decide_eq_true hb), hfloor]
    show (if available < (required * (100 + b)).tdiv 100 then _ else _ : Except SdkError _) = _
    rw [hdiv]
    by_cases hlow : available < required * (100 + b) / 100
    · rw [if_pos hlow, if_pos ⟨hb, hlow⟩]
      rfl
    · rw [if_neg hlow, if_neg fun h => hlow h.2]
      rfl
  · rw [if_neg (by simpa using hb), if_neg fun h => hb h.1]
    rfl

/-- A balance is sufficient if no more than a part of one unit is missing of the
buffer, and a negative buffer is none. -/
theorem reportsSufficient_iff (hpos : 0 < required) (b : Int) :
    ReportsSufficient available required (.finite (b : ν)) ↔
      required ≤ available ∧ (0 < b → required * (100 + b) / 100 ≤ available) := by
  by_cases hle : required ≤ available
  · rw [ReportsSufficient, deriveBalanceStatus_of_covered hle hpos, and_iff_right hle]
    split
    · rename_i hlow
      refine iff_of_false (by simp) fun h => ?_
      have := h hlow.1
      omega
    · rename_i hlow
      refine iff_of_true ⟨0, rfl⟩ fun hb => ?_
      by_contra hlt
      exact hlow ⟨hb, by omega⟩
  · refine iff_of_false ?_ fun h => hle h.1
    rintro ⟨shortfall, h⟩
    rw [deriveBalanceStatus] at h
    split at h
    · cases h
    · rw [if_pos (by omega)] at h
      cases h

/-- The buffer is exact but where it is not a whole number of units and just
its whole units are there, and where a negative one would make up for what is
missing. -/
theorem sufficient_exact_iff (available : Int) (hpos : 0 < required) (b : Int) :
    (ReportsSufficient available required (.finite (b : ν)) ↔ CoversBuffer available required b) ↔
      (0 < b → available = required * (100 + b) / 100 → 100 ∣ required * b) ∧
        ¬(b < 0 ∧ available < required ∧ CoversBuffer available required b) := by
  have hscaled : required * (100 + b) = 100 * required + required * b := by
    rw [Int.mul_add, Int.mul_comm required 100]
  rw [reportsSufficient_iff hpos, CoversBuffer, hscaled]
  rcases Int.lt_trichotomy b 0 with hb | rfl | hb
  · have hless : required * b < 0 := Int.mul_neg_of_pos_of_neg hpos hb
    omega
  · omega
  · have hmore : 0 < required * b := Int.mul_pos hpos hb
    omega

/-- Of 100 units and ten percent, 110 are not too few. -/
theorem whole_buffer_exact :
    ReportsSufficient 110 100 (.finite ((10 : Int) : Int)) ↔ CoversBuffer 110 100 10 :=
  (sufficient_exact_iff (ν := Int) 110 (by decide) 10).mpr ⟨by decide, by decide⟩

/-- One unit is sufficient for one unit and five percent. -/
theorem part_of_unit_dropped :
    ¬∀ available required b : Int, 0 < required →
      (ReportsSufficient available required (.finite ((b : Int) : Int)) ↔ CoversBuffer available required b) := by
  intro h
  have hcovers : CoversBuffer 1 1 5 := (h 1 1 5 (by decide)).mp ⟨0, rfl⟩
  revert hcovers
  decide

end Boundary

end ZkPayroll.Treasury
