import Mathlib.Algebra.Ring.Int.Defs
import ZkPayroll.Core.Errors
import ZkPayroll.Framework.Grouping

/-!
# Funding readiness

`checkFundingReadiness` of `funding/readiness.ts`: obligations and balance
snapshots are validated, grouped by asset and compared asset by asset. What is
given is not trusted to be of its declared type (`RawObligation`,
`RawSnapshot`); the validated values are.
-/

namespace ZkPayroll.Funding

open Framework ZkPayroll.Core

/-! ## Data -/

/-- A value of a field, as far as the checks tell values apart. -/
inductive RawValue where
  | string (s : String)
  | bigint (n : Int)
  /-- `undefined` or `null`. -/
  | absent
  | other
  deriving DecidableEq

/-- Any value in the list of obligations. -/
inductive RawObligation where
  | notAnObject
  | object (asset amount : RawValue)
  deriving DecidableEq

/-- Any value in the list of balances. -/
inductive RawSnapshot where
  | notAnObject
  | object (asset available reserved : RawValue)
  deriving DecidableEq

structure FundingObligation where
  asset : String
  amount : Int
  deriving DecidableEq

structure AssetBalanceSnapshot where
  asset : String
  available : Int
  reserved : Option Int
  deriving DecidableEq

inductive AssetFundingState where
  | ready
  | deficit
  deriving DecidableEq, Repr

structure AssetFundingReadiness where
  asset : String
  requiredAmount : Int
  availableBalance : Int
  reservedBalance : Int
  unreservedBalance : Int
  surplus : Int
  deficit : Int
  state : AssetFundingState
  obligationCount : Nat
  message : String
  deriving DecidableEq, Repr

structure FundingReadinessReport where
  ready : Bool
  assets : List AssetFundingReadiness
  deficits : List AssetFundingReadiness
  surplusAssetIds : List String
  message : String
  deriving DecidableEq, Repr

/-! ## Validation -/

/-- The checks of one obligation. -/
def validateObligation (i : Nat) : RawObligation → Except SdkError FundingObligation
  | .notAnObject =>
    .error (validationError s!"Obligation at index {i} must be an object" s!"obligations[{i}]"
      "FUNDING_OBLIGATION_INVALID")
  | .object (.string asset) amount =>
    if asset = "" then
      .error (validationError s!"Obligation at index {i} has a missing or empty asset identifier"
        s!"obligations[{i}].asset" "FUNDING_ASSET_REQUIRED")
    else
      match amount with
      | .bigint amount =>
        if amount < 0 then
          .error (validationError s!"Obligation at index {i} amount must not be negative"
            s!"obligations[{i}].amount" "FUNDING_AMOUNT_NEGATIVE")
        else .ok { asset := asset, amount := amount }
      | _ =>
        .error (validationError s!"Obligation at index {i} amount must be a bigint (stroops)"
          s!"obligations[{i}].amount" "FUNDING_AMOUNT_INVALID")
  | .object _ _ =>
    .error (validationError s!"Obligation at index {i} has a missing or empty asset identifier"
      s!"obligations[{i}].asset" "FUNDING_ASSET_REQUIRED")

/-- `validateObligations` from index `i`: the obligations, as what they are. -/
def validateObligations (i : Nat) : List RawObligation → Except SdkError (List FundingObligation)
  | [] => .ok []
  | o :: os => do
    let obligation ← validateObligation i o
    let obligations ← validateObligations (i + 1) os
    return obligation :: obligations

/-- The checks of the reserved amount. -/
def validateReserved (i : Nat) (asset : String) (available : Int) :
    RawValue → Except SdkError AssetBalanceSnapshot
  | .absent => .ok { asset := asset, available := available, reserved := none }
  | .bigint reserved =>
    if reserved < 0 then
      .error (validationError
        s!"Balance snapshot for asset \"{asset}\" must have a non-negative bigint reserved amount"
        s!"balances[{i}].reserved" "FUNDING_BALANCE_INVALID")
    else if available < reserved then
      .error (validationError
        (s!"Balance snapshot for asset \"{asset}\" reserves {reserved} stroops but only {available} " ++
          "are available; reserved cannot exceed available")
        s!"balances[{i}].reserved" "FUNDING_BALANCE_OVERRESERVED")
    else .ok { asset := asset, available := available, reserved := some reserved }
  | _ =>
    .error (validationError
      s!"Balance snapshot for asset \"{asset}\" must have a non-negative bigint reserved amount"
      s!"balances[{i}].reserved" "FUNDING_BALANCE_INVALID")

/-- The checks of one snapshot, after those in the map. -/
def validateSnapshot (byAsset : List (String × AssetBalanceSnapshot)) (i : Nat) :
    RawSnapshot → Except SdkError AssetBalanceSnapshot
  | .notAnObject =>
    .error (validationError s!"Balance snapshot at index {i} must be an object" s!"balances[{i}]"
      "FUNDING_BALANCE_INVALID")
  | .object (.string asset) available reserved =>
    if asset = "" then
      .error (validationError s!"Balance snapshot at index {i} has a missing or empty asset identifier"
        s!"balances[{i}].asset" "FUNDING_ASSET_REQUIRED")
    else if asset ∈ byAsset.map Prod.fst then
      .error (validationError
        s!"Duplicate balance snapshot for asset \"{asset}\"; provide at most one snapshot per asset"
        s!"balances[{i}].asset" "FUNDING_BALANCE_DUPLICATE")
    else
      let invalid := validationError
        s!"Balance snapshot for asset \"{asset}\" must have a non-negative bigint available amount"
        s!"balances[{i}].available" "FUNDING_BALANCE_INVALID"
      match available with
      | .bigint available => if available < 0 then .error invalid else validateReserved i asset available reserved
      | _ => .error invalid
  | .object _ _ _ =>
    .error (validationError s!"Balance snapshot at index {i} has a missing or empty asset identifier"
      s!"balances[{i}].asset" "FUNDING_ASSET_REQUIRED")

/-- `buildBalanceMap` from index `i`, with the map so far. -/
def buildBalanceMap (i : Nat) (byAsset : List (String × AssetBalanceSnapshot)) :
    List RawSnapshot → Except SdkError (List (String × AssetBalanceSnapshot))
  | [] => .ok byAsset
  | b :: bs => do
    let snapshot ← validateSnapshot byAsset i b
    buildBalanceMap (i + 1) (setKey snapshot.asset snapshot byAsset) bs

/-! ## The report -/

/-- `groupObligationsByAsset`, after the validation. -/
def groupObligationsByAsset (obligations : List FundingObligation) : List (String × Int) :=
  sumByKey FundingObligation.asset FundingObligation.amount obligations []

/-- What the report says of one asset. -/
def assetReadiness (obligations : List FundingObligation) (grouped : List (String × Int))
    (balanceByAsset : List (String × AssetBalanceSnapshot)) (asset : String) : AssetFundingReadiness :=
  let required := (grouped.lookup asset).getD 0
  let snapshot := balanceByAsset.lookup asset
  let available := (snapshot.map AssetBalanceSnapshot.available).getD 0
  let reserved := (snapshot.bind AssetBalanceSnapshot.reserved).getD 0
  let unreserved := available - reserved
  let deficit := if required > unreserved then required - unreserved else 0
  let surplus := if unreserved > required then unreserved - required else 0
  let state : AssetFundingState := if deficit = 0 then .ready else .deficit
  let message :=
    if state = .ready then
      s!"Asset \"{asset}\" is fully funded: required {required} stroops, " ++
        s!"unreserved available {unreserved} stroops" ++
        if surplus > 0 then s!" (surplus {surplus} stroops)" else ""
    else
      s!"Insufficient funding for asset \"{asset}\": required {required} stroops but only " ++
        s!"{unreserved} unreserved stroops available" ++
        (if reserved > 0 then s!" ({reserved} stroops reserved)" else "") ++
        s!" (deficit {deficit} stroops)"
  { asset := asset
    requiredAmount := required
    availableBalance := available
    reservedBalance := reserved
    unreservedBalance := unreserved
    surplus := surplus
    deficit := deficit
    state := state
    obligationCount := (obligations.filter fun o => o.asset == asset).length
    message := message }

/-- `new Set([...grouped.keys(), ...balanceByAsset.keys()])`. -/
def assetIds (grouped : List (String × Int)) (balanceByAsset : List (String × AssetBalanceSnapshot)) :
    List String :=
  grouped.map Prod.fst ++ (balanceByAsset.map Prod.fst).filter fun asset => asset ∉ grouped.map Prod.fst

/-- The order of the report. -/
def leAsset (a b : AssetFundingReadiness) : Prop := leUnits a.asset b.asset

instance : DecidableRel leAsset := fun a b => inferInstanceAs (Decidable (leUnits a.asset b.asset))

/-- The entries of the report, in its order. -/
def fundingAssets (obligations : List FundingObligation)
    (balanceByAsset : List (String × AssetBalanceSnapshot)) : List AssetFundingReadiness :=
  let grouped := groupObligationsByAsset obligations
  ((assetIds grouped balanceByAsset).map
    (assetReadiness obligations grouped balanceByAsset)).insertionSort leAsset

/-- The report of its entries. -/
def fundingReport (assets : List AssetFundingReadiness) : FundingReadinessReport :=
  let deficits := assets.filter fun entry => entry.state == .deficit
  let message :=
    if deficits.length = 0 then
      if assets.length = 0 then "No payroll obligations to fund"
      else s!"All {assets.length} asset(s) fully funded"
    else
      s!"Funding required for {deficits.length} of {assets.length} asset(s): " ++
        ", ".intercalate (deficits.map AssetFundingReadiness.asset)
  { ready := deficits.length == 0
    assets := assets
    deficits := deficits
    surplusAssetIds := (assets.filter fun entry => entry.surplus > 0).map AssetFundingReadiness.asset
    message := message }

def checkFundingReadiness (obligations : List RawObligation) (balances : List RawSnapshot) :
    Except SdkError FundingReadinessReport := do
  let obligations ← validateObligations 0 obligations
  let balanceByAsset ← buildBalanceMap 0 [] balances
  return fundingReport (fundingAssets obligations balanceByAsset)

end ZkPayroll.Funding
