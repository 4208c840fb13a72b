import ZkPayroll.Framework.Text
import Mathlib.Data.List.Forall2

/-!
# The status of a payer account

`treasury/payerAccountStatus.ts`: `readPayerAccountStatus` reduces what is
known of a payer account to a status with blockers and warnings. What it
reports of each asset is right exactly when nothing is required of any
(`reportsFunding_iff`): the shortfall of a requirement is computed with the
wrong sign, and without the reserved balance.
-/

namespace ZkPayroll.Treasury

open Framework

/-! ## Data -/

inductive PayerAccountStatus where
  | active
  | unfunded
  | suspended
  deriving DecidableEq, Repr

inductive PayerAssetSupportStatus where
  | ready
  | missingTrustline
  | notAllowlisted
  | suspended
  deriving DecidableEq, Repr

inductive PayerAccountReadinessLevel where
  | ready
  | warning
  | blocked
  deriving DecidableEq, Repr

/-- What the caller knows of one asset. -/
structure PayerAsset where
  asset : String
  availableBalance : Int
  reservedBalance : Option Int := none
  hasTrustline : Option Bool := none
  allowlisted : Option Bool := none
  suspended : Option Bool := none
  requiredAmount : Option Int := none
  deriving DecidableEq, Repr

/-- `PayerAccountState`; nothing reads its metadata. -/
structure PayerAccountState where
  address : Option String := none
  /-- `exists`. -/
  accountExists : Option Bool := none
  isSuspended : Option Bool := none
  feeBalance : Option Int := none
  minFeeBalance : Option Int := none
  assets : Option (List PayerAsset) := none

structure PayerAccountStatusOptions where
  now : Option Int := none
  strict : Option Bool := none
  defaultMinFeeBalance : Option Int := none
  requireTrustlines : Option Bool := none

structure PayerAssetStatus where
  asset : String
  availableBalance : Int
  reservedBalance : Int
  hasTrustline : Bool
  allowlisted : Bool
  suspended : Bool
  supportStatus : PayerAssetSupportStatus
  shortfallAmount : Option Int
  warnings : List String
  blockers : List String
  deriving DecidableEq, Repr

structure PayerAccountStatusResult where
  isActive : Bool
  canSendPayments : Bool
  accountExists : Bool
  accountStatus : PayerAccountStatus
  readinessLevel : PayerAccountReadinessLevel
  feeBalance : Int
  minFeeBalance : Int
  assets : List PayerAssetStatus
  missingTrustlines : List String
  blockers : List String
  warnings : List String
  summary : String
  lastCheckedAt : Int
  payerAddress : Option String

/-! ## Reading a status -/

/-- `DEFAULT_MIN_FEE_BALANCE_STROOPS`. -/
def defaultMinFeeBalanceStroops : Int := 1500000

def deriveSupportStatus (hasTrustline allowlisted suspended requireTrustlines : Bool) :
    PayerAssetSupportStatus :=
  if suspended then .suspended
  else if !allowlisted then .notAllowlisted
  else if requireTrustlines && !hasTrustline then .missingTrustline
  else .ready

/-- `maskStellarAddress`. The characters of an address are single code units. -/
def maskStellarAddress (address : String) : String :=
  let cs := address.toList
  if cs.length ≤ 8 then "****"
  else String.ofList (cs.take 4 ++ "...".toList ++ cs.drop (cs.length - 4))

/-- The blocker of an asset that is short of its requirement. -/
def shortfallBlocker (asset : String) (shortfall : Int) : String :=
  s!"Payer balance for {asset} is short by {shortfall} stroops."

/-- The blocker of an asset that the account cannot use. -/
def supportBlockers (asset : String) : PayerAssetSupportStatus → List String
  | .suspended => [s!"Asset {asset} is administratively suspended."]
  | .notAllowlisted => [s!"Asset {asset} is not on the payer's allowlist."]
  | .missingTrustline => [s!"Payer account has no trustline for asset {asset}."]
  | .ready => []

/-- The shortfall of an asset, as far as it is reported, and its blocker. -/
def assetShortfall (asset : PayerAsset) : Option Int × List String :=
  match asset.requiredAmount with
  | none => (none, [])
  | some requiredAmount =>
    let shortfall := asset.availableBalance - requiredAmount
    if shortfall > 0 then (none, [shortfallBlocker asset.asset shortfall]) else (some 0, [])

/-- What `readPayerAccountStatus` makes of one asset. -/
def assetStatus (requireTrustlines : Bool) (asset : PayerAsset) : PayerAssetStatus :=
  let hasTrustline := asset.hasTrustline.getD false
  let allowlisted := asset.allowlisted.getD false
  let suspended := asset.suspended.getD false
  let supportStatus := deriveSupportStatus hasTrustline allowlisted suspended requireTrustlines
  let reservedBalance := asset.reservedBalance.getD 0
  { asset := asset.asset
    availableBalance := asset.availableBalance
    reservedBalance := reservedBalance
    hasTrustline := hasTrustline
    allowlisted := allowlisted
    suspended := suspended
    supportStatus := supportStatus
    shortfallAmount := (assetShortfall asset).1
    warnings :=
      if reservedBalance > 0 ∧ asset.requiredAmount = none then
        [s!"Asset {asset.asset} has {reservedBalance} stroops reserved against it."]
      else []
    blockers := supportBlockers asset.asset supportStatus ++ (assetShortfall asset).2 }

/-- `accountStatus.toUpperCase()`. -/
def PayerAccountStatus.upperCase : PayerAccountStatus → String
  | .active => "ACTIVE"
  | .unfunded => "UNFUNDED"
  | .suspended => "SUSPENDED"

def PayerAccountReadinessLevel.icon : PayerAccountReadinessLevel → String
  | .ready => "✅"
  | .warning => "⚠️"
  | .blocked => "🛑"

/-- The address, where it is not empty. -/
def givenAddress (address : Option String) : Option String := address.filter (· ≠ "")

def formatPayerAccountStatusSummary (accountStatus : PayerAccountStatus)
    (readinessLevel : PayerAccountReadinessLevel) (address : Option String)
    (assetCount missingTrustlineCount : Nat) : String :=
  let masked := ((givenAddress address).map maskStellarAddress).getD "payer account"
  let headline := s!"Payer Account ({masked}): {readinessLevel.icon} {accountStatus.upperCase}"
  let lines :=
    if missingTrustlineCount > 0 then [headline, s!"Missing trustlines: {missingTrustlineCount}"]
    else if assetCount > 0 then [headline, s!"Assets checked: {assetCount}"]
    else [headline]
  " | ".intercalate lines

/-- The status of the account itself, and its blockers. -/
def accountFacts (state : PayerAccountState) (feeBalance minFeeBalance : Int) :
    PayerAccountStatus × List String :=
  if state.accountExists = some false then
    (.suspended, ["Payer account does not exist on the network."])
  else if state.isSuspended = some true then
    (.suspended, ["Payer account is suspended by an administrative hold."])
  else if feeBalance < minFeeBalance then
    (.unfunded, [s!"Payer fee balance is below the required minimum of {minFeeBalance} stroops."])
  else (.active, [])

def deriveReadinessLevel (strict : Option Bool) (blockers warnings : List String) :
    PayerAccountReadinessLevel :=
  if blockers.length > 0 ∨ strict = some true ∧ warnings.length > 0 then .blocked
  else if warnings.length > 0 then .warning
  else .ready

/-- The minimum fee balance that is applied. -/
def appliedMinFeeBalance (state : PayerAccountState) (options : PayerAccountStatusOptions) : Int :=
  (state.minFeeBalance.or options.defaultMinFeeBalance).getD defaultMinFeeBalanceStroops

/-- `readPayerAccountStatus`; `dateNow` is the reading of the clock. -/
def readPayerAccountStatus (state : PayerAccountState) (options : PayerAccountStatusOptions)
    (dateNow : Int) : PayerAccountStatusResult :=
  let minFeeBalance := appliedMinFeeBalance state options
  let feeBalance := state.feeBalance.getD 0
  let (accountStatus, accountBlockers) := accountFacts state feeBalance minFeeBalance
  let assets := (state.assets.getD []).map (assetStatus (options.requireTrustlines.getD true))
  let blockers := accountBlockers ++ assets.flatMap PayerAssetStatus.blockers
  let warnings := assets.flatMap PayerAssetStatus.warnings ++
    if assets.length > 0 ∧ assets.all (fun a => a.reservedBalance == 0) then
      ["No funds are currently reserved against the payer's assets."]
    else []
  let readinessLevel := deriveReadinessLevel options.strict blockers warnings
  let missingTrustlines :=
    (assets.filter fun a => a.supportStatus == .missingTrustline).map PayerAssetStatus.asset
  { isActive := accountStatus == .active && state.accountExists != some false
    canSendPayments := readinessLevel != .blocked
    accountExists := state.accountExists != some false
    accountStatus := accountStatus
    readinessLevel := readinessLevel
    feeBalance := feeBalance
    minFeeBalance := minFeeBalance
    assets := assets
    missingTrustlines := missingTrustlines
    blockers := blockers
    warnings := warnings
    summary := formatPayerAccountStatusSummary accountStatus readinessLevel state.address assets.length
      missingTrustlines.length
    lastCheckedAt := options.now.getD dateNow
    payerAddress := (givenAddress state.address).map maskStellarAddress }

/-! ## What a status promises -/

/-- What the account can spend of the asset. -/
def PayerAsset.spendable (a : PayerAsset) : Int := a.availableBalance - a.reservedBalance.getD 0

/-- The account can spend what is required of the asset. -/
def PayerAsset.Covered (a : PayerAsset) : Prop := ∀ r, a.requiredAmount = some r → r ≤ a.spendable

/-- What is missing of the required amount. -/
def PayerAsset.missingAmount (a : PayerAsset) : Option Int :=
  match a.requiredAmount with
  | none => none
  | some r => if r ≤ a.spendable then none else some (r - a.spendable)

/-- Payments of the asset can be sent. -/
structure PayerAsset.Usable (requireTrustlines : Bool) (a : PayerAsset) : Prop where
  allowlisted : a.allowlisted = some true
  notSuspended : a.suspended ≠ some true
  trustline : requireTrustlines = true → a.hasTrustline = some true
  covered : a.Covered

/-- The payments of a run can be sent from the account. -/
structure Payable (state : PayerAccountState) (options : PayerAccountStatusOptions) : Prop where
  notMissing : state.accountExists ≠ some false
  notSuspended : state.isSuspended ≠ some true
  fees : appliedMinFeeBalance state options ≤ state.feeBalance.getD 0
  assets : ∀ a ∈ state.assets.getD [], a.Usable (options.requireTrustlines.getD true)

/-- What is reported of an asset agrees with its funding. -/
structure FundingReported (a : PayerAsset) (status : PayerAssetStatus) : Prop where
  noBlocker : a.Covered → ∀ shortfall, shortfallBlocker a.asset shortfall ∉ status.blockers
  shortfall : status.shortfallAmount = a.missingAmount

/-- The status allows payments only from an account that can send them, and
agrees with the funding of every asset. -/
structure ReportsFunding (state : PayerAccountState) (result : PayerAccountStatusResult)
    (options : PayerAccountStatusOptions) : Prop where
  safe : result.canSendPayments = true → Payable state options
  assets : List.Forall₂ FundingReported (state.assets.getD []) result.assets

/-! ## What it keeps -/

variable {state : PayerAccountState} {options : PayerAccountStatusOptions} {dateNow : Int}

theorem deriveReadinessLevel_ne_blocked_iff {strict : Option Bool} {blockers warnings : List String} :
    deriveReadinessLevel strict blockers warnings ≠ .blocked ↔
      blockers = [] ∧ (strict = some true → warnings = []) := by
  simp only [deriveReadinessLevel, gt_iff_lt, List.length_pos_iff]
  split
  · rename_i h
    refine iff_of_false (fun hn => hn rfl) fun hn => ?_
    rcases h with h | ⟨hs, h⟩
    · exact h hn.1
    · exact h (hn.2 hs)
  · rename_i h
    simp only [not_or, not_and, not_not] at h
    refine iff_of_true ?_ h
    split <;> simp

/-- Payments can be sent exactly when there is no blocker, nor, if strict, a
warning. -/
theorem canSendPayments_iff :
    (readPayerAccountStatus state options dateNow).canSendPayments = true ↔
      (readPayerAccountStatus state options dateNow).blockers = [] ∧
        (options.strict = some true → (readPayerAccountStatus state options dateNow).warnings = []) := by
  rw [← deriveReadinessLevel_ne_blocked_iff]
  simp [readPayerAccountStatus]

theorem blockers_eq_nil_iff :
    (readPayerAccountStatus state options dateNow).blockers = [] ↔
      (accountFacts state (state.feeBalance.getD 0) (appliedMinFeeBalance state options)).2 = [] ∧
        ∀ a ∈ state.assets.getD [],
          (assetStatus (options.requireTrustlines.getD true) a).blockers = [] := by
  simp [readPayerAccountStatus, List.flatMap_eq_nil_iff]

theorem accountFacts_eq_nil_iff {feeBalance minFeeBalance : Int} :
    (accountFacts state feeBalance minFeeBalance).2 = [] ↔
      state.accountExists ≠ some false ∧ state.isSuspended ≠ some true ∧ minFeeBalance ≤ feeBalance := by
  unfold accountFacts
  split
  · simp [*]
  · split
    · simp [*]
    · split
      · rename_i h
        simp [*]
      · rename_i h
        simpa [*] using not_lt.mp h

/-- An asset has no blocker of its support exactly when the account can use
it. -/
theorem supportBlockers_eq_nil_iff {asset : String} {hasTrustline allowlisted suspended requireTrustlines : Bool} :
    supportBlockers asset (deriveSupportStatus hasTrustline allowlisted suspended requireTrustlines) = [] ↔
      allowlisted = true ∧ suspended = false ∧ (requireTrustlines = true → hasTrustline = true) := by
  cases suspended <;> cases allowlisted <;> cases requireTrustlines <;> cases hasTrustline <;>
    simp [deriveSupportStatus, supportBlockers]

theorem getD_false_eq {o : Option Bool} : o.getD false = true ↔ o = some true := by
  cases o <;> simp

variable {requireTrustlines : Bool} {a : PayerAsset}

/-- Without a requirement, an asset without blockers is usable. -/
theorem usable_of_blockers_eq_nil (hr : a.requiredAmount = none)
    (h : (assetStatus requireTrustlines a).blockers = []) : a.Usable requireTrustlines := by
  have hs : supportBlockers a.asset (assetStatus requireTrustlines a).supportStatus = [] := by
    simp only [assetStatus, List.append_eq_nil_iff] at h
    exact h.1
  obtain ⟨hallow, hsusp, htrust⟩ := supportBlockers_eq_nil_iff.mp hs
  refine ⟨getD_false_eq.mp hallow, fun h => ?_, fun h => getD_false_eq.mp (htrust h), fun r h => ?_⟩
  · rw [h] at hsusp
    cases hsusp
  · rw [hr] at h
    cases h

/-- The blocker of a shortfall is none of the others. -/
theorem shortfallBlocker_notMem (asset asset' : String) (shortfall : Int) (status : PayerAssetSupportStatus) :
    shortfallBlocker asset shortfall ∉ supportBlockers asset' status := by
  have htake : (shortfallBlocker asset shortfall).toList.take 8 = "Payer ba".toList := by
    unfold shortfallBlocker
    simp [String.toList_append, toString]
  intro h
  have hmem : ∀ t ∈ supportBlockers asset' status, t.toList.take 8 ≠ "Payer ba".toList := by
    intro t ht
    cases status <;> simp only [supportBlockers, List.mem_singleton, List.not_mem_nil] at ht
    all_goals
      subst ht
      simp [String.toList_append, toString]
  exact hmem _ h htake

/-- What is reported of an asset of which nothing is required. -/
theorem fundingReported_of_none (hr : a.requiredAmount = none) :
    FundingReported a (assetStatus requireTrustlines a) where
  noBlocker _ shortfall := by
    simp only [assetStatus, assetShortfall, hr, List.append_nil]
    exact shortfallBlocker_notMem _ _ _ _
  shortfall := by simp [assetStatus, assetShortfall, PayerAsset.missingAmount, hr]

/-- What is reported of an asset of which something is required is wrong: a
surplus has a blocker, or hides the shortfall that the reserved balance makes;
a shortfall is reported as zero. -/
theorem not_fundingReported_of_some {r : Int}
    (hr : a.requiredAmount = some r) : ¬FundingReported a (assetStatus requireTrustlines a) := by
  intro h
  have hshort := h.shortfall
  by_cases hpos : a.availableBalance - r > 0
  · have hfacts : assetShortfall a = (none, [shortfallBlocker a.asset (a.availableBalance - r)]) := by
      simp only [assetShortfall, hr, if_pos hpos]
    rw [assetStatus, hfacts, PayerAsset.missingAmount, hr] at hshort
    by_cases hcov : r ≤ a.spendable
    · refine h.noBlocker (fun r' h' => ?_) (a.availableBalance - r) ?_
      · rw [hr] at h'
        cases h'
        exact hcov
      · simp [assetStatus, hfacts]
    · simp [hcov] at hshort
  · have hfacts : assetShortfall a = (some 0, []) := by
      simp only [assetShortfall, hr, if_neg hpos]
    rw [assetStatus, hfacts, PayerAsset.missingAmount, hr] at hshort
    by_cases hcov : r ≤ a.spendable
    · simp [hcov] at hshort
    · simp only [hcov, if_false, Option.some.injEq] at hshort
      omega

/-- The status agrees with the funding of the account exactly when nothing is
required of its assets. -/
theorem reportsFunding_iff (state : PayerAccountState) (options : PayerAccountStatusOptions) (dateNow : Int) :
    ReportsFunding state (readPayerAccountStatus state options dateNow) options ↔
      ∀ a ∈ state.assets.getD [], a.requiredAmount = none := by
  have hassets : (readPayerAccountStatus state options dateNow).assets =
      (state.assets.getD []).map (assetStatus (options.requireTrustlines.getD true)) := rfl
  constructor
  · intro h a ha
    have hall := h.assets
    rw [hassets, List.forall₂_map_right_iff, List.forall₂_same] at hall
    cases hr : a.requiredAmount with
    | none => rfl
    | some r => exact absurd (hall a ha) (not_fundingReported_of_some hr)
  · intro hnone
    refine ⟨fun hsend => ?_, ?_⟩
    · obtain ⟨haccount, hblockers⟩ := blockers_eq_nil_iff.mp (canSendPayments_iff.mp hsend).1
      obtain ⟨hexists, hsusp, hfee⟩ := accountFacts_eq_nil_iff.mp haccount
      exact ⟨hexists, hsusp, hfee, fun a ha => usable_of_blockers_eq_nil (hnone a ha) (hblockers a ha)⟩
    · rw [hassets, List.forall₂_map_right_iff, List.forall₂_same]
      exact fun a ha => fundingReported_of_none (hnone a ha)

/-- An account that holds 100 of the 500 stroops that a run needs. -/
def underfundedAccount : PayerAccountState where
  accountExists := some true
  feeBalance := some 2000000
  assets := some
    [{ asset := "native"
       availableBalance := 100
       hasTrustline := some true
       allowlisted := some true
       requiredAmount := some 500 }]

/-- Payments may be sent from it. -/
theorem underfunded_can_send :
    (readPayerAccountStatus underfundedAccount {} 0).canSendPayments = true ∧
      ¬Payable underfundedAccount {} := by
  refine ⟨by decide, fun h => ?_⟩
  have hcov := (h.assets _ (.head _)).covered 500 rfl
  simp [PayerAsset.spendable] at hcov

end ZkPayroll.Treasury
