import ZkPayroll.Treasury.Readiness

/-!
# Readiness and the totals of assets

A treasury is ready exactly when every obligation passes on its own (`Passes`,
`isReady_iff`): no obligation is added to another. So readiness means that the
obligations of each asset are covered together exactly when the obligations
that share an asset are, or one of them does not pass (`ready_covers_iff`).
-/

namespace ZkPayroll.Treasury

open Framework ZkPayroll.Core

variable {ν μ : Type} [NumberFormat ν] [CommRing ν] [LinearOrder ν] [FloorRing ν]

/-! ## Totals -/

/-- The sum of the obligations in an asset. -/
def totalRequired (obligations : List TreasuryObligation) (asset : String) : Int :=
  ((obligations.filter fun ob => ob.asset = asset).map TreasuryObligation.requiredAmount).sum

/-- The balance supplied for an asset: the last one that is, or nothing. -/
def suppliedBalance (treasuryBalances : List TreasuryBalance) (asset : String) : Int :=
  ((treasuryBalances.reverse.find? fun b => b.asset = asset).map TreasuryBalance.availableBalance).getD 0

theorem availableBalance_assetState (treasuryBalances : List TreasuryBalance) (asset : String) :
    (assetState treasuryBalances asset).availableBalance = suppliedBalance treasuryBalances asset := by
  rw [assetState, suppliedBalance]
  induction treasuryBalances using List.reverseRecOn with
  | nil => rfl
  | append_singleton bs b ih =>
    rw [balanceMap, List.foldl_append]
    show (((setKey b.asset _ (balanceMap bs)).lookup asset).getD {}).availableBalance = _
    rw [lookup_setKey, List.reverse_append, List.reverse_singleton, List.singleton_append, List.find?_cons]
    by_cases hb : asset = b.asset
    · simp [hb]
    · simp [hb, Ne.symm hb, ih]

/-! ## What one obligation has to pass -/

/-- The obligation, with the state of its asset, gives no blocker, and in strict
mode no warning. -/
structure Passes (options : ReadinessEvaluationOptions) (bufferPercent : JsNumber ν) (state : AssetState)
    (ob : TreasuryObligation) : Prop where
  active : ob.suspended ≠ some true
  allowed : ob.allowlisted ≠ some false
  balance : ∃ derived, deriveBalanceStatus state.availableBalance ob.requiredAmount bufferPercent = .ok derived ∧
    (derived.1 = .sufficient ∨ options.strict = false ∧ derived.1 = .low)
  unlocked : state.isLocked = false
  unexpired : state.isExpired = false
  reserved : deriveReserveStatus state.reservedAmount ob.requiredAmount ∈
      [TreasuryReserveStatus.ready, .over_reserved] ∨
    options.strict = false ∧ options.requirePreReservation = false

variable {bufferPercent : JsNumber ν}

omit [NumberFormat ν] in
/-- What is derived of a balance: it is short of the obligation, or covers it. -/
theorem deriveBalanceStatus_eq_ok {available required : Int} {derived : TreasuryBalanceStatus × Int}
    (h : deriveBalanceStatus available required bufferPercent = .ok derived) :
    derived.1 ∈ [TreasuryBalanceStatus.zero, .insufficient] ∨
      derived.1 ∈ [TreasuryBalanceStatus.low, .sufficient] ∧ required ≤ available := by
  rw [deriveBalanceStatus] at h
  split at h
  case isTrue hzero =>
    cases h
    exact .inl (by simp)
  split at h
  case isTrue hshort =>
    cases h
    exact .inl (by simp)
  rename_i hcovered
  have hle : required ≤ available := by omega
  split at h
  case isFalse =>
    cases h
    exact .inr ⟨by decide, hle⟩
  obtain ⟨floor, -, h⟩ := except_bind_eq_ok.mp h
  dsimp only at h
  split at h
  · cases h
    exact .inr ⟨by decide, hle⟩
  · cases h
    exact .inr ⟨by decide, hle⟩

variable {ob : TreasuryObligation}

theorem supportCheck_blockers :
    (supportCheck ob).2 = [] ↔ ob.suspended ≠ some true ∧ ob.allowlisted ≠ some false := by
  rw [supportCheck]
  split
  case isTrue hsuspended => simp [hsuspended]
  split
  case isTrue hallowlisted => simp [hallowlisted]
  rename_i hsuspended hallowlisted
  exact iff_of_true rfl ⟨hsuspended, hallowlisted⟩

/-- No blocker, and in strict mode no warning. -/
def Clean (options : ReadinessEvaluationOptions) (blockers warnings : List String) : Prop :=
  blockers = [] ∧ (options.strict = true → warnings = [])

variable {options : ReadinessEvaluationOptions}

omit [CommRing ν] [FloorRing ν] [LinearOrder ν] in
theorem clean_balanceCheck {asset : String}
    {status : TreasuryBalanceStatus} {shortfall : Int} (hs : status ≠ .unknown) :
    Clean options (balanceCheck asset bufferPercent status shortfall).1
        (balanceCheck asset bufferPercent status shortfall).2 ↔
      status = .sufficient ∨ options.strict = false ∧ status = .low := by
  cases status with
  | unknown => exact absurd rfl hs
  | low => simp [Clean, balanceCheck]
  | _ => simp [Clean, balanceCheck]

variable {state : AssetState}

theorem clean_reserveCheck :
    Clean options (reserveCheck options state ob).2.1 (reserveCheck options state ob).2.2 ↔
      state.isLocked = false ∧ state.isExpired = false ∧
      (deriveReserveStatus state.reservedAmount ob.requiredAmount ∈ [TreasuryReserveStatus.ready, .over_reserved] ∨
        options.strict = false ∧ options.requirePreReservation = false) := by
  rw [reserveCheck]
  split
  case isTrue hlocked => simp [Clean, hlocked]
  split
  case isTrue hexpired => simp [Clean, hexpired]
  rename_i hlocked hexpired
  have hstatus : deriveReserveStatus state.reservedAmount ob.requiredAmount ∈
      [TreasuryReserveStatus.unreserved, .ready, .over_reserved, .partially_reserved] := by
    unfold deriveReserveStatus
    split_ifs <;> simp
  generalize deriveReserveStatus state.reservedAmount ob.requiredAmount = status at hstatus
  simp only [Bool.not_eq_true] at hlocked hexpired
  simp only [List.mem_cons, List.not_mem_nil, or_false] at hstatus
  rcases hstatus with rfl | rfl | rfl | rfl <;>
    cases hr : options.requirePreReservation <;> simp [Clean, hlocked, hexpired]

/-- An obligation passes exactly when its check is clean. -/
theorem passes_iff :
    Passes options bufferPercent state ob ↔
      ∃ c, checkObligation options bufferPercent state ob = .ok c ∧ Clean options c.blockers c.warnings := by
  -- a check that does not throw is clean where each of its three parts is
  have hclean : ∀ derived : TreasuryBalanceStatus × Int,
      deriveBalanceStatus state.availableBalance ob.requiredAmount bufferPercent = .ok derived →
      (Clean options (assetCheck options bufferPercent state ob derived).blockers
          (assetCheck options bufferPercent state ob derived).warnings ↔
        (ob.suspended ≠ some true ∧ ob.allowlisted ≠ some false) ∧
          (derived.1 = .sufficient ∨ options.strict = false ∧ derived.1 = .low) ∧
          state.isLocked = false ∧ state.isExpired = false ∧
          (deriveReserveStatus state.reservedAmount ob.requiredAmount ∈
              [TreasuryReserveStatus.ready, .over_reserved] ∨
            options.strict = false ∧ options.requirePreReservation = false)) := by
    intro derived hderived
    have hknown : derived.1 ≠ .unknown := by
      intro hunknown
      have hcases := deriveBalanceStatus_eq_ok hderived
      simp [hunknown] at hcases
    have hbalance : Clean options (balanceCheck ob.asset bufferPercent derived.1 derived.2).1
        (balanceCheck ob.asset bufferPercent derived.1 derived.2).2 ↔ _ := clean_balanceCheck hknown
    rw [← supportCheck_blockers, ← clean_reserveCheck, ← hbalance]
    simp only [assetCheck, Clean, List.append_eq_nil_iff]
    grind
  constructor
  · intro h
    obtain ⟨derived, hderived, hstatus⟩ := h.balance
    refine ⟨assetCheck options bufferPercent state ob derived, ?_, (hclean derived hderived).mpr ?_⟩
    · rw [checkObligation, hderived]
      rfl
    · exact ⟨⟨h.active, h.allowed⟩, hstatus, h.unlocked, h.unexpired, h.reserved⟩
  · rintro ⟨c, hc, hcl⟩
    obtain ⟨derived, hderived, h⟩ := except_bind_eq_ok.mp hc
    cases h
    obtain ⟨⟨hactive, hallowed⟩, hstatus, hlocked, hexpired, hreserved⟩ := (hclean derived hderived).mp hcl
    exact ⟨hactive, hallowed, ⟨derived, hderived, hstatus⟩, hlocked, hexpired, hreserved⟩

omit [NumberFormat ν] in
/-- What passes is covered on its own. -/
theorem Passes.covered (h : Passes options bufferPercent state ob) :
    ob.requiredAmount ≤ state.availableBalance := by
  obtain ⟨derived, hderived, hstatus⟩ := h.balance
  rcases deriveBalanceStatus_eq_ok hderived with hshort | ⟨-, hle⟩
  · rcases hstatus with hs | ⟨-, hs⟩ <;> simp [hs] at hshort
  · exact hle

/-! ## Readiness -/

/-- Every obligation of the input passes on its own. -/
def AllPass (input : EvaluateTreasuryReadinessInput ν μ) (options : ReadinessEvaluationOptions) : Prop :=
  ∀ ob ∈ input.obligations,
    Passes options (input.defaultBufferPercent.getD (.finite 0)) (assetState input.treasuryBalances ob.asset) ob

theorem readinessLevelOf_ne_blocked {blockers warnings : List String} :
    readinessLevelOf options blockers warnings ≠ .blocked ↔ Clean options blockers warnings := by
  rw [readinessLevelOf]
  split
  case isTrue hblocked =>
    refine iff_of_false (fun h => h rfl) fun hclean => ?_
    rcases hblocked with h | ⟨hstrict, h⟩
    · simp [hclean.1] at h
    · simp [hclean.2 hstrict] at h
  case isFalse hopen =>
    obtain ⟨hblockers, hwarnings⟩ := not_or.mp hopen
    refine iff_of_true (by split <;> simp) ⟨by simpa using hblockers, fun hstrict => ?_⟩
    simpa using fun h => hwarnings ⟨hstrict, h⟩

omit [NumberFormat ν] [CommRing ν] [LinearOrder ν] [FloorRing ν] in
theorem clean_flatMap {checks : List (AssetReadinessCheck ν)} :
    Clean options (checks.flatMap AssetReadinessCheck.blockers) (checks.flatMap AssetReadinessCheck.warnings) ↔
      ∀ c ∈ checks, Clean options c.blockers c.warnings := by
  simp only [Clean, List.flatMap_eq_nil_iff]
  grind

/-- The treasury is ready exactly when every obligation passes on its own. -/
theorem isReady_iff {now : JsNumber ν} {input : EvaluateTreasuryReadinessInput ν μ} :
    (∃ result, evaluateTreasuryReadiness now input options = .ok result ∧ result.isReady = true) ↔
      AllPass input options := by
  have hready : ∀ checks, (readinessResult now input options checks).isReady = true ↔
      ∀ c ∈ checks, Clean options c.blockers c.warnings := by
    intro checks
    rw [← clean_flatMap, ← readinessLevelOf_ne_blocked]
    exact bne_iff_ne
  constructor
  · rintro ⟨result, hresult, hr⟩ ob hob
    obtain ⟨checks, hchecks, h⟩ := except_bind_eq_ok.mp hresult
    cases h
    have hmem := List.mem_map_of_mem (f := fun ob => checkObligation options
      (input.defaultBufferPercent.getD (.finite 0)) (assetState input.treasuryBalances ob.asset) ob) hob
    rw [allOk_eq_ok.mp hchecks] at hmem
    obtain ⟨c, hc, hcheck⟩ := List.mem_map.mp hmem
    exact passes_iff.mpr ⟨c, hcheck.symm, (hready checks).mp hr c hc⟩
  · intro hall
    have hchecks : ∀ obs : List TreasuryObligation,
        (∀ ob ∈ obs, Passes options (input.defaultBufferPercent.getD (.finite 0))
          (assetState input.treasuryBalances ob.asset) ob) →
        ∃ checks : List (AssetReadinessCheck ν),
          obs.map (fun ob => checkObligation options (input.defaultBufferPercent.getD (.finite 0))
            (assetState input.treasuryBalances ob.asset) ob) = checks.map .ok ∧
          ∀ c ∈ checks, Clean options c.blockers c.warnings := by
      intro obs hobs
      induction obs with
      | nil => exact ⟨[], rfl, by simp⟩
      | cons ob obs ih =>
        obtain ⟨c, hc, hclean⟩ := passes_iff.mp (hobs ob (by simp))
        obtain ⟨checks, hmap, hcleans⟩ := ih fun ob hob => hobs ob (by simp [hob])
        refine ⟨c :: checks, by rw [List.map_cons, hc, hmap, List.map_cons], ?_⟩
        simpa using ⟨hclean, hcleans⟩
    obtain ⟨checks, hmap, hclean⟩ := hchecks input.obligations hall
    refine ⟨readinessResult now input options checks, ?_, (hready checks).mpr hclean⟩
    rw [evaluateTreasuryReadiness]
    exact except_bind_eq_ok.mpr ⟨checks, allOk_eq_ok.mpr hmap, rfl⟩

/-! ## Totals of a ready treasury -/

theorem totalRequired_le_of_single {obligations : List TreasuryObligation} {asset : String} {available : Int}
    (hone : (obligations.filter fun ob => ob.asset = asset).length = 1)
    (hle : ∀ ob ∈ obligations, ob.asset = asset → ob.requiredAmount ≤ available) :
    totalRequired obligations asset ≤ available := by
  obtain ⟨ob, hob⟩ := List.length_eq_one_iff.mp hone
  have hmem : ob ∈ obligations.filter fun ob => ob.asset = asset := by rw [hob]; simp
  obtain ⟨hmem, hasset⟩ := List.mem_filter.mp hmem
  rw [totalRequired, hob]
  simpa using hle ob hmem (by simpa using hasset)

/-- A treasury that is ready covers the total of every asset exactly when it
covers those of the assets that not just one obligation is in, or when some
obligation does not pass. -/
theorem ready_covers_iff (now : JsNumber ν) (input : EvaluateTreasuryReadinessInput ν μ)
    (options : ReadinessEvaluationOptions) :
    (∀ result, evaluateTreasuryReadiness now input options = .ok result → result.isReady = true →
        ∀ asset, totalRequired input.obligations asset ≤ suppliedBalance input.treasuryBalances asset) ↔
      (∃ ob ∈ input.obligations, ¬Passes options (input.defaultBufferPercent.getD (.finite 0))
          (assetState input.treasuryBalances ob.asset) ob) ∨
        ∀ asset, (input.obligations.filter fun ob => ob.asset = asset).length ≠ 1 →
          totalRequired input.obligations asset ≤ suppliedBalance input.treasuryBalances asset := by
  constructor
  · intro hcovers
    by_cases hall : AllPass input options
    · obtain ⟨result, hresult, hready⟩ := isReady_iff.mpr hall
      exact .inr fun asset _ => hcovers result hresult hready asset
    · simp only [AllPass, not_forall, exists_prop] at hall
      exact .inl hall
  · intro hcond result hresult hready asset
    have hall : AllPass input options := isReady_iff.mp ⟨result, hresult, hready⟩
    rcases hcond with ⟨ob, hob, hfails⟩ | htotals
    · exact absurd (hall ob hob) hfails
    · by_cases hone : (input.obligations.filter fun ob => ob.asset = asset).length = 1
      · apply totalRequired_le_of_single hone
        intro ob hob hasset
        rw [← availableBalance_assetState, ← hasset]
        exact (hall ob hob).covered
      · exact htotals asset hone

/-- Two obligations of 60 in an asset with a balance of 100, all of it reserved. -/
def sharedAsset : EvaluateTreasuryReadinessInput Int Unit where
  obligations := [{ asset := "native", requiredAmount := 60 }, { asset := "native", requiredAmount := 60 }]
  treasuryBalances := [{ asset := "native", availableBalance := 100, reservedAmount := some 100 }]

/-- The treasury is ready for 120 with a balance of 100. -/
theorem ready_short_of_total :
    (∃ result, evaluateTreasuryReadiness (.finite 0) sharedAsset {} = .ok result ∧ result.isReady = true) ∧
      suppliedBalance sharedAsset.treasuryBalances "native" < totalRequired sharedAsset.obligations "native" := by
  refine ⟨⟨_, rfl, ?_⟩, ?_⟩
  · decide +kernel
  · decide +kernel

end ZkPayroll.Treasury
