import ZkPayroll.Assets.Formatters
import ZkPayroll.Framework.Rounding

/-!
# Rounding amounts

`assertValidDecimals` and `getDecimalScaleFactor` of `assets/decimals.ts`, and
`roundAmount` and `canRepresentExactly` of `assets/amountRounding.ts`. Division
is towards zero there, and a remainder is compared with half of the divisor, or
with zero, as if it had no sign. So negative amounts that are not exact are
rounded as the mode says only by some modes (`roundAmount_exact_iff`).
-/

namespace ZkPayroll.Assets

open Framework ZkPayroll.Core Treasury

variable {ν : Type} [NumberFormat ν] [CommRing ν] [LinearOrder ν] [FloorRing ν]

/-! ## Decimals -/

def minSupportedDecimals : Int := 0

def maxSupportedDecimals : Int := 18

def assertValidDecimals (decimals : JsNumber ν) : Except SdkError Unit :=
  let received := numberText decimals
  match decimals.toInteger with
  | none => .error { genericError s!"Decimals must be an integer, received: {received}" with name := "TypeError" }
  | some n =>
    throwIf (n < minSupportedDecimals ∨ n > maxSupportedDecimals)
      { genericError s!"Decimals must be between {minSupportedDecimals} and {maxSupportedDecimals}, received: {received}"
        with name := "RangeError" }

/-- The scale of the decimals, from the cache or kept in it. -/
def cachedScale {ε : Type} (toFailure : SdkError → ε) (decimals : JsNumber ν) : Method ε (ScaleCache ν) Int :=
  fun cache =>
    match getScale decimals cache with
    | (.ok scale, cache) => .ok scale cache
    | (.error e, cache) => .error (toFailure e) cache

def getDecimalScaleFactor (decimals : JsNumber ν) : Method SdkError (ScaleCache ν) Int := do
  assertValidDecimals decimals
  cachedScale id decimals

/-! ## Rounding -/

structure RoundAmountOptions where
  rounding : Option RoundingMode := none

structure RoundedAmount (ν : Type) where
  amount : Int
  targetDecimals : JsNumber ν
  wasRounded : Bool
  originalAmount : Int
  sourceDecimals : JsNumber ν

/-- The quotient by the divisor, by the mode. -/
def roundQuotient (rounding : RoundingMode) (amount divisor : Int) : Int :=
  let quotient := amount.tdiv divisor
  let remainder := amount.tmod divisor
  match rounding with
  | .truncate => quotient
  | .halfUp =>
    let halfDivisor := divisor.tdiv 2
    quotient + if remainder ≥ halfDivisor then 1 else 0
  | .ceil => quotient + if remainder > 0 then 1 else 0
  | .floor => quotient

def roundAmount (amount : Int) (sourceDecimals targetDecimals : JsNumber ν) (options : RoundAmountOptions) :
    Method SdkError (ScaleCache ν) (RoundedAmount ν) := do
  assertValidDecimals sourceDecimals
  assertValidDecimals targetDecimals
  let rounding := options.rounding.getD .halfUp
  if sourceDecimals.eq targetDecimals then
    return {
      amount := amount
      targetDecimals := targetDecimals
      wasRounded := false
      originalAmount := amount
      sourceDecimals := sourceDecimals }
  else
    -- the two scales are not used, but they are cached
    let _ ← getDecimalScaleFactor sourceDecimals
    let _ ← getDecimalScaleFactor targetDecimals
    if sourceDecimals.lt targetDecimals then
      let multiplier ← getDecimalScaleFactor (targetDecimals.sub sourceDecimals)
      return {
        amount := amount * multiplier
        targetDecimals := targetDecimals
        wasRounded := false
        originalAmount := amount
        sourceDecimals := sourceDecimals }
    else
      let divisor ← getDecimalScaleFactor (sourceDecimals.sub targetDecimals)
      return {
        amount := roundQuotient rounding amount divisor
        targetDecimals := targetDecimals
        wasRounded := amount.tmod divisor != 0
        originalAmount := amount
        sourceDecimals := sourceDecimals }

def canRepresentExactly (amount : Int) (sourceDecimals targetDecimals : JsNumber ν) :
    Method SdkError (ScaleCache ν) Bool := do
  assertValidDecimals sourceDecimals
  assertValidDecimals targetDecimals
  if sourceDecimals.le targetDecimals then return true
  else
    let divisor ← getDecimalScaleFactor (sourceDecimals.sub targetDecimals)
    return amount.tmod divisor == 0

/-! ## Valid decimals -/

/-- The decimals are a natural number up to 18. -/
structure IsPrecision (decimals : JsNumber ν) (d : Nat) : Prop where
  isDecimals : IsDecimals decimals d
  le_max : d ≤ 18

variable {decimals : JsNumber ν}

omit [NumberFormat ν] in
theorem IsDecimals.eq_finite {d : Nat} (h : IsDecimals decimals d) :
    decimals = .finite (d : ν) := by
  cases decimals with
  | finite a =>
    rw [IsDecimals, JsNumber.toInteger] at h
    split at h
    · rename_i ha
      rw [Option.some.injEq] at h
      rw [← ha, h, Int.cast_natCast]
    · cases h
  | _ => cases h

theorem assertValidDecimals_eq_ok {d : Nat} (h : IsPrecision decimals d) :
    assertValidDecimals decimals = .ok () := by
  have hinteger : decimals.toInteger = some (d : Int) := h.isDecimals
  have hle := h.le_max
  rw [assertValidDecimals, hinteger]
  refine throwIf_eq_ok.mpr ?_
  rw [minSupportedDecimals, maxSupportedDecimals]
  omega

theorem cachedScale_eq {ε : Type} (toFailure : SdkError → ε) {d : Nat}
    (h : IsDecimals decimals d) (cache : ScaleCache ν) :
    ∃ cache', cachedScale toFailure decimals cache = .ok (10 ^ d) cache' := by
  obtain ⟨d', cache', hd', hscale⟩ | ⟨hnone, -⟩ := getScale_eq decimals cache
  · exact ⟨cache', by rw [cachedScale, hscale, hd'.unique h]⟩
  · exact absurd h (hnone d)

theorem getDecimalScaleFactor_eq {d : Nat} (h : IsPrecision decimals d)
    (cache : ScaleCache ν) : ∃ cache', getDecimalScaleFactor decimals cache = .ok (10 ^ d) cache' := by
  obtain ⟨cache', hscale⟩ := cachedScale_eq id h.isDecimals cache
  refine ⟨cache', ?_⟩
  rw [getDecimalScaleFactor, assertValidDecimals_eq_ok h]
  exact hscale

section Ordered

variable [IsStrictOrderedRing ν]

omit [NumberFormat ν] in
theorem isDecimals_natCast (d : Nat) : IsDecimals (.finite (d : ν)) d := by
  rw [IsDecimals, JsNumber.toInteger, if_pos]
  · rw [Int.floor_natCast]
  · rw [Int.floor_natCast, Int.cast_natCast]

omit [NumberFormat ν] in
/-- The difference of decimals. -/
theorem IsPrecision.sub {source target : JsNumber ν} {s t : Nat} (hs : IsPrecision source s)
    (ht : IsPrecision target t) (hle : t ≤ s) : IsPrecision (source.sub target) (s - t) := by
  have hsle := hs.le_max
  refine ⟨?_, by omega⟩
  have hsub : source.sub target = .finite ((s - t : Nat) : ν) := by
    rw [hs.isDecimals.eq_finite, ht.isDecimals.eq_finite, JsNumber.sub, JsNumber.neg, JsNumber.add, Nat.cast_sub hle,
      sub_eq_add_neg]
  rw [hsub]
  exact isDecimals_natCast _

/-! ## What the calls return -/

variable {source target : JsNumber ν} {s t : Nat}

omit [NumberFormat ν] in
/-- Decimals are compared as the numbers they are. -/
theorem IsPrecision.compare (hs : IsPrecision source s) (ht : IsPrecision target t) :
    source.eq target = decide (s = t) ∧ source.lt target = decide (s < t) ∧ source.le target = decide (s ≤ t) := by
  rw [hs.isDecimals.eq_finite, ht.isDecimals.eq_finite]
  refine ⟨by simp [JsNumber.eq, JsNumber.isNaN], ?_, by simp [JsNumber.le]⟩
  rw [Bool.eq_iff_iff]
  simp only [JsNumber.lt, JsNumber.le, Nat.cast_le, Bool.and_eq_true, Bool.not_eq_true', decide_eq_true_eq,
    decide_eq_false_iff_not]
  omega

variable (rounding : RoundingMode)

/-- The amount in units of the target. -/
def rescaled (amount : Int) (s t : Nat) : Int :=
  if t < s then roundQuotient rounding amount (10 ^ (s - t)) else amount * 10 ^ (t - s)

variable (amount : Int)

/-- The amount is a whole number of units of the target. -/
def IsExact (s t : Nat) : Prop := t < s → amount.tmod (10 ^ (s - t)) = 0

instance (amount : Int) (s t : Nat) : Decidable (IsExact amount s t) := inferInstanceAs (Decidable (_ → _))

theorem roundAmount_eq (hs : IsPrecision source s) (ht : IsPrecision target t)
    (options : RoundAmountOptions) (cache : ScaleCache ν) :
    ∃ cache', roundAmount amount source target options cache =
      .ok {
        amount := rescaled (options.rounding.getD .halfUp) amount s t
        targetDecimals := target
        wasRounded := !decide (IsExact amount s t)
        originalAmount := amount
        sourceDecimals := source } cache' := by
  obtain ⟨heq, hlt, -⟩ := hs.compare ht
  rw [roundAmount, assertValidDecimals_eq_ok hs, assertValidDecimals_eq_ok ht]
  show ∃ cache', (if source.eq target = true then _ else _ : Method SdkError (ScaleCache ν) _) cache = _
  rw [heq, hlt]
  rcases Nat.lt_trichotomy s t with hst | rfl | hst
  · obtain ⟨cache₁, h₁⟩ := getDecimalScaleFactor_eq hs cache
    obtain ⟨cache₂, h₂⟩ := getDecimalScaleFactor_eq ht cache₁
    obtain ⟨cache₃, h₃⟩ := getDecimalScaleFactor_eq (ht.sub hs hst.le) cache₂
    refine ⟨cache₃, ?_⟩
    have hne : ¬t < s := by omega
    rw [if_neg (by simpa using hst.ne), Method.bind_of_ok h₁, Method.bind_of_ok h₂, if_pos (by simpa using hst),
      Method.bind_of_ok h₃]
    simp [rescaled, IsExact, hne]
    rfl
  · refine ⟨cache, ?_⟩
    rw [if_pos (by simp)]
    simp [rescaled, IsExact]
    rfl
  · obtain ⟨cache₁, h₁⟩ := getDecimalScaleFactor_eq hs cache
    obtain ⟨cache₂, h₂⟩ := getDecimalScaleFactor_eq ht cache₁
    obtain ⟨cache₃, h₃⟩ := getDecimalScaleFactor_eq (hs.sub ht hst.le) cache₂
    refine ⟨cache₃, ?_⟩
    rw [if_neg (by simpa using hst.ne'), Method.bind_of_ok h₁, Method.bind_of_ok h₂, if_neg (by simpa using hst.le),
      Method.bind_of_ok h₃]
    simp [rescaled, IsExact, hst]
    rfl

theorem canRepresentExactly_eq (hs : IsPrecision source s) (ht : IsPrecision target t)
    (cache : ScaleCache ν) :
    ∃ cache', canRepresentExactly amount source target cache = .ok (decide (IsExact amount s t)) cache' := by
  obtain ⟨-, -, hle⟩ := hs.compare ht
  rw [canRepresentExactly, assertValidDecimals_eq_ok hs, assertValidDecimals_eq_ok ht]
  show ∃ cache', (if source.le target = true then _ else _ : Method SdkError (ScaleCache ν) _) cache = _
  rw [hle]
  rcases Nat.lt_or_ge t s with hst | hst
  · obtain ⟨cache', h⟩ := getDecimalScaleFactor_eq (hs.sub ht hst.le) cache
    refine ⟨cache', ?_⟩
    rw [if_neg (by simpa using hst), Method.bind_of_ok h]
    simp [IsExact, hst]
    rfl
  · refine ⟨cache, ?_⟩
    have hne : ¬t < s := by omega
    rw [if_pos (by simpa using hst)]
    simp [IsExact, hne]
    rfl

/-! ## Exact rounding -/

/-- A negative amount of whose digits some are dropped: by `FLOOR` it is not
rounded down, and by `HALF_UP` it does not go up to the next. -/
def Misrounds (amount : Int) (s t : Nat) : Prop :=
  t < s ∧ amount < 0 ∧
    (rounding = .floor ∧ 0 < amount.natAbs % 10 ^ (s - t) ∨
      rounding = .halfUp ∧ 10 ^ (s - t) ≤ 2 * (amount.natAbs % 10 ^ (s - t)))

theorem tmod_of_neg {amount : Int} (h : amount < 0) (d : Nat) : amount.tmod d = -((amount.natAbs % d : Nat) : Int) := by
  obtain ⟨n, rfl⟩ := Int.exists_eq_neg_ofNat h.le
  rw [Int.neg_tmod, Int.natAbs_neg]
  rfl

/-- A power of ten, which is not one, and its half. -/
theorem half_le_iff {k : Nat} (hk : 0 < k) (m : Int) : ((10 : Int) ^ k).tdiv 2 ≤ m ↔ 10 ^ k ≤ 2 * m := by
  obtain ⟨k, rfl⟩ : ∃ j, k = j + 1 := ⟨k - 1, by omega⟩
  have hpow : (10 : Int) ^ (k + 1) = 10 ^ k * 5 * 2 := by ring
  rw [hpow, Int.mul_tdiv_cancel _ (by omega)]
  omega

/-- The quotient is the one of the mode but where the amount is misrounded. -/
theorem roundQuotient_eq_iff (amount : Int) (hst : t < s) :
    roundQuotient rounding amount (10 ^ (s - t)) =
        amount.tdiv (10 ^ (s - t)) + rounding.adjust (amount.tmod (10 ^ (s - t))) (10 ^ (s - t)) ↔
      ¬Misrounds rounding amount s t := by
  have hhalf := half_le_iff (k := s - t) (by omega) (amount.tmod (10 ^ (s - t)))
  have hpos : 0 < 10 ^ (s - t) := Nat.pow_pos (by omega)
  have hcast : ((10 ^ (s - t) : Nat) : Int) = 10 ^ (s - t) := by push_cast; rfl
  have hsign : amount < 0 → amount.tmod (10 ^ (s - t)) = -((amount.natAbs % 10 ^ (s - t) : Nat) : Int) := by
    intro h
    rw [← hcast, tmod_of_neg h]
  have hnonneg : 0 ≤ amount → 0 ≤ amount.tmod (10 ^ (s - t)) := Int.tmod_nonneg _
  unfold Misrounds roundQuotient
  simp only [hst, true_and, ge_iff_le, hhalf]
  generalize amount.tmod (10 ^ (s - t)) = m at hsign hnonneg ⊢
  generalize amount.natAbs % 10 ^ (s - t) = r at hsign ⊢
  generalize amount.tdiv (10 ^ (s - t)) = q
  rw [← hcast]
  generalize 10 ^ (s - t) = d at hpos ⊢
  cases rounding with
  | truncate => simp [RoundingMode.adjust]
  | ceil => simp [RoundingMode.adjust]
  | floor =>
    simp only [RoundingMode.adjust, true_and, reduceCtorEq, false_and, or_false]
    split
    · omega
    · omega
  | halfUp =>
    simp only [RoundingMode.adjust, true_and, reduceCtorEq, false_and, false_or]
    split
    · omega
    · split
      · omega
      · omega

/-- The amount in units of the target is the exact one, rounded. -/
theorem rescaled_eq_iff (amount : Int) (s t : Nat) :
    rescaled rounding amount s t = rounding.round (amount / 10 ^ s * 10 ^ t) ↔ ¬Misrounds rounding amount s t := by
  rcases Nat.lt_or_ge t s with hst | hst
  · have hquotient : (amount : ℚ) / 10 ^ s * 10 ^ t = amount / ((10 ^ (s - t) : Nat) : ℚ) := by
      have hpow : (10 : ℚ) ^ s = 10 ^ (s - t) * 10 ^ t := by
        rw [← pow_add]
        congr 1
        omega
      rw [hpow]
      push_cast
      field_simp
    rw [hquotient, RoundingMode.round_div _ _ (Nat.pow_pos (by omega)), rescaled, if_pos hst]
    push_cast
    exact roundQuotient_eq_iff rounding amount hst
  · have hproduct : (amount : ℚ) / 10 ^ s * 10 ^ t = ((amount * 10 ^ (t - s) : Int) : ℚ) := by
      have hpow : (10 : ℚ) ^ t = 10 ^ (t - s) * 10 ^ s := by
        rw [← pow_add]
        congr 1
        omega
      rw [hpow]
      push_cast
      field_simp
    have hne : ¬t < s := by omega
    rw [hproduct, RoundingMode.round_intCast, rescaled, if_neg hne]
    exact iff_of_true rfl fun h => hne h.1

/-- The call returns the exact amount, rounded by the mode, and says that it was
rounded just if it cannot be represented exactly. -/
def RoundsExactly (source target : JsNumber ν) (s t : Nat) (options : RoundAmountOptions) : Prop :=
  ∀ cache, ∃ rounded cache', roundAmount amount source target options cache = .ok rounded cache' ∧
    rounded.amount = (options.rounding.getD .halfUp).round (amount / 10 ^ s * 10 ^ t) ∧
    ∀ cache, ∃ exact cache', canRepresentExactly amount source target cache = .ok exact cache' ∧
      (rounded.wasRounded = true ↔ exact = false)

theorem roundAmount_exact_iff (amount : Int) (hs : IsPrecision source s) (ht : IsPrecision target t)
    (options : RoundAmountOptions) :
    RoundsExactly amount source target s t options ↔ ¬Misrounds (options.rounding.getD .halfUp) amount s t := by
  rw [← rescaled_eq_iff]
  constructor
  · intro h
    have cache : ScaleCache ν := ⟨[], fun _ hf => absurd hf List.not_mem_nil⟩
    obtain ⟨rounded, cache', hrounded, hamount, -⟩ := h cache
    obtain ⟨cache'', heq⟩ := roundAmount_eq amount hs ht options cache
    rw [heq] at hrounded
    cases hrounded
    exact hamount
  · intro h cache
    obtain ⟨cache', hrounded⟩ := roundAmount_eq amount hs ht options cache
    refine ⟨_, cache', hrounded, h, fun cache => ?_⟩
    obtain ⟨cache', hexact⟩ := canRepresentExactly_eq amount hs ht cache
    exact ⟨_, cache', hexact, by simp⟩

end Ordered

/-- One decimal and none. -/
theorem one_and_none : IsPrecision (.finite 1 : JsNumber Int) 1 ∧ IsPrecision (.finite 0 : JsNumber Int) 0 :=
  ⟨⟨rfl, by decide⟩, rfl, by decide⟩

/-- 1.5 is rounded up. -/
theorem one_and_a_half :
    (IsPrecision (.finite 1 : JsNumber Int) 1 ∧ IsPrecision (.finite 0 : JsNumber Int) 0) ∧
      (RoundsExactly 15 (.finite 1 : JsNumber Int) (.finite 0) 1 0 {} ↔ ¬Misrounds .halfUp 15 1 0) :=
  ⟨one_and_none, roundAmount_exact_iff 15 one_and_none.1 one_and_none.2 {}⟩

/-- -1.5 is rounded to -1, both to the nearest and down. -/
theorem minus_one_and_a_half :
    ¬RoundsExactly (-15) (.finite 1 : JsNumber Int) (.finite 0) 1 0 { rounding := some .halfUp } ∧
      ¬RoundsExactly (-15) (.finite 1 : JsNumber Int) (.finite 0) 1 0 { rounding := some .floor } := by
  have hcache : ∀ f ∈ ([] : List (JsNumber Int × Int)), ∃ n : Nat, f.1.toInteger = some (n : Int) ∧ f.2 = 10 ^ n :=
    fun _ hf => absurd hf List.not_mem_nil
  constructor
  · intro h
    obtain ⟨rounded, cache', hrounded, hamount, -⟩ := h ⟨[], hcache⟩
    cases hrounded
    revert hamount
    decide +kernel
  · intro h
    obtain ⟨rounded, cache', hrounded, hamount, -⟩ := h ⟨[], hcache⟩
    cases hrounded
    revert hamount
    decide +kernel

end ZkPayroll.Assets
