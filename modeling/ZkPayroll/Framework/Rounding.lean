import ZkPayroll.Framework.DecimalText

/-!
# Rounding to an integer

What the rounding modes make of a rational number (`RoundingMode.round`). A
quotient of integers is rounded to the quotient without its fraction, or to a
neighbour of it that the remainder tells (`round_div`).
-/

namespace ZkPayroll.Framework

inductive RoundingMode where
  /-- To the nearest integer, a half away from zero. -/
  | halfUp
  /-- Towards zero. -/
  | truncate
  | ceil
  | floor
  deriving DecidableEq

namespace RoundingMode

/-- The integer that the mode rounds to. -/
def round : RoundingMode → ℚ → Int
  | .halfUp, q => if q < 0 then -⌊-q + 1 / 2⌋ else ⌊q + 1 / 2⌋
  | .truncate, q => Framework.truncate q
  | .ceil, q => ⌈q⌉
  | .floor, q => ⌊q⌋

/-- What is added to a quotient that is rounded towards zero and leaves the
remainder `m` of `d`. -/
def adjust : RoundingMode → Int → Nat → Int
  | .halfUp, m, d => if d ≤ 2 * m then 1 else if d ≤ -(2 * m) then -1 else 0
  | .truncate, _, _ => 0
  | .ceil, m, _ => if 0 < m then 1 else 0
  | .floor, m, _ => if m < 0 then -1 else 0

end RoundingMode

/-! ## Between two integers -/

section Fractions

variable {r : ℚ}

theorem floor_zero_of {r : ℚ} (h₀ : 0 ≤ r) (h₁ : r < 1) : ⌊r⌋ = 0 := Int.floor_eq_zero_iff.mpr ⟨h₀, h₁⟩

theorem floor_one_of {r : ℚ} (h₁ : 1 ≤ r) (h₂ : r < 2) : ⌊r⌋ = 1 := by
  rw [Int.floor_eq_iff]
  norm_num
  exact ⟨h₁, h₂⟩

/-- A nonnegative fraction goes up from its half on. -/
theorem floor_add_half (h₀ : 0 ≤ r) (h₁ : r < 1) : ⌊r + 1 / 2⌋ = if 1 ≤ 2 * r then 1 else 0 := by
  split
  · exact floor_one_of (by linarith) (by linarith)
  · exact floor_zero_of (by linarith) (by linarith)

theorem ceil_fraction (h₀ : -1 < r) (h₁ : r < 1) : ⌈r⌉ = if 0 < r then 1 else 0 := by
  rw [Int.ceil_eq_iff]
  split
  · norm_num
    exact ⟨by assumption, h₁.le⟩
  · norm_num
    exact ⟨h₀, by linarith⟩

theorem floor_fraction (h₀ : -1 < r) (h₁ : r < 1) : ⌊r⌋ = if r < 0 then -1 else 0 := by
  rw [Int.floor_eq_iff]
  split
  · norm_num
    exact ⟨h₀.le, by assumption⟩
  · norm_num
    exact ⟨by linarith, h₁⟩

end Fractions

/-! ## Quotients -/

section Quotients

variable {n : Int} {d : Nat}

/-- A quotient is one without a fraction and the share of the remainder. -/
theorem div_eq_tdiv_add (hd : 0 < d) : (n : ℚ) / d = (n.tdiv d : Int) + (n.tmod d : Int) / (d : ℚ) := by
  have hne : (d : ℚ) ≠ 0 := by
    rw [Nat.cast_ne_zero]
    omega
  have hsum : (n : ℚ) = d * (n.tdiv d : Int) + (n.tmod d : Int) := by
    have h := congrArg (Int.cast (R := ℚ)) (Int.mul_tdiv_add_tmod n d)
    push_cast at h
    exact h.symm
  rw [hsum, add_div, mul_div_cancel_left₀ _ hne]

theorem tmod_nonpos (h : n ≤ 0) : n.tmod d ≤ 0 := by
  have hneg := Int.tmod_nonneg (a := -n) d (by omega)
  rw [Int.neg_tmod] at hneg
  omega

/-- The remainder's share, against the remainder. -/
theorem share_bounds (hd : 0 < d) (m : Int) (h₀ : -(d : Int) < m) (h₁ : m < d) :
    -1 < (m : ℚ) / d ∧ (m : ℚ) / d < 1 ∧ ((m : ℚ) / d < 0 ↔ m < 0) ∧ (0 < (m : ℚ) / d ↔ 0 < m) ∧
      (1 ≤ 2 * ((m : ℚ) / d) ↔ d ≤ 2 * m) := by
  have hpos : (0 : ℚ) < d := by exact_mod_cast hd
  refine ⟨?_, ?_, ?_, ?_, ?_⟩
  · rw [lt_div_iff₀ hpos]
    exact_mod_cast (by omega : -1 * (d : Int) < m)
  · rw [div_lt_one hpos]
    exact_mod_cast h₁
  · rw [div_lt_iff₀ hpos, zero_mul]
    exact Int.cast_lt_zero
  · rw [lt_div_iff₀ hpos, zero_mul]
    exact Int.cast_pos
  · rw [← mul_div_assoc, le_div_iff₀ hpos, one_mul]
    norm_cast

/-- A quotient without its fraction is adjusted by the remainder. -/
theorem RoundingMode.round_div (mode : RoundingMode) (n : Int) (hd : 0 < d) :
    mode.round ((n : ℚ) / d) = n.tdiv d + mode.adjust (n.tmod d) d := by
  have hlt : n.tmod d < d := Int.tmod_lt_of_pos n (by omega)
  have hgt : -(d : Int) < n.tmod d := Int.lt_tmod_of_pos n (by omega)
  obtain ⟨h₀, h₁, hneg, hpos, hhalf⟩ := share_bounds hd _ hgt hlt
  obtain ⟨-, -, -, -, hhalf'⟩ := share_bounds hd (-(n.tmod d)) (by omega) (by omega)
  have hq := div_eq_tdiv_add (n := n) hd
  have hq' : -((n : ℚ) / d) = ((-(n.tdiv d) : Int) : ℚ) + -((n.tmod d : Int) / (d : ℚ)) := by
    rw [hq, Int.cast_neg]
    ring
  have hdpos : (0 : ℚ) < d := by exact_mod_cast hd
  have hsign : (n : ℚ) / d < 0 ↔ n < 0 := by
    rw [div_lt_iff₀ hdpos, zero_mul]
    exact Int.cast_lt_zero
  have hnonneg : 0 ≤ n.tmod d → 0 ≤ (n.tmod d : Int) / (d : ℚ) := fun hr => not_lt.mp (hneg.not.mpr (not_lt.mpr hr))
  have hnonpos : n.tmod d ≤ 0 → (n.tmod d : Int) / (d : ℚ) ≤ 0 := fun hr => not_lt.mp (hpos.not.mpr (not_lt.mpr hr))
  rw [Int.cast_neg, neg_div] at hhalf'
  cases mode with
  | floor =>
    rw [round, adjust, hq, Int.floor_intCast_add, floor_fraction h₀ h₁]
    simp only [hneg]
  | ceil =>
    rw [round, adjust, hq, Int.ceil_intCast_add, ceil_fraction h₀ h₁]
    simp only [hpos]
  | truncate =>
    rw [round, adjust, Framework.truncate]
    rcases lt_or_ge n 0 with hn | hn
    · have hr : n.tmod d ≤ 0 := tmod_nonpos hn.le
      have hzero : ⌊-((n.tmod d : Int) / (d : ℚ))⌋ = 0 := by
        apply floor_zero_of
        · exact neg_nonneg.mpr (hnonpos hr)
        · linarith
      rw [if_pos (hsign.mpr hn), hq', Int.floor_intCast_add, hzero]
      omega
    · have hr : 0 ≤ n.tmod d := Int.tmod_nonneg d hn
      have hzero : ⌊(n.tmod d : Int) / (d : ℚ)⌋ = 0 := floor_zero_of (hnonneg hr) h₁
      rw [if_neg (hsign.not.mpr (not_lt.mpr hn)), hq, Int.floor_intCast_add, hzero]
  | halfUp =>
    rw [round, adjust]
    rcases lt_or_ge n 0 with hn | hn
    · have hr : n.tmod d ≤ 0 := tmod_nonpos hn.le
      have hr' : 0 ≤ -((n.tmod d : Int) / (d : ℚ)) := neg_nonneg.mpr (hnonpos hr)
      have hup : ¬(d : Int) ≤ 2 * n.tmod d := by omega
      rw [if_pos (hsign.mpr hn), hq', add_assoc, Int.floor_intCast_add, floor_add_half hr' (by linarith), if_neg hup]
      simp only [hhalf', Int.mul_neg]
      split
      · omega
      · omega
    · have hr : 0 ≤ n.tmod d := Int.tmod_nonneg d hn
      rw [if_neg (hsign.not.mpr (not_lt.mpr hn)), hq, add_assoc, Int.floor_intCast_add,
        floor_add_half (hnonneg hr) h₁]
      simp only [hhalf]
      split
      · rfl
      · rw [if_neg (by omega)]

/-- Integers are kept. -/
@[simp] theorem RoundingMode.round_intCast (mode : RoundingMode) (n : Int) : mode.round n = n := by
  have h := mode.round_div n Nat.one_pos
  rw [Nat.cast_one, div_one] at h
  rw [h, Nat.cast_one, Int.tdiv_one, Int.tmod_one]
  cases mode <;> simp [adjust]

end Quotients

end ZkPayroll.Framework
