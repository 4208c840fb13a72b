import Mathlib.Data.Int.Bitwise
import Mathlib.Data.Nat.Size
import Mathlib.Tactic.Ring

/-!
# Words as numbers

What becomes of 64-bit words that are read as numbers:

* `lor_shiftLeft`: a high word shifted and a low word put in with an or are
  the number of which they are the two parts;
* `toDouble_eq_self_iff`: a word that becomes a double keeps its value when it
  has 53 significant bits at most.
-/

namespace ZkPayroll.Framework

/-! ## Two words joined -/

/-- The bits of `n` that the low part of `(m + 1) * 2 ^ k - 1` has are cleared, the others stay. -/
theorem ldiff_low {n k : Nat} (m : Nat) (h : n < 2 ^ k) :
    Nat.ldiff (2 ^ k * m + (2 ^ k - 1)) n = 2 ^ k * m + (2 ^ k - (n + 1)) := by
  apply Nat.eq_of_testBit_eq
  intro i
  have hlow : 2 ^ k - 1 < 2 ^ k := Nat.sub_lt (Nat.two_pow_pos k) (by decide)
  have hrest : 2 ^ k - (n + 1) < 2 ^ k := Nat.sub_lt (Nat.two_pow_pos k) (Nat.succ_pos n)
  rw [Nat.testBit_ldiff, Nat.testBit_two_pow_mul_add m hlow, Nat.testBit_two_pow_mul_add m hrest,
    Nat.testBit_two_pow_sub_one, Nat.testBit_two_pow_sub_succ h]
  by_cases hi : i < k
  · simp only [hi, if_true]
  · have hzero : n.testBit i = false :=
      Nat.testBit_lt_two_pow (h.trans_le (Nat.pow_le_pow_right (by decide) (Nat.le_of_not_lt hi)))
    simp only [hi, if_false, hzero, Bool.not_false, Bool.and_true]

theorem lor_shiftLeft (a : Int) {n k : Nat} (h : n < 2 ^ k) : Int.lor (a <<< k) n = a * 2 ^ k + n := by
  cases a with
  | ofNat m =>
    have hshift : (Int.ofNat m <<< k) = Int.ofNat (m <<< k) := rfl
    rw [hshift]
    show Int.ofNat (m <<< k ||| n) = _
    rw [← Nat.shiftLeft_add_eq_or_of_lt h, Nat.shiftLeft_eq]
    simp
  | negSucc m =>
    have hpos : 0 < 2 ^ k := Nat.two_pow_pos k
    have hshift : (Int.negSucc m <<< k) = Int.negSucc (2 ^ k * m + (2 ^ k - 1)) := by
      rw [Int.shiftLeft_eq, Int.negSucc_eq, Int.negSucc_eq]
      push_cast [Nat.cast_sub hpos]
      ring
    rw [hshift]
    show Int.negSucc (Nat.ldiff _ n) = _
    rw [ldiff_low m h, Int.negSucc_eq, Int.negSucc_eq]
    push_cast [Nat.cast_sub h]
    ring

/-! ## Doubles -/

variable (n : Nat)

/-- The distance between the doubles around `n`. -/
def doubleUnit : Nat := 2 ^ (n.size - 53)

/-- The double nearest to `n`; of two at the same distance, the one whose last bit is even. -/
def toDouble : Nat :=
  let q := n / doubleUnit n
  let r := n % doubleUnit n
  if 2 * r < doubleUnit n ∨ 2 * r = doubleUnit n ∧ q % 2 = 0 then q * doubleUnit n else (q + 1) * doubleUnit n

/-- `n` has 53 significant bits at most. -/
def FitsDouble : Prop := doubleUnit n ∣ n

instance (n : Nat) : Decidable (FitsDouble n) := inferInstanceAs (Decidable (_ ∣ _))

theorem doubleUnit_pos : 0 < doubleUnit n := Nat.two_pow_pos _

theorem doubleUnit_dvd_toDouble : doubleUnit n ∣ toDouble n := by
  unfold toDouble
  dsimp only
  split <;> exact Dvd.intro_left _ rfl

theorem toDouble_eq_self_iff : toDouble n = n ↔ FitsDouble n := by
  constructor
  · intro h
    have hdvd := doubleUnit_dvd_toDouble n
    rw [h] at hdvd
    exact hdvd
  · intro h
    have hrest : 2 * (n % doubleUnit n) < doubleUnit n := by
      rw [Nat.mod_eq_zero_of_dvd h]
      exact doubleUnit_pos n
    show ite _ _ _ = n
    rw [if_pos (.inl hrest), Nat.div_mul_cancel h]

theorem doubleUnit_le {n : Nat} (h : n ≠ 0) : doubleUnit n ≤ n := by
  apply Nat.lt_size.mp
  have := Nat.size_pos.mpr (Nat.pos_of_ne_zero h)
  omega

/-- Only zero becomes zero. -/
theorem toDouble_eq_zero_iff : toDouble n = 0 ↔ n = 0 := by
  constructor
  · intro h
    by_contra hn
    have hpos := doubleUnit_pos n
    have hq : 0 < n / doubleUnit n := Nat.div_pos (doubleUnit_le hn) hpos
    unfold toDouble at h
    dsimp only at h
    split at h
    · exact (Nat.mul_pos hq hpos).ne' h
    · exact (Nat.mul_pos (Nat.succ_pos _) hpos).ne' h
  · intro h
    have hfits : FitsDouble n := by
      rw [h]
      exact dvd_zero _
    rw [(toDouble_eq_self_iff n).mpr hfits, h]

end ZkPayroll.Framework
