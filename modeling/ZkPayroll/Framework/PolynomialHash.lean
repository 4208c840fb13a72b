import Mathlib.RingTheory.Int.Basic
import Mathlib.Tactic.Ring

/-!
# Polynomial hashes

The hash of a text is the value of a polynomial whose coefficients are its
units (`polyHash`). Computed in wrapping arithmetic it is that value modulo the
word size (`foldl_wrap`). The change of one unit moves it by a multiple of a
power of the base (`polyHash_change`), which an odd base never wraps to nothing
(`not_dvd_change`). Two words have the same absolute value when they are equal or
opposite modulo the word size (`natAbs_bmod_eq_iff`).
-/

namespace ZkPayroll.Framework

/-- The value at `b` of the polynomial with the coefficients `us`. -/
def polyHash (b : Int) (us : List Nat) : Int := us.foldl (fun (h : Int) (u : Nat) => b * h + (u : Int)) 0

/-- A hash that starts from `h`. -/
theorem foldl_polyHash (b h : Int) (us : List Nat) :
    us.foldl (fun (h : Int) (u : Nat) => b * h + (u : Int)) h = h * b ^ us.length + polyHash b us := by
  induction us generalizing h with
  | nil => simp [polyHash]
  | cons u us ih =>
    have hcons : polyHash b (u :: us) = (b * 0 + u) * b ^ us.length + polyHash b us := by
      rw [polyHash, List.foldl_cons, ih]
    rw [List.foldl_cons, ih, hcons, List.length_cons]
    ring

theorem polyHash_append (b : Int) (us vs : List Nat) :
    polyHash b (us ++ vs) = polyHash b us * b ^ vs.length + polyHash b vs := by
  rw [polyHash, List.foldl_append, foldl_polyHash]
  rfl

theorem polyHash_cons (b : Int) (u : Nat) (us : List Nat) : polyHash b (u :: us) = u * b ^ us.length + polyHash b us := by
  rw [polyHash, List.foldl_cons, foldl_polyHash]
  ring

/-- The change of one unit. -/
theorem polyHash_change (b : Int) (before after : List Nat) (u v : Nat) :
    polyHash b (before ++ v :: after) =
      polyHash b (before ++ u :: after) + ((v : Int) - u) * b ^ after.length := by
  rw [polyHash_append, polyHash_append, polyHash_cons, polyHash_cons, List.length_cons, List.length_cons]
  ring

/-- Wrapping after every step is wrapping at the end. -/
theorem foldl_wrap {b : Int} {m : Nat} {step : Int → Nat → Int} (hstep : ∀ h u, step h u = (b * h + u).bmod m)
    (us : List Nat) : (us.foldl step 0).bmod m = (polyHash b us).bmod m := by
  induction us using List.reverseRecOn with
  | nil => rfl
  | append_singleton us u ih =>
    rw [polyHash, List.foldl_append, List.foldl_append, List.foldl_cons, List.foldl_nil, List.foldl_cons,
      List.foldl_nil, hstep, Int.bmod_bmod, Int.add_bmod, Int.mul_bmod, ih, ← Int.mul_bmod, ← Int.add_bmod]
    rfl

theorem bmod_eq_bmod_iff {a b : Int} {m : Nat} : a.bmod m = b.bmod m ↔ (m : Int) ∣ a - b := by
  rw [Int.bmod_eq_bmod_iff_bmod_sub_eq_zero, ← Int.dvd_iff_bmod_eq_zero]

/-- Two words have the same absolute value when they are equal or opposite. -/
theorem natAbs_bmod_eq_iff {a b : Int} {m : Nat} :
    (a.bmod m).natAbs = (b.bmod m).natAbs ↔ (m : Int) ∣ a - b ∨ (m : Int) ∣ a + b := by
  have hopposite : (m : Int) ∣ a + b ↔ a.bmod m = (-b).bmod m := by
    rw [bmod_eq_bmod_iff, sub_neg_eq_add]
  rw [← bmod_eq_bmod_iff, hopposite, Int.natAbs_eq_natAbs_iff, Int.neg_bmod]
  constructor
  · rintro (h | h)
    · exact .inl h
    · split
      · rename_i hhalf
        have hwrapped := congrArg (Int.bmod · m) h
        rw [Int.bmod_bmod, Int.bmod_neg_bmod, Int.neg_bmod, if_pos hhalf] at hwrapped
        exact .inl hwrapped
      · exact .inr h
  · rintro (h | h)
    · exact .inl h
    · split at h
      · exact .inl h
      · exact .inr h

/-- With an odd base, the change of one unit by less than the word size is no
multiple of the word size. -/
theorem not_dvd_change {b d : Int} {w : Nat} (hb : Odd b) (hd : d ≠ 0) (hlt : d.natAbs < 2 ^ w) (k : Nat) :
    ¬((2 ^ w : Nat) : Int) ∣ d * b ^ k := by
  intro hdvd
  have hcoprime : IsCoprime ((2 ^ w : Nat) : Int) (b ^ k) := by
    rw [Nat.cast_pow]
    exact (Int.isCoprime_two_left.mpr hb).pow
  have habs : |d| < ((2 ^ w : Nat) : Int) := by
    rw [Int.abs_eq_natAbs]
    exact Int.ofNat_lt.mpr hlt
  exact hd (Int.eq_zero_of_abs_lt_dvd (hcoprime.dvd_of_dvd_mul_right hdvd) habs)

end ZkPayroll.Framework
