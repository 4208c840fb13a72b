import Mathlib.Algebra.Order.Field.Power
import Mathlib.Tactic.Positivity
import Mathlib.Tactic.FieldSimp
import ZkPayroll.Framework.DecimalText

/-!
# Decimal texts and numbers as they are written

A decimal text is digits, or digits with a point between them
(`matchesDecimal`), and stands for `decimalOf` of its two parts.

`Number.prototype.toString` writes a finite number as the shortest decimal that
is read as it again, and a number is known here by that decimal
(`ShortDecimal`). What is written of a positive number is a decimal text that
stands for it when the number is at least a millionth and less than `10 ^ 21`
(`text_eq_decimal`), and otherwise it has an exponent and is no decimal text
(`text_not_decimal`).
-/

namespace ZkPayroll.Framework

/-! ## Decimal texts -/

/-- `/^\d+(\.\d+)?$/`. -/
def matchesDecimal (cs : List Char) : Bool :=
  !(cs.takeWhile Char.isDigit).isEmpty &&
    match cs.dropWhile Char.isDigit with
    | [] => true
    | c :: rest => c = '.' && isDigits rest

/-- The first two parts of `s.split(".")`, the second being empty if there is
none. -/
def splitPoint (cs : List Char) : List Char × List Char :=
  (cs.takeWhile (· ≠ '.'), ((cs.dropWhile (· ≠ '.')).drop 1).takeWhile (· ≠ '.'))

/-- The number that digits before and after a point stand for. -/
def decimalOf (whole frac : List Char) : ℚ := digitsValue (whole ++ frac) / 10 ^ frac.length

/-- The text has these digits before and after its point, if it has one. -/
structure DecimalParts (cs whole frac : List Char) : Prop where
  digits : isDigits whole = true
  text : cs = whole ∧ frac = [] ∨ cs = whole ++ '.' :: frac ∧ isDigits frac = true

theorem DecimalParts.frac {cs whole frac : List Char} (h : DecimalParts cs whole frac) :
    ∀ c ∈ frac, c.isDigit = true := by
  rcases h.text with ⟨-, hnil⟩ | ⟨-, hfrac⟩
  · rw [hnil]
    exact List.forall_mem_nil _
  · exact (isDigits_iff.mp hfrac).2

theorem isDigit_ne_point {c : Char} (h : c.isDigit = true) : c ≠ '.' := by
  rintro rfl
  revert h
  decide

theorem splitPoint_of_parts {cs whole frac : List Char} (h : DecimalParts cs whole frac) :
    splitPoint cs = (whole, frac) := by
  have hnot : ∀ {l : List Char}, (∀ c ∈ l, c.isDigit = true) →
      ∀ c ∈ l, decide (c ≠ '.') = true := by
    intro l hl c hc
    exact decide_eq_true (isDigit_ne_point (hl c hc))
  have hwhole := hnot (isDigits_iff.mp h.digits).2
  have hfrac := hnot h.frac
  rcases h.text with ⟨rfl, rfl⟩ | ⟨rfl, -⟩
  · rw [splitPoint, List.takeWhile_eq_self_iff.mpr hwhole, List.dropWhile_eq_nil_iff.mpr hwhole]
    rfl
  · rw [splitPoint, List.takeWhile_append_of_pos hwhole, List.dropWhile_append_of_pos hwhole,
      List.takeWhile_cons_of_neg (by decide), List.dropWhile_cons_of_neg (by decide), List.append_nil,
      List.drop_one, List.tail_cons, List.takeWhile_eq_self_iff.mpr hfrac]

theorem matchesDecimal_iff {cs : List Char} :
    matchesDecimal cs = true ↔ ∃ whole frac, DecimalParts cs whole frac := by
  constructor
  · intro h
    rw [matchesDecimal, Bool.and_eq_true, Bool.not_eq_true', List.isEmpty_eq_false_iff] at h
    obtain ⟨hne, hrest⟩ := h
    have hsplit : cs.takeWhile Char.isDigit ++ cs.dropWhile Char.isDigit = cs := List.takeWhile_append_dropWhile
    have hwhole : isDigits (cs.takeWhile Char.isDigit) = true :=
      isDigits_iff.mpr ⟨hne, fun c hc => List.mem_takeWhile_imp hc⟩
    split at hrest
    · rename_i hdrop
      rw [hdrop, List.append_nil] at hsplit
      exact ⟨_, [], hwhole, .inl ⟨hsplit.symm, rfl⟩⟩
    · rename_i c rest hdrop
      rw [Bool.and_eq_true, decide_eq_true_eq] at hrest
      obtain ⟨rfl, hrest⟩ := hrest
      rw [hdrop] at hsplit
      exact ⟨_, rest, hwhole, .inr ⟨hsplit.symm, hrest⟩⟩
  · rintro ⟨whole, frac, hwhole, htext⟩
    obtain ⟨hne, hall⟩ := isDigits_iff.mp hwhole
    rcases htext with ⟨rfl, rfl⟩ | ⟨rfl, hfrac⟩
    · rw [matchesDecimal, List.takeWhile_eq_self_iff.mpr hall, List.dropWhile_eq_nil_iff.mpr hall,
        List.isEmpty_eq_false_iff.mpr hne]
      rfl
    · rw [matchesDecimal, List.takeWhile_append_of_pos hall, List.dropWhile_append_of_pos hall,
        List.takeWhile_cons_of_neg (by decide), List.dropWhile_cons_of_neg (by decide), List.append_nil,
        List.isEmpty_eq_false_iff.mpr hne]
      simpa using hfrac

theorem decimalOf_nonneg (whole frac : List Char) : 0 ≤ decimalOf whole frac := by
  unfold decimalOf
  positivity

/-- A decimal text has no white space around it. -/
theorem trimChars_of_parts {cs whole frac : List Char} (h : DecimalParts cs whole frac) : trimChars cs = cs := by
  refine trimChars_of_no_space fun c hc => ?_
  rcases h.text with ⟨rfl, -⟩ | ⟨rfl, -⟩
  · exact isSpace_of_isDigit ((isDigits_iff.mp h.digits).2 c hc)
  · rcases List.mem_append.mp hc with hc | hc
    · exact isSpace_of_isDigit ((isDigits_iff.mp h.digits).2 c hc)
    · rcases List.mem_cons.mp hc with rfl | hc
      · decide
      · exact isSpace_of_isDigit (h.frac c hc)

/-! ## Written numbers -/

/-- `mantissa * 10 ^ exponent`, where the mantissa is as short as can be. -/
structure ShortDecimal where
  mantissa : Int
  exponent : Int
  canonical : mantissa % 10 = 0 → mantissa = 0 ∧ exponent = 0

namespace ShortDecimal

/-- The number itself. -/
def value (x : ShortDecimal) : ℚ := x.mantissa * (10 : ℚ) ^ x.exponent

/-- The digits of the mantissa. -/
def digits (x : ShortDecimal) : List Char := Nat.toDigits 10 x.mantissa.natAbs

/-- The number of digits before the point, if it is not negative. -/
def point (x : ShortDecimal) : Int := x.digits.length + x.exponent

/-- The digits with an exponent. -/
def exponentText (x : ShortDecimal) : List Char :=
  x.digits.take 1 ++ (if x.digits.length = 1 then [] else '.' :: x.digits.drop 1) ++
    'e' :: (if x.point - 1 < 0 then '-' else '+') :: Nat.toDigits 10 (x.point - 1).natAbs

/-- The text of the number without its sign. -/
def unsignedText (x : ShortDecimal) : List Char :=
  if 0 ≤ x.exponent ∧ x.point ≤ 21 then x.digits ++ List.replicate x.exponent.toNat '0'
  else if 0 < x.point ∧ x.point ≤ 21 then
    x.digits.take x.point.toNat ++ '.' :: x.digits.drop x.point.toNat
  else if -6 < x.point ∧ x.point ≤ 0 then
    ['0'] ++ '.' :: (List.replicate (-x.point).toNat '0' ++ x.digits)
  else x.exponentText

/-- `x.toString()`. -/
def text (x : ShortDecimal) : List Char := if x.mantissa < 0 then '-' :: x.unsignedText else x.unsignedText

/-- The sign of the mantissa is that of the number. -/
theorem value_pos_iff (x : ShortDecimal) : 0 < x.value ↔ 0 < x.mantissa := by
  have hpow : (0 : ℚ) < 10 ^ x.exponent := by positivity
  rw [value, mul_pos_iff_of_pos_right hpow, Int.cast_pos]

variable {x : ShortDecimal}

theorem isDigits_digits (x : ShortDecimal) : isDigits x.digits = true := isDigits_toDigits _

theorem digitsValue_digits (h : 0 < x.mantissa) : (digitsValue x.digits : ℚ) = x.mantissa := by
  rw [digits, digitsValue_toDigits, ← Int.cast_natCast, Int.natAbs_of_nonneg h.le]

/-- The point stands where the powers of ten say. -/
theorem value_lt_iff (h : 0 < x.mantissa) {n : Int} : x.value < (10 : ℚ) ^ n ↔ x.point ≤ n := by
  have hten : (1 : ℚ) < 10 := by norm_num
  have hlt : x.value < (10 : ℚ) ^ n ↔ (x.mantissa : ℚ) < (10 : ℚ) ^ (n - x.exponent) := by
    rw [zpow_sub₀ (by norm_num), lt_div_iff₀ (by positivity), value]
  have hpoint : x.point ≤ n ↔ (x.digits.length : Int) ≤ n - x.exponent := by
    rw [point]
    omega
  rw [hlt, hpoint]
  obtain ⟨m, hm⟩ := Int.eq_ofNat_of_zero_le h.le
  rcases Int.lt_or_le 0 (n - x.exponent) with hk | hk
  · obtain ⟨k, hk'⟩ := Int.eq_ofNat_of_zero_le hk.le
    have hlen : x.digits.length ≤ k ↔ m < 10 ^ k := by
      rw [digits, hm]
      exact Nat.length_toDigits_le_iff (by decide) (by omega)
    rw [hk', zpow_natCast, hm, Int.cast_natCast, Nat.cast_le, hlen]
    exact_mod_cast Iff.rfl
  · have hpos : 0 < x.digits.length := Nat.length_toDigits_pos
    refine iff_of_false (not_lt.mpr ?_) (by omega)
    calc (10 : ℚ) ^ (n - x.exponent) ≤ (10 : ℚ) ^ (0 : Int) := zpow_le_zpow_right₀ hten.le hk
      _ = 1 := zpow_zero _
      _ ≤ x.mantissa := by exact_mod_cast h

/-- The sizes of number that are written without an exponent. -/
theorem plain_iff (h : 0 < x.mantissa) :
    (1 / 10 ^ 6 ≤ x.value ∧ x.value < 10 ^ 21) ↔ -6 < x.point ∧ x.point ≤ 21 := by
  have hlow : (1 / 10 ^ 6 : ℚ) = 10 ^ (-6 : Int) := by norm_num
  have hhigh : (10 ^ 21 : ℚ) = 10 ^ (21 : Int) := by norm_num
  rw [hlow, hhigh, value_lt_iff h, ← not_lt, value_lt_iff h, not_le]

/-- Without an exponent, what is written is a decimal text that stands for the
number. -/
theorem text_eq_decimal (h : 0 < x.mantissa) (hplain : -6 < x.point ∧ x.point ≤ 21) :
    ∃ whole frac, DecimalParts x.text whole frac ∧ decimalOf whole frac = x.value := by
  have hdigits := isDigits_digits x
  obtain ⟨hne, hall⟩ := isDigits_iff.mp hdigits
  have hvalue := digitsValue_digits h
  have hzeros : ∀ k, ∀ c ∈ List.replicate k '0', c.isDigit = true := by
    intro k c hc
    rw [List.eq_of_mem_replicate hc]
    rfl
  rw [text, if_neg (by omega), unsignedText]
  by_cases hexp : 0 ≤ x.exponent
  · rw [if_pos ⟨hexp, hplain.2⟩]
    refine ⟨_, [], ⟨isDigits_iff.mpr ⟨by simp [hne], fun c hc => ?_⟩, .inl ⟨rfl, rfl⟩⟩, ?_⟩
    · exact (List.mem_append.mp hc).elim (hall c) (hzeros _ c)
    · obtain ⟨e, he⟩ := Int.eq_ofNat_of_zero_le hexp
      rw [decimalOf, List.append_nil, digitsValue_append, digitsValue_zeros, List.length_replicate, value, he]
      push_cast
      rw [hvalue]
      simp [mul_comm]
  · rw [if_neg fun hc => hexp hc.1]
    obtain ⟨e, he⟩ : ∃ e : Nat, x.exponent = -(e : Int) := ⟨(-x.exponent).toNat, by omega⟩
    have hscaled : ∀ {n : Nat}, n = e → (x.mantissa : ℚ) / 10 ^ n = x.value := by
      rintro n rfl
      rw [value, he, zpow_neg, zpow_natCast, div_eq_mul_inv]
    by_cases hpoint : 0 < x.point
    · rw [if_pos ⟨hpoint, hplain.2⟩]
      have hpt : x.point = x.digits.length - e := by
        rw [point, he]
        omega
      have hlen : (x.digits.drop x.point.toNat).length = e := by
        rw [List.length_drop]
        omega
      refine ⟨_, _, ⟨isDigits_iff.mpr ⟨?_, fun c hc => hall c (List.mem_of_mem_take hc)⟩,
        .inr ⟨rfl, isDigits_iff.mpr ⟨?_, fun c hc => hall c (List.mem_of_mem_drop hc)⟩⟩⟩, ?_⟩
      · rw [ne_eq, List.take_eq_nil_iff, not_or]
        exact ⟨by omega, hne⟩
      · rw [← List.length_pos_iff, hlen]
        omega
      · rw [decimalOf, List.take_append_drop, hvalue]
        exact hscaled hlen
    · rw [if_neg fun hc => hpoint hc.1, if_pos ⟨hplain.1, by omega⟩]
      have hpt : x.point = x.digits.length - e := by
        rw [point, he]
        omega
      refine ⟨_, _, ⟨by decide, .inr ⟨rfl, isDigits_iff.mpr ⟨by simp [hne], fun c hc => ?_⟩⟩⟩, ?_⟩
      · exact (List.mem_append.mp hc).elim (hzeros _ c) (hall c)
      · have hzero : digitsValue ['0'] = 0 := rfl
        rw [decimalOf, digitsValue_append, digitsValue_append, digitsValue_zeros, hzero, Nat.mul_zero,
          Nat.mul_zero, Nat.zero_add, Nat.zero_add, hvalue]
        refine hscaled ?_
        rw [List.length_append, List.length_replicate]
        omega

/-- With an exponent, what is written is no decimal text. -/
theorem text_not_decimal (h : 0 < x.mantissa) (hplain : ¬ (-6 < x.point ∧ x.point ≤ 21)) :
    matchesDecimal x.text = false := by
  obtain ⟨hne, hall⟩ := isDigits_iff.mp (isDigits_digits x)
  have hpos : 0 < x.digits.length := List.length_pos_iff.mpr hne
  have hpoint : x.point = x.digits.length + x.exponent := rfl
  rw [text, if_neg (by omega), unsignedText, if_neg (by omega), if_neg (by omega), if_neg (by omega), exponentText]
  rw [← Bool.not_eq_true, matchesDecimal_iff]
  rintro ⟨whole, frac, hparts⟩
  have hchars : ∀ c ∈ x.digits.take 1 ++ (if x.digits.length = 1 then [] else '.' :: x.digits.drop 1) ++
      'e' :: (if x.point - 1 < 0 then '-' else '+') :: Nat.toDigits 10 (x.point - 1).natAbs,
      c.isDigit = true ∨ c = '.' := by
    intro c hc
    rcases hparts.text with ⟨htext, -⟩ | ⟨htext, -⟩
    · rw [htext] at hc
      exact .inl ((isDigits_iff.mp hparts.digits).2 c hc)
    · rw [htext] at hc
      rcases List.mem_append.mp hc with hc | hc
      · exact .inl ((isDigits_iff.mp hparts.digits).2 c hc)
      · exact (List.mem_cons.mp hc).elim .inr fun hc => .inl (hparts.frac c hc)
  have he := hchars 'e' (by simp)
  revert he
  decide

/-- What is written has no white space. -/
theorem isSpace_text (x : ShortDecimal) : ∀ c ∈ x.text, isSpace c = false := by
  have hdigits : ∀ c ∈ x.digits, isSpace c = false := fun c hc =>
    isSpace_of_isDigit ((isDigits_iff.mp (isDigits_digits x)).2 c hc)
  have hzeros : ∀ k, ∀ c ∈ List.replicate k '0', isSpace c = false := by
    intro k c hc
    rw [List.eq_of_mem_replicate hc]
    decide
  have hexponent : ∀ n, ∀ c ∈ Nat.toDigits 10 n, isSpace c = false := fun n c hc =>
    isSpace_of_isDigit (toDigits_isDigit c hc)
  have hunsigned : ∀ c ∈ x.unsignedText, isSpace c = false := by
    unfold unsignedText
    split
    · exact List.forall_mem_append.mpr ⟨hdigits, hzeros _⟩
    · split
      · exact List.forall_mem_append.mpr ⟨fun c hc => hdigits c (List.mem_of_mem_take hc),
          List.forall_mem_cons.mpr ⟨by decide, fun c hc => hdigits c (List.mem_of_mem_drop hc)⟩⟩
      · split
        · exact List.forall_mem_append.mpr ⟨List.forall_mem_singleton.mpr (by decide),
            List.forall_mem_cons.mpr ⟨by decide, List.forall_mem_append.mpr ⟨hzeros _, hdigits⟩⟩⟩
        · refine List.forall_mem_append.mpr ⟨List.forall_mem_append.mpr
            ⟨fun c hc => hdigits c (List.mem_of_mem_take hc), ?_⟩,
            List.forall_mem_cons.mpr ⟨by decide, List.forall_mem_cons.mpr ⟨?_, hexponent _⟩⟩⟩
          · split
            · exact List.forall_mem_nil _
            · exact List.forall_mem_cons.mpr ⟨by decide, fun c hc => hdigits c (List.mem_of_mem_drop hc)⟩
          · split <;> decide
  unfold text
  split
  · exact List.forall_mem_cons.mpr ⟨by decide, hunsigned⟩
  · exact hunsigned

end ShortDecimal

end ZkPayroll.Framework
