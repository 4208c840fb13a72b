import ZkPayroll.Assets.AmountParsing
import ZkPayroll.Assets.ParsedAmounts
import ZkPayroll.Framework.NumberText

/-!
# Amounts that are entered

The parts of a text that is accepted (`parts_of_plain`) stand for units of the
asset and for a share of one more (`value_of_plain`): `keptUnits`, and the digits
that are too many (`excessDigits`). Rounding raises the units by what the excess
tells (`round_of_plain`). The code asks the first excess digit only (`raised`),
which is enough for all modes but `CEIL` (`adjust_eq_raised`).
-/

namespace ZkPayroll.Assets

open Framework ZkPayroll.Core Treasury

/-! ## Parts -/

/-- The digits that are too many. -/
def excessDigits (d : Nat) (fracPart : List Char) : List Char := fracPart.drop d

/-- The units of the digits that are kept. -/
def keptUnits (d : Nat) (wholePart fracPart : List Char) : Nat :=
  digitsValue wholePart * 10 ^ d + digitsValue (fitFraction d fracPart)

/-- Both parts are digits, and there are some before the point. -/
structure Parts (wholePart fracPart : List Char) : Prop where
  whole : isDigits wholePart = true
  frac : ∀ c ∈ fracPart, c.isDigit = true

variable {cs : List Char}

/-- The digits of a text, which is one of them or has a point after the first. -/
theorem cases_of_plain (h : isPlainNumeral cs = true) :
    (isDigits cs = true ∧ splitParts cs = (cs, [])) ∨
      ∃ whole frac, cs = whole ++ '.' :: frac ∧ (∀ c ∈ whole, c.isDigit = true) ∧ (∀ c ∈ frac, c.isDigit = true) ∧
        (whole ≠ [] ∨ frac ≠ []) ∧ splitParts cs = (if whole = [] then ['0'] else whole, frac) := by
  have hwhole : ∀ c ∈ cs.takeWhile Char.isDigit, c.isDigit = true := fun c hc => List.mem_takeWhile_imp hc
  have hsplit : cs.takeWhile Char.isDigit ++ cs.dropWhile Char.isDigit = cs := List.takeWhile_append_dropWhile
  unfold isPlainNumeral at h
  split at h
  · rename_i hdrop
    rw [hdrop, List.append_nil] at hsplit
    rw [hsplit] at hwhole
    have hnone : cs.idxOf? '.' = none := List.idxOf?_eq_none_iff.mpr fun hmem => isDigit_ne_point (hwhole _ hmem) rfl
    have hne : cs ≠ [] := by
      rintro rfl
      cases h
    exact .inl ⟨isDigits_iff.mpr ⟨hne, hwhole⟩, by rw [splitParts, hnone]⟩
  · rename_i frac hdrop
    rw [Bool.and_eq_true, List.all_eq_true] at h
    have hpoint : '.' ∉ cs.takeWhile Char.isDigit := fun hmem => isDigit_ne_point (hwhole _ hmem) rfl
    refine .inr ⟨cs.takeWhile Char.isDigit, frac, by rw [← hdrop, hsplit], hwhole, h.1, by simpa using h.2, ?_⟩
    rw [hdrop] at hsplit
    generalize cs.takeWhile Char.isDigit = whole at hsplit hpoint
    rw [← hsplit, splitParts, idxOf?_append_cons frac hpoint]
    simp
  · cases h

theorem parts_of_plain (h : isPlainNumeral cs = true) : Parts (splitParts cs).1 (splitParts cs).2 := by
  obtain ⟨hdigits, heq⟩ | ⟨whole, frac, -, hwhole, hfrac, -, heq⟩ := cases_of_plain h
  · rw [heq]
    exact ⟨hdigits, nofun⟩
  · rw [heq]
    refine ⟨?_, hfrac⟩
    show isDigits (if whole = [] then ['0'] else whole) = true
    split
    · rfl
    · rename_i hne
      exact isDigits_iff.mpr ⟨hne, hwhole⟩

/-! ## The number that is entered -/

theorem signOf_eq_none {c : Char} (h : c.isDigit = true ∨ c = '.') :
    Numeral.signOf (c :: cs) = none := by
  have hne : ¬(c = '+' ∨ c = '-') := by
    rcases h with h | rfl
    · exact not_or.mpr (ne_sign_of_isDigit h)
    · decide
  rw [Numeral.signOf, if_neg hne]

/-- A text of digits, as a numeral. -/
theorem ofText_digits (h : isDigits cs = true) : Numeral.ofText cs = { whole := cs } := by
  obtain ⟨hne, hall⟩ := isDigits_iff.mp h
  obtain ⟨c, ds, rfl⟩ := List.exists_cons_of_ne_nil hne
  have htake : (c :: ds).takeWhile Char.isDigit = c :: ds := List.takeWhile_eq_self_iff.mpr hall
  have hdrop : (c :: ds).dropWhile Char.isDigit = [] := List.dropWhile_eq_nil_iff.mpr hall
  rw [Numeral.ofText, signOf_eq_none (.inl (hall c List.mem_cons_self))]
  show Numeral.ofUnsigned none (c :: ds) = _
  rw [Numeral.ofUnsigned, hdrop, htake]

/-- A text with a point, as a numeral. -/
theorem ofText_point {whole frac : List Char} (hwhole : ∀ c ∈ whole, c.isDigit = true)
    (hfrac : ∀ c ∈ frac, c.isDigit = true) :
    Numeral.ofText (whole ++ '.' :: frac) = { whole := whole, fraction := some frac } := by
  have hsign : Numeral.signOf (whole ++ '.' :: frac) = none := by
    cases whole with
    | nil => exact signOf_eq_none (.inr rfl)
    | cons c cs => exact signOf_eq_none (.inl (hwhole c List.mem_cons_self))
  have htake : frac.takeWhile Char.isDigit = frac := List.takeWhile_eq_self_iff.mpr hfrac
  have hdrop : frac.dropWhile Char.isDigit = [] := List.dropWhile_eq_nil_iff.mpr hfrac
  rw [Numeral.ofText, hsign]
  show Numeral.ofUnsigned none (whole ++ '.' :: frac) = _
  rw [Numeral.ofUnsigned, List.dropWhile_append_of_pos hwhole, List.takeWhile_append_of_pos hwhole,
    List.dropWhile_cons_of_neg (by decide), List.takeWhile_cons_of_neg (by decide)]
  simp only [htake, hdrop, List.append_nil]

theorem value_of_plain (h : isPlainNumeral cs = true) :
    (Numeral.ofText cs).value =
      (digitsValue ((splitParts cs).1 ++ (splitParts cs).2) : ℚ) / 10 ^ (splitParts cs).2.length := by
  obtain ⟨hdigits, heq⟩ | ⟨whole, frac, rfl, hwhole, hfrac, -, heq⟩ := cases_of_plain h
  · rw [heq, ofText_digits hdigits]
    simp [Numeral.value, Numeral.negative, Numeral.digits, Numeral.fractionDigits, Numeral.exponentValue, signedValue]
  · have hsame : digitsValue ((if whole = [] then ['0'] else whole) ++ frac) = digitsValue (whole ++ frac) := by
      split
      · rename_i hnil
        have hzero : digitsValue ['0'] = 0 := rfl
        rw [hnil, digitsValue_append, hzero, Nat.mul_zero, Nat.zero_add, List.nil_append]
      · rfl
    rw [heq, ofText_point hwhole hfrac]
    simp only [hsame]
    simp [Numeral.value, Numeral.negative, Numeral.digits, Numeral.fractionDigits, Numeral.exponentValue, signedValue]

/-! ## Units and excess -/

section Units

variable {d : Nat} {wholePart fracPart : List Char}

/-- All digits are those of the units and the excess. -/
theorem digits_eq_kept_add (d : Nat) (wholePart fracPart : List Char) :
    digitsValue (wholePart ++ fracPart) * 10 ^ d * 10 ^ (excessDigits d fracPart).length =
      (keptUnits d wholePart fracPart * 10 ^ (excessDigits d fracPart).length +
        digitsValue (excessDigits d fracPart)) * 10 ^ fracPart.length := by
  unfold keptUnits excessDigits fitFraction
  rw [digitsValue_append]
  split
  · rename_i hd
    have hcut : digitsValue fracPart =
        10 ^ (fracPart.length - d) * digitsValue (fracPart.take d) + digitsValue (fracPart.drop d) := by
      conv_lhs => rw [← List.take_append_drop d fracPart]
      rw [digitsValue_append, List.length_drop]
    have hpow : 10 ^ fracPart.length = 10 ^ (fracPart.length - d) * 10 ^ d := by
      rw [← pow_add]
      congr 1
      omega
    rw [List.length_drop, hcut, hpow]
    ring
  · rename_i hd
    have hpow : 10 ^ d = 10 ^ (d - fracPart.length) * 10 ^ fracPart.length := by
      rw [← pow_add]
      congr 1
      omega
    rw [List.drop_of_length_le (by omega), digitsValue_append, digitsValue_zeros, List.length_replicate, hpow]
    simp only [List.length_nil, digitsValue_nil]
    ring

theorem excess_lt (hfrac : ∀ c ∈ fracPart, c.isDigit = true) (d : Nat) :
    digitsValue (excessDigits d fracPart) < 10 ^ (excessDigits d fracPart).length :=
  digitsValue_lt fun c hc => hfrac c (List.mem_of_mem_drop hc)

/-- The number of the parts, in units. -/
theorem units_of_parts (d : Nat) (wholePart fracPart : List Char) :
    decimalOf wholePart fracPart * 10 ^ d = (keptUnits d wholePart fracPart : ℚ) +
      digitsValue (excessDigits d fracPart) / 10 ^ (excessDigits d fracPart).length := by
  have hsum := digits_eq_kept_add d wholePart fracPart
  have hcast := congrArg (Nat.cast (R := ℚ)) hsum
  push_cast at hcast
  rw [decimalOf]
  field_simp
  rw [hcast]
  ring

/-- The units that are kept are those of the number, rounded down. -/
theorem floor_units (hfrac : ∀ c ∈ fracPart, c.isDigit = true) (d : Nat) :
    ⌊decimalOf wholePart fracPart * 10 ^ d⌋ = (keptUnits d wholePart fracPart : Int) := by
  have hpow : (0 : ℚ) < 10 ^ (excessDigits d fracPart).length := by positivity
  have hlt : (digitsValue (excessDigits d fracPart) : ℚ) < 10 ^ (excessDigits d fracPart).length := by
    exact_mod_cast excess_lt hfrac d
  have hshare : (digitsValue (excessDigits d fracPart) : ℚ) / 10 ^ (excessDigits d fracPart).length < 1 :=
    (div_lt_one hpow).mpr hlt
  have hnonneg : (0 : ℚ) ≤ digitsValue (excessDigits d fracPart) / 10 ^ (excessDigits d fracPart).length := by
    positivity
  rw [units_of_parts, Int.floor_eq_iff, Int.cast_natCast]
  constructor
  · linarith
  · linarith

/-- The number that is entered, in units. -/
theorem units_of_plain {cs : List Char} (h : isPlainNumeral cs = true) (d : Nat) :
    (Numeral.ofText cs).value * 10 ^ d =
      (keptUnits d (splitParts cs).1 (splitParts cs).2 : ℚ) +
        digitsValue (excessDigits d (splitParts cs).2) / 10 ^ (excessDigits d (splitParts cs).2).length := by
  rw [value_of_plain h]
  exact units_of_parts d (splitParts cs).1 (splitParts cs).2

end Units

/-! ## What the excess tells -/

/-- The first excess digit, if there is one. -/
def firstExcess : List Char → Nat
  | [] => 0
  | c :: _ => parseDigit c

variable (mode : RoundingMode)

/-- What the first excess digit adds to the units. -/
def raised (excess : List Char) : Nat :=
  match mode with
  | .halfUp => if firstExcess excess ≥ 5 then 1 else 0
  | .ceil => if firstExcess excess > 0 then 1 else 0
  | _ => 0

section Excess

variable {excess : List Char}

theorem digitsValue_cons (c : Char) (cs : List Char) :
    digitsValue (c :: cs) = parseDigit c * 10 ^ cs.length + digitsValue cs := by
  have hone : digitsValue [c] = parseDigit c := by
    rw [digitsValue, Nat.ofDigitChars_cons, Nat.ofDigitChars_nil]
    show 10 * 0 + (c.toNat - 48) = parseDigit c
    rw [Nat.mul_zero, Nat.zero_add]
    rfl
  rw [← List.singleton_append, digitsValue_append, hone, Nat.mul_comm]

/-- The excess is a half or more just if its first digit is. -/
theorem half_le_excess_iff (h : ∀ c ∈ excess, c.isDigit = true) :
    10 ^ excess.length ≤ 2 * digitsValue excess ↔ 5 ≤ firstExcess excess := by
  cases excess with
  | nil => decide
  | cons c cs =>
    have hrest : digitsValue cs < 10 ^ cs.length := digitsValue_lt fun d hd => h d (List.mem_cons_of_mem _ hd)
    rw [digitsValue_cons, List.length_cons, pow_succ, firstExcess]
    generalize 10 ^ cs.length = q at hrest ⊢
    generalize parseDigit c = k
    constructor
    · intro hle
      by_contra hlt
      have hmul : k * q ≤ 4 * q := Nat.mul_le_mul_right q (by omega)
      omega
    · intro hle
      have hmul : 5 * q ≤ k * q := Nat.mul_le_mul_right q hle
      omega

theorem firstExcess_eq_zero (h : digitsValue excess = 0) : firstExcess excess = 0 := by
  cases excess with
  | nil => rfl
  | cons c cs =>
    rw [digitsValue_cons] at h
    have hpow : 0 < 10 ^ cs.length := Nat.pow_pos (by omega)
    have hmul : parseDigit c * 10 ^ cs.length = 0 := by omega
    exact (Nat.mul_eq_zero.mp hmul).resolve_right hpow.ne'

/-- The first digit tells what is to be added, but not by `CEIL` where it is a
zero and others follow that are not. -/
theorem adjust_eq_raised (mode : RoundingMode) (h : ∀ c ∈ excess, c.isDigit = true) :
    mode.adjust (digitsValue excess) (10 ^ excess.length) =
      if mode = .ceil ∧ firstExcess excess = 0 ∧ digitsValue excess ≠ 0 then 1 else raised mode excess := by
  have hpos : 0 < 10 ^ excess.length := Nat.pow_pos (by omega)
  have hhalf := half_le_excess_iff h
  have hfirst : firstExcess excess ≠ 0 → digitsValue excess ≠ 0 := mt firstExcess_eq_zero
  generalize digitsValue excess = e at hhalf hfirst ⊢
  generalize 10 ^ excess.length = p at hpos hhalf ⊢
  cases mode with
  | truncate => simp [RoundingMode.adjust, raised]
  | floor => simp [RoundingMode.adjust, raised]
  | halfUp =>
    simp only [RoundingMode.adjust, raised, reduceCtorEq, false_and, if_false]
    by_cases hle : p ≤ 2 * e
    · rw [if_pos (by omega), if_pos (hhalf.mp hle)]
      rfl
    · rw [if_neg (by omega), if_neg (by omega), if_neg fun hge => hle (hhalf.mpr hge)]
      rfl
  | ceil =>
    simp only [RoundingMode.adjust, raised, true_and]
    by_cases hzero : firstExcess excess = 0
    · rw [hzero]
      by_cases he : e = 0
      · rw [he]
        rfl
      · rw [if_pos (by omega), if_pos ⟨rfl, he⟩]
        rfl
    · have he := hfirst hzero
      rw [if_pos (by omega), if_neg fun hand => hzero hand.1, if_pos (by omega)]
      rfl

end Excess

/-! ## The exact amount -/

/-- The number that is entered, in units of the asset, rounded by the mode. -/
def exactAmount (cs : List Char) (d : Nat) : Int :=
  mode.round ((Numeral.ofText cs).value * 10 ^ d)

/-- The excess of `CEIL` whose first digit tells too little. -/
def HidesExcess (excess : List Char) : Prop :=
  mode = .ceil ∧ firstExcess excess = 0 ∧ digitsValue excess ≠ 0

instance (mode : RoundingMode) (excess : List Char) : Decidable (HidesExcess mode excess) :=
  inferInstanceAs (Decidable (_ ∧ _ ∧ _))

theorem round_kept_add {k e p : Nat} (h : e < p) :
    mode.round ((k : ℚ) + e / p) = k + mode.adjust e p := by
  have hpos : 0 < p := by omega
  have hne : (p : ℚ) ≠ 0 := by
    rw [Nat.cast_ne_zero]
    omega
  have hsum : (k : ℚ) + e / p = ((k * p + e : Nat) : Int) / (p : ℚ) := by
    push_cast
    field_simp
  have hdiv : (k * p + e) / p = k := by
    rw [Nat.add_comm, Nat.add_mul_div_right _ _ hpos, Nat.div_eq_of_lt h, Nat.zero_add]
  have hmod : (k * p + e) % p = e := by
    rw [Nat.add_comm, Nat.add_mul_mod_self_right, Nat.mod_eq_of_lt h]
  rw [hsum, RoundingMode.round_div _ _ hpos]
  show ((k * p + e) / p : Nat) + mode.adjust ((k * p + e) % p : Nat) p = _
  rw [hdiv, hmod]

/-- The exact amount is that of the digits that are kept, raised or not. -/
theorem exactAmount_eq (h : isPlainNumeral cs = true) (d : Nat) :
    exactAmount mode cs d = keptUnits d (splitParts cs).1 (splitParts cs).2 +
      (if HidesExcess mode (excessDigits d (splitParts cs).2) then 1
        else raised mode (excessDigits d (splitParts cs).2) : Int) := by
  have hfrac := (parts_of_plain h).frac
  have hexcess : ∀ c ∈ excessDigits d (splitParts cs).2, c.isDigit = true := fun c hc =>
    hfrac c (List.mem_of_mem_drop hc)
  have hround := round_kept_add mode (k := keptUnits d (splitParts cs).1 (splitParts cs).2) (excess_lt hfrac d)
  push_cast at hround
  rw [exactAmount, units_of_plain h, hround]
  have hadjust := adjust_eq_raised mode hexcess
  push_cast at hadjust ⊢
  rw [hadjust]
  rfl

end ZkPayroll.Assets
