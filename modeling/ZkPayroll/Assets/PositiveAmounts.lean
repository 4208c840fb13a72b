import ZkPayroll.Assets.ParsedPayrollAmounts

/-!
# Zeros and rounded amounts

What `parsePayrollAmount` takes to be zero is told from the text before it is
rounded, and what it reports as rounded from the number of digits. It judges both
right (`Judges`) but where a zero is written otherwise or comes out of rounding,
where `CEIL` loses the last unit, and where all excess digits are zeros
(`Misjudges`, `judgesAmounts_iff`).
-/

namespace ZkPayroll.Assets

open Framework ZkPayroll.Core Treasury

variable {ν : Type}

/-! ## Texts -/

/-- The text is taken to be zero. -/
def SeenAsZero (cs : List Char) : Prop :=
  isPlainNumeral cs = true ∧ isEffectivelyZero (splitParts cs).1 (splitParts cs).2 = true

/-- The text stands for zero, or for a positive number that is rounded to it. -/
def ComesToZero (mode : RoundingMode) (cs : List Char) (d : Nat) : Prop :=
  matchesNumericPattern cs = true ∧
    ((Numeral.ofText cs).value = 0 ∨ 0 < (Numeral.ofText cs).value ∧ exactAmount mode cs d = 0)

section Texts

variable {cs : List Char} {d : Nat} {mode : RoundingMode}

theorem IsAccepted.not_seenAsZero (h : IsAccepted cs) : ¬SeenAsZero cs := by
  rintro ⟨-, hzero⟩
  rw [h.2] at hzero
  cases hzero

theorem seenAsZero_of_not_accepted (hplain : isPlainNumeral cs = true) (h : ¬IsAccepted cs) : SeenAsZero cs := by
  refine ⟨hplain, ?_⟩
  by_contra hzero
  exact h ⟨hplain, Bool.eq_false_of_not_eq_true hzero⟩

theorem matchesNumericPattern_of_plain (h : isPlainNumeral cs = true) : matchesNumericPattern cs = true := by
  cases cs with
  | nil => cases h
  | cons c cs =>
    rw [matchesNumericPattern]
    split
    · rename_i hc
      rw [hc] at h
      cases h
    · exact h

theorem value_nonneg_of_plain (h : isPlainNumeral cs = true) : 0 ≤ (Numeral.ofText cs).value := by
  rw [value_of_plain h]
  positivity

/-- Of a text without a sign, a zero amount is told from the amount alone. -/
theorem comesToZero_of_exactAmount (h : isPlainNumeral cs = true) (hzero : exactAmount mode cs d = 0) :
    ComesToZero mode cs d := by
  refine ⟨matchesNumericPattern_of_plain h, ?_⟩
  rcases (value_nonneg_of_plain h).eq_or_lt with heq | hlt
  · exact .inl heq.symm
  · exact .inr ⟨hlt, hzero⟩

/-- An amount that is not zero is not taken to be. -/
theorem isAccepted_of_exactAmount (h : isPlainNumeral cs = true) (hne : exactAmount mode cs d ≠ 0) : IsAccepted cs := by
  refine ⟨h, Bool.eq_false_of_not_eq_true fun hzero => hne ?_⟩
  obtain ⟨hkept, hexcess⟩ := eq_zero_of_isEffectivelyZero hzero d
  have hunits := units_of_plain h d
  rw [hkept, hexcess, Nat.cast_zero, zero_div, add_zero] at hunits
  have hround := RoundingMode.round_intCast mode 0
  rw [Int.cast_zero] at hround
  rw [exactAmount, hunits, hround]

/-- A share of a unit is no whole number. -/
theorem intCast_ne_add_share {n : Int} {k e p : Nat} (hpos : 0 < e) (hlt : e < p) : (n : ℚ) ≠ k + e / p := by
  have hp : (0 : ℚ) < p := by
    rw [Nat.cast_pos]
    omega
  have hshare : 0 < (e : ℚ) / p ∧ (e : ℚ) / p < 1 := by
    refine ⟨div_pos (by exact_mod_cast hpos) hp, ?_⟩
    rw [div_lt_one hp]
    exact_mod_cast hlt
  intro heq
  have hlow : (k : ℚ) < n := by linarith [hshare.1]
  have hhigh : (n : ℚ) < k + 1 := by linarith [hshare.2]
  have hlow' : (k : Int) < n := by exact_mod_cast hlow
  have hhigh' : n < (k : Int) + 1 := by exact_mod_cast hhigh
  omega

/-- Where all excess digits are zeros, nothing is raised. -/
theorem of_excess_eq_zero (h : isPlainNumeral cs = true) (hexcess : digitsValue (excessDigits d (splitParts cs).2) = 0)
    (mode : RoundingMode) :
    raised mode (excessDigits d (splitParts cs).2) = 0 ∧
      exactAmount mode cs d = keptUnits d (splitParts cs).1 (splitParts cs).2 ∧
      (Numeral.ofText cs).value * 10 ^ d = keptUnits d (splitParts cs).1 (splitParts cs).2 := by
  have hfirst := firstExcess_eq_zero hexcess
  have hraised : raised mode (excessDigits d (splitParts cs).2) = 0 := by
    cases mode with
    | halfUp => rw [raised, hfirst]; rfl
    | ceil => rw [raised, hfirst]; rfl
    | truncate => rfl
    | floor => rfl
  refine ⟨hraised, ?_, ?_⟩
  · rw [exactAmount_eq mode h, if_neg fun hhides => hhides.2.2 hexcess, hraised, Nat.cast_zero, add_zero]
  · rw [units_of_plain h, hexcess, Nat.cast_zero, zero_div, add_zero]

end Texts

/-! ## Texts that are judged wrong -/

/-- The three kinds of texts that are judged wrong: a zero that is not taken to be
one, an excess by `CEIL` that is lost and leaves no unit, and an excess of zeros;
the last two where the amount is in range. -/
def Misjudges (options : ParsePayrollAmountOptions) (cs : List Char) (d : Nat) : Prop :=
  let mode := options.rounding.getD .halfUp
  let excess := excessDigits d (splitParts cs).2
  ComesToZero mode cs d ∧ ¬SeenAsZero cs ∨
    isPlainNumeral cs = true ∧ HidesExcess mode excess ∧ exactAmount mode cs d = 1 ∧ Allows options 0 ∨
    isPlainNumeral cs = true ∧ excess ≠ [] ∧ digitsValue excess = 0 ∧ exactAmount mode cs d ≠ 0 ∧
      (digitsValue (splitParts cs).1 : Int) ≤ maxSafeInteger ∧ Allows options (exactAmount mode cs d)

section Misjudged

variable {cs : List Char} {d : Nat} {options : ParsePayrollAmountOptions}

/-- What is returned of a text that is not misjudged is positive. -/
theorem positive_of_not_misjudges (h : ¬Misjudges options cs d) (haccepted : IsAccepted cs)
    (hreturned : Returned options d (splitParts cs).1 (splitParts cs).2) :
    0 < computedAmount (options.rounding.getD .halfUp) d (splitParts cs).1 (splitParts cs).2 := by
  have hplain := haccepted.1
  have hallows := hreturned.2
  by_contra hzero
  have hexact := exactAmount_eq (options.rounding.getD .halfUp) hplain d
  have hamount : computedAmount (options.rounding.getD .halfUp) d (splitParts cs).1 (splitParts cs).2 = 0 := by omega
  have hparts : keptUnits d (splitParts cs).1 (splitParts cs).2 = 0 ∧
      raised (options.rounding.getD .halfUp) (excessDigits d (splitParts cs).2) = 0 := by
    rw [computedAmount] at hamount
    omega
  rw [hparts.1, hparts.2, Nat.cast_zero, zero_add] at hexact
  rw [hamount] at hallows
  by_cases hhides : HidesExcess (options.rounding.getD .halfUp) (excessDigits d (splitParts cs).2)
  · rw [if_pos hhides] at hexact
    exact h (.inr (.inl ⟨hplain, hhides, hexact, hallows⟩))
  · rw [if_neg hhides] at hexact
    exact h (.inl ⟨comesToZero_of_exactAmount hplain hexact, haccepted.not_seenAsZero⟩)

/-- What is returned of a text that is not misjudged is reported as rounded just
if it is. -/
theorem wasRounded_of_not_misjudges (h : ¬Misjudges options cs d) (haccepted : IsAccepted cs)
    (hreturned : Returned options d (splitParts cs).1 (splitParts cs).2) :
    d < (splitParts cs).2.length ↔
      ((computedAmount (options.rounding.getD .halfUp) d (splitParts cs).1 (splitParts cs).2 : Int) : ℚ) ≠
        (Numeral.ofText cs).value * 10 ^ d := by
  have hplain := haccepted.1
  have hfrac := (parts_of_plain hplain).frac
  by_cases hexcess : digitsValue (excessDigits d (splitParts cs).2) = 0
  · obtain ⟨hraised, hexact, hvalue⟩ := of_excess_eq_zero hplain hexcess (options.rounding.getD .halfUp)
    have hcomputed := computedAmount_cases (options.rounding.getD .halfUp) hplain d
    rw [if_neg fun hhides => hhides.2.2 hexcess, hraised, Nat.cast_zero, ite_self, add_zero, sub_zero] at hcomputed
    rw [Returned, computedWhole_of_raised_eq_zero hplain hraised, hcomputed] at hreturned
    refine iff_of_false (fun hlong => ?_) fun hne => hne ?_
    · by_cases hzero : exactAmount (options.rounding.getD .halfUp) cs d = 0
      · exact h (.inl ⟨comesToZero_of_exactAmount hplain hzero, haccepted.not_seenAsZero⟩)
      · refine h (.inr (.inr ⟨hplain, fun hnil => ?_, hexcess, hzero, hreturned.1, hreturned.2⟩))
        have hlen := congrArg List.length hnil
        rw [excessDigits, List.length_drop, List.length_nil] at hlen
        omega
    · rw [hcomputed, hexact, hvalue]
      exact Int.cast_natCast _
  · have hlong : d < (splitParts cs).2.length := by
      by_contra hle
      rw [excessDigits, List.drop_of_length_le (by omega)] at hexcess
      exact hexcess rfl
    refine iff_of_true hlong ?_
    have hshare := intCast_ne_add_share (n := computedAmount (options.rounding.getD .halfUp) d (splitParts cs).1
      (splitParts cs).2) (k := keptUnits d (splitParts cs).1 (splitParts cs).2) (Nat.pos_of_ne_zero hexcess)
      (excess_lt hfrac d)
    rw [units_of_plain hplain]
    push_cast at hshare ⊢
    exact hshare

end Misjudged

/-! ## What is judged -/

section Claims

variable [NumberFormat ν] [CommRing ν] [LinearOrder ν] [FloorRing ν]

/-- With `d` decimals an amount that is returned is positive, what comes to zero
is refused as a zero, and an amount is reported as rounded just if it is not the
number that was entered. -/
structure Judges (canonicalize : Char → Char) (input : String) (metadata : AmountMetadata ν)
    (options : ParsePayrollAmountOptions) (d : Nat) : Prop where
  positive : ∀ cache parsed cache', parsePayrollAmount canonicalize input metadata options cache = .ok parsed cache' →
    0 < parsed.amount
  zero : ComesToZero (options.rounding.getD .halfUp) (sanitizeInput canonicalize input metadata.symbol) d →
    ∀ cache, ∃ e cache', parsePayrollAmount canonicalize input metadata options cache = .error (.amount e) cache' ∧
      e.code = .ZERO_VALUE
  wasRounded : ∀ cache parsed cache', parsePayrollAmount canonicalize input metadata options cache = .ok parsed cache' →
    (parsed.wasRounded = true ↔
      (parsed.amount : ℚ) ≠ (Numeral.ofText (sanitizeInput canonicalize input metadata.symbol)).value * 10 ^ d)

variable {canonicalize : Char → Char} {input : String} {metadata : AmountMetadata ν}
  {options : ParsePayrollAmountOptions} {d : Nat}

section

variable (hd : IsDecimals metadata.decimals d) (h : Judges canonicalize input metadata options d)
include hd h

/-- A zero that is not taken to be one is not refused as a zero. -/
theorem Judges.seenAsZero
    (hzero : ComesToZero (options.rounding.getD .halfUp) (sanitizeInput canonicalize input metadata.symbol) d) :
    SeenAsZero (sanitizeInput canonicalize input metadata.symbol) := by
  have cache : ScaleCache ν := ⟨[], fun _ hf => absurd hf List.not_mem_nil⟩
  obtain ⟨e, cache', he, hcode⟩ := h.zero hzero cache
  by_cases haccepted : IsAccepted (sanitizeInput canonicalize input metadata.symbol)
  · obtain ⟨cache'', hreturned, hrefused⟩ := parse_outcome options haccepted hd cache Prod.mk.eta.symm
    by_cases hret : Returned options d (splitParts (sanitizeInput canonicalize input metadata.symbol)).1
        (splitParts (sanitizeInput canonicalize input metadata.symbol)).2
    · rw [hreturned hret] at he
      cases he
    · obtain ⟨e', he', hcode'⟩ := hrefused hret
      rw [he'] at he
      cases he
      exact absurd hcode hcode'
  · obtain ⟨e', he', hcode'⟩ := parse_of_not_accepted options haccepted cache
    rw [he'] at he
    cases he
    exact seenAsZero_of_not_accepted (hcode'.mp hcode) haccepted

/-- An excess that is lost leaves no unit, which is returned. -/
theorem Judges.not_lost
    (hplain : isPlainNumeral (sanitizeInput canonicalize input metadata.symbol) = true)
    (hhides : HidesExcess (options.rounding.getD .halfUp)
      (excessDigits d (splitParts (sanitizeInput canonicalize input metadata.symbol)).2))
    (hone : exactAmount (options.rounding.getD .halfUp) (sanitizeInput canonicalize input metadata.symbol) d = 1) :
    ¬Allows options 0 := by
  intro hallows
  have cache : ScaleCache ν := ⟨[], fun _ hf => absurd hf List.not_mem_nil⟩
  have haccepted := isAccepted_of_exactAmount hplain (by rw [hone]; exact one_ne_zero)
  have hraised := raised_of_hidesExcess hhides
  have hamount := computedAmount_cases (options.rounding.getD .halfUp) hplain d
  rw [if_pos hhides, hone, hraised, Nat.cast_zero, ite_self, add_zero, sub_self, Nat.cast_eq_zero] at hamount
  have hwhole : computedWhole (options.rounding.getD .halfUp) d
      (splitParts (sanitizeInput canonicalize input metadata.symbol)).1
      (splitParts (sanitizeInput canonicalize input metadata.symbol)).2 = 0 := by
    rw [computedAmount] at hamount
    rw [computedWhole, Nat.div_eq_of_lt]
    have hpos : 0 < 10 ^ d := Nat.pow_pos (by omega)
    omega
  obtain ⟨cache', hparse, -⟩ := parse_outcome options haccepted hd cache Prod.mk.eta.symm
  have hpositive := h.positive _ _ _ (hparse ⟨by rw [hwhole]; decide, by rw [hamount]; exact hallows⟩)
  dsimp only at hpositive
  omega

/-- Zeros that are cut off are reported as a rounded amount, which is returned. -/
theorem Judges.not_padded
    (hplain : isPlainNumeral (sanitizeInput canonicalize input metadata.symbol) = true)
    (hne : excessDigits d (splitParts (sanitizeInput canonicalize input metadata.symbol)).2 ≠ [])
    (hexcess : digitsValue (excessDigits d (splitParts (sanitizeInput canonicalize input metadata.symbol)).2) = 0)
    (hamount : exactAmount (options.rounding.getD .halfUp) (sanitizeInput canonicalize input metadata.symbol) d ≠ 0)
    (hsafe : (digitsValue (splitParts (sanitizeInput canonicalize input metadata.symbol)).1 : Int) ≤ maxSafeInteger) :
    ¬Allows options
      (exactAmount (options.rounding.getD .halfUp) (sanitizeInput canonicalize input metadata.symbol) d) := by
  intro hallows
  have cache : ScaleCache ν := ⟨[], fun _ hf => absurd hf List.not_mem_nil⟩
  have haccepted := isAccepted_of_exactAmount hplain hamount
  obtain ⟨hraised, hexact, hvalue⟩ := of_excess_eq_zero hplain hexcess (options.rounding.getD .halfUp)
  have hcomputed := computedAmount_cases (options.rounding.getD .halfUp) hplain d
  rw [if_neg fun hhides => hhides.2.2 hexcess, hraised, Nat.cast_zero, ite_self, add_zero, sub_zero] at hcomputed
  have hwhole := computedWhole_of_raised_eq_zero hplain hraised
  obtain ⟨cache', hparse, -⟩ := parse_outcome options haccepted hd cache Prod.mk.eta.symm
  have hrounded := h.wasRounded _ _ _ (hparse ⟨by rw [hwhole]; exact hsafe, by rw [hcomputed]; exact hallows⟩)
  have hlong : d < (splitParts (sanitizeInput canonicalize input metadata.symbol)).2.length := by
    by_contra hle
    exact hne (List.drop_of_length_le (by omega))
  dsimp only at hrounded
  rw [hcomputed, hexact, hvalue] at hrounded
  exact hrounded.mp (decide_eq_true hlong) (Int.cast_natCast _)

end

/-- Amounts are judged right but for the three kinds of texts. -/
theorem judges_iff (hd : IsDecimals metadata.decimals d) : Judges canonicalize input metadata options d ↔
    ¬Misjudges options (sanitizeInput canonicalize input metadata.symbol) d := by
  constructor
  · rintro h (⟨hzero, hseen⟩ | ⟨hplain, hhides, hone, hallows⟩ | ⟨hplain, hne, hexcess, hamount, hsafe, hallows⟩)
    · exact hseen (h.seenAsZero hd hzero)
    · exact h.not_lost hd hplain hhides hone hallows
    · exact h.not_padded hd hplain hne hexcess hamount hsafe hallows
  · intro h
    refine ⟨fun cache parsed cache' hparse => ?_, fun hzero cache => ?_, fun cache parsed cache' hparse => ?_⟩
    · obtain ⟨haccepted, d', hd', hreturned, hamount, -⟩ := of_parse_eq_ok hparse Prod.mk.eta.symm
      obtain rfl := hd.unique hd'
      rw [hamount]
      exact_mod_cast positive_of_not_misjudges h haccepted hreturned
    · have hseen : SeenAsZero (sanitizeInput canonicalize input metadata.symbol) := by
        by_contra hnot
        exact h (.inl ⟨hzero, hnot⟩)
      obtain ⟨e, he, hcode⟩ := parse_of_not_accepted options (fun haccepted => haccepted.not_seenAsZero hseen) cache
      exact ⟨e, cache, he, hcode.mpr hseen.1⟩
    · obtain ⟨haccepted, d', hd', hreturned, hamount, hrounded⟩ := of_parse_eq_ok hparse Prod.mk.eta.symm
      obtain rfl := hd.unique hd'
      rw [hamount, hrounded, decide_eq_true_eq]
      exact wasRounded_of_not_misjudges h haccepted hreturned

/-- Whatever the decimals are. -/
theorem judgesAmounts_iff (canonicalize : Char → Char) (input : String) (metadata : AmountMetadata ν)
    (options : ParsePayrollAmountOptions) :
    (∀ d, IsDecimals metadata.decimals d → Judges canonicalize input metadata options d) ↔
      ∀ d, IsDecimals metadata.decimals d →
        ¬Misjudges options (sanitizeInput canonicalize input metadata.symbol) d :=
  forall_congr' fun _ => forall_congr' fun hd => judges_iff hd

end Claims

/-- Without decimals `00` and `0.4` are returned as nothing, and `1.0` as a
rounded amount. -/
theorem zeros_and_rounded : ¬Judges id "00" wholeUnitsAsset {} 0 ∧ ¬Judges id "0.4" wholeUnitsAsset {} 0 ∧
    ¬Judges id "1.0" wholeUnitsAsset {} 0 := by
  refine ⟨fun h => ?_, fun h => ?_, fun h => ?_⟩
  · have hreturned : returnedAmount "00" {} = some (0, false) := by decide +kernel
    obtain ⟨parsed, cache', hparse, hamount⟩ := amount_of_returnedAmount hreturned
    have hpositive := h.positive _ _ _ hparse
    rw [(Prod.mk.inj hamount).1] at hpositive
    exact lt_irrefl 0 hpositive
  · have hreturned : returnedAmount "0.4" {} = some (0, true) := by decide +kernel
    obtain ⟨parsed, cache', hparse, hamount⟩ := amount_of_returnedAmount hreturned
    have hpositive := h.positive _ _ _ hparse
    rw [(Prod.mk.inj hamount).1] at hpositive
    exact lt_irrefl 0 hpositive
  · have hreturned : returnedAmount "1.0" {} = some (1, true) := by decide +kernel
    obtain ⟨parsed, cache', hparse, hamount⟩ := amount_of_returnedAmount hreturned
    have hrounded := (h.wasRounded _ _ _ hparse).mp (Prod.mk.inj hamount).2
    rw [(Prod.mk.inj hamount).1] at hrounded
    revert hrounded
    decide +kernel

end ZkPayroll.Assets
