import ZkPayroll.Assets.EnteredAmounts

/-!
# What parsing payroll amounts returns

The digits that `fitPrecision` makes stand for the units that are kept, raised or
not (`fitPrecision_eq`); without decimals they are raised twice, as `slice(-0)`
leaves the carry in place. A text that is accepted comes to that amount
(`computedAmount`), if it is within the bounds (`parse_of_accepted`), and another
is refused (`parse_of_refused`). So the amount is exact but for two kinds of
texts (`parsesExactly_iff`), and it is positive and told apart from a rounded one
but for three (`judgesAmounts_iff`).
-/

namespace ZkPayroll.Assets

open Framework ZkPayroll.Core Treasury

variable {ν : Type}

/-! ## Digits that are made -/

section Digits

variable {cs : List Char} {n : Nat}

/-- Digits are read as their value, and no digits as zero. -/
theorem toBigInt_digits (h : ∀ c ∈ cs, c.isDigit = true) : toBigInt cs = .ok (digitsValue cs) := by
  obtain ⟨hnil, hsigned, -⟩ := toBigInt_plain fun c hc => .inl (h c hc)
  by_cases hempty : cs = []
  · rw [hempty] at hnil ⊢
    exact hnil rfl
  · obtain ⟨hs, hvalue⟩ := isSignedDigits_of_isDigits (isDigits_iff.mpr ⟨hempty, h⟩)
    rw [hsigned hs, hvalue]

theorem isDigit_padStart (h : ∀ c ∈ cs, c.isDigit = true) : ∀ c ∈ padStart n cs, c.isDigit = true := by
  intro c hc
  rcases List.mem_append.mp hc with hc | hc
  · rw [List.eq_of_mem_replicate hc]
    rfl
  · exact h c hc

theorem digitsValue_padStart : digitsValue (padStart n cs) = digitsValue cs := by
  rw [padStart, digitsValue_append, digitsValue_zeros, Nat.mul_zero, Nat.zero_add]

theorem length_padStart : n ≤ (padStart n cs).length := by
  rw [padStart, List.length_append, List.length_replicate]
  omega

theorem isDigit_sliceLast (h : ∀ c ∈ cs, c.isDigit = true) : ∀ c ∈ sliceLast n cs, c.isDigit = true := by
  intro c hc
  unfold sliceLast at hc
  split at hc
  · exact h c hc
  · exact h c (List.mem_of_mem_drop hc)

/-- The last digits stand for the remainder, and all of them if none are asked
for. -/
theorem digitsValue_sliceLast (h : ∀ c ∈ cs, c.isDigit = true) (hlen : n ≤ cs.length) :
    digitsValue (sliceLast n cs) = if n = 0 then digitsValue cs else digitsValue cs % 10 ^ n := by
  unfold sliceLast
  split
  · rfl
  · have hdrop : (cs.drop (cs.length - n)).length = n := by
      rw [List.length_drop]
      omega
    have hlt : digitsValue (cs.drop (cs.length - n)) < 10 ^ n := by
      conv_rhs => rw [← hdrop]
      exact digitsValue_lt fun c hc => h c (List.mem_of_mem_drop hc)
    have hsum : digitsValue cs =
        10 ^ n * digitsValue (cs.take (cs.length - n)) + digitsValue (cs.drop (cs.length - n)) := by
      conv_lhs => rw [← List.take_append_drop (cs.length - n) cs]
      rw [digitsValue_append, hdrop]
    rw [hsum, Nat.mul_add_mod, Nat.mod_eq_of_lt hlt]

theorem natText_digits (n : Nat) :
    (∀ c ∈ integerText n, c.isDigit = true) ∧ digitsValue (integerText n) = n :=
  ⟨toDigits_isDigit, digitsValue_toDigits n⟩

end Digits

/-! ## The parts of the amount -/

section Parts

variable {d : Nat} {wholePart fracPart : List Char}
variable (mode : RoundingMode)

theorem raised_le_one (excess : List Char) : raised mode excess ≤ 1 := by
  cases mode with
  | halfUp =>
    rw [raised]
    split
    · exact le_refl 1
    · exact Nat.zero_le 1
  | ceil =>
    rw [raised]
    split
    · exact le_refl 1
    · exact Nat.zero_le 1
  | truncate => exact Nat.zero_le 1
  | floor => exact Nat.zero_le 1

@[simp] theorem raised_nil : raised mode [] = 0 := by
  cases mode <;> rfl

/-- The amount that the code comes to: without decimals what is raised is raised
twice. -/
def computedAmount (mode : RoundingMode) (d : Nat) (wholePart fracPart : List Char) : Nat :=
  keptUnits d wholePart fracPart + raised mode (excessDigits d fracPart) +
    if d = 0 then raised mode (excessDigits d fracPart) else 0

/-- The digits before the point, with the carry. -/
def computedWhole (mode : RoundingMode) (d : Nat) (wholePart fracPart : List Char) : Nat :=
  (keptUnits d wholePart fracPart + raised mode (excessDigits d fracPart)) / 10 ^ d

theorem applyRounding_eq (hparts : Parts wholePart fracPart) (h : d < fracPart.length) :
    applyRounding (parseDigit fracPart[d]) (fracPart.take d) d mode =
      .ok ((digitsValue (fracPart.take d) + raised mode (excessDigits d fracPart) : Nat) : Int) := by
  have hpad : padEnd d (fracPart.take d) = fracPart.take d := by
    rw [padEnd, List.length_take, Nat.min_eq_left h.le, Nat.sub_self, List.replicate_zero, List.append_nil]
  have hread : toBigInt (fracPart.take d) = .ok (digitsValue (fracPart.take d)) :=
    toBigInt_digits fun c hc => hparts.frac c (List.mem_of_mem_take hc)
  have hfirst : firstExcess (excessDigits d fracPart) = parseDigit fracPart[d] := by
    rw [excessDigits, List.drop_eq_getElem_cons h]
    rfl
  rw [applyRounding, hpad, hread]
  cases mode with
  | truncate => rfl
  | floor => rfl
  | halfUp =>
    rw [raised, hfirst]
    show Except.ok (if parseDigit fracPart[d] ≥ 5 then _ else _) = _
    split
    · rfl
    · rfl
  | ceil =>
    rw [raised, hfirst]
    show Except.ok (if parseDigit fracPart[d] > 0 then _ else _) = _
    split
    · rfl
    · rfl

/-- What the parts of an amount stand for. -/
structure StandsFor (mode : RoundingMode) (d : Nat) (wholePart fracPart whole frac : List Char) : Prop where
  digits : (∀ c ∈ whole, c.isDigit = true) ∧ ∀ c ∈ frac, c.isDigit = true
  whole_eq : digitsValue whole = computedWhole mode d wholePart fracPart
  amount_eq : digitsValue whole * 10 ^ d + digitsValue frac = computedAmount mode d wholePart fracPart

/-- There is no carry. -/
theorem standsFor_of_lt {mode : RoundingMode} (hparts : Parts wholePart fracPart) {frac : List Char}
    (hdigits : ∀ c ∈ frac, c.isDigit = true)
    (hvalue : digitsValue frac = digitsValue (fitFraction d fracPart) + raised mode (excessDigits d fracPart))
    (hlt : digitsValue frac < 10 ^ d) : StandsFor mode d wholePart fracPart wholePart frac := by
  have hsum : keptUnits d wholePart fracPart + raised mode (excessDigits d fracPart) =
      digitsValue frac + digitsValue wholePart * 10 ^ d := by
    rw [keptUnits, hvalue]
    omega
  refine ⟨⟨(isDigits_iff.mp hparts.whole).2, hdigits⟩, ?_, ?_⟩
  · rw [computedWhole, hsum, Nat.add_mul_div_right _ _ (by omega), Nat.div_eq_of_lt hlt, Nat.zero_add]
  · rw [computedAmount, hsum]
    split
    · rename_i hd
      rw [hd, pow_zero] at hlt
      omega
    · omega

/-- There is a carry, which leaves no units but where there are no decimals. -/
theorem standsFor_of_carry {mode : RoundingMode}
    (hcarry : digitsValue (fitFraction d fracPart) + raised mode (excessDigits d fracPart) = 10 ^ d)
    (hraised : raised mode (excessDigits d fracPart) = 1) :
    StandsFor mode d wholePart fracPart (integerText (digitsValue wholePart + 1 : Nat))
      (sliceLast d (padStart d (integerText (10 ^ d : Nat)))) := by
  obtain ⟨hdigits, hvalue⟩ := natText_digits (10 ^ d)
  obtain ⟨hdigits', hvalue'⟩ := natText_digits (digitsValue wholePart + 1)
  have hsum : keptUnits d wholePart fracPart + raised mode (excessDigits d fracPart) =
      (digitsValue wholePart + 1) * 10 ^ d := by
    rw [keptUnits, Nat.add_assoc, hcarry, Nat.succ_mul]
  have hpad : ∀ c ∈ padStart d (integerText (10 ^ d : Nat)), c.isDigit = true := isDigit_padStart hdigits
  refine ⟨⟨hdigits', isDigit_sliceLast hpad⟩, ?_, ?_⟩
  · rw [hvalue', computedWhole, hsum, Nat.mul_div_cancel _ (Nat.pow_pos (by omega))]
  · rw [hvalue', digitsValue_sliceLast hpad length_padStart, digitsValue_padStart, hvalue, computedAmount, hsum,
      hraised]
    split
    · rename_i hd
      rw [hd, pow_zero]
    · rw [Nat.mod_self]

theorem fitPrecision_eq (d : Nat) (hparts : Parts wholePart fracPart) :
    ∃ whole frac, fitPrecision mode d (10 ^ d) wholePart fracPart = .ok (whole, frac, decide (d < fracPart.length)) ∧
      StandsFor mode d wholePart fracPart whole frac := by
  unfold fitPrecision
  split
  · rename_i h
    have hfit : fitFraction d fracPart = fracPart.take d := if_pos h
    have hkept : digitsValue (fracPart.take d) < 10 ^ d := by
      have hlt : digitsValue (fracPart.take d) < 10 ^ (fracPart.take d).length :=
        digitsValue_lt fun c hc => hparts.frac c (List.mem_of_mem_take hc)
      rwa [List.length_take, Nat.min_eq_left h.le] at hlt
    have hone := raised_le_one mode (excessDigits d fracPart)
    have hpow : ((10 ^ d : Nat) : Int) = 10 ^ d := by push_cast; rfl
    dsimp only
    rw [applyRounding_eq mode hparts h, decide_eq_true h]
    obtain ⟨hdigits, hvalue⟩ := natText_digits (digitsValue (fracPart.take d) + raised mode (excessDigits d fracPart))
    by_cases hcarry : 10 ^ d ≤ digitsValue (fracPart.take d) + raised mode (excessDigits d fracPart)
    · have heq : digitsValue (fracPart.take d) + raised mode (excessDigits d fracPart) = 10 ^ d := by omega
      have hwhole : toBigInt (if wholePart = [] then ['0'] else wholePart) = .ok (digitsValue wholePart) := by
        obtain ⟨hne, hall⟩ := isDigits_iff.mp hparts.whole
        rw [if_neg hne]
        exact toBigInt_digits hall
      refine ⟨_, _, ?_, standsFor_of_carry (hfit ▸ heq) (by omega)⟩
      show (if _ ≥ (10 : Int) ^ d then _ else _) = _
      rw [if_pos (by rw [← hpow]; exact_mod_cast hcarry), hwhole, heq]
      rfl
    · have hpad : digitsValue (padStart d (integerText
          ((digitsValue (fracPart.take d) + raised mode (excessDigits d fracPart) : Nat) : Int))) =
          digitsValue (fracPart.take d) + raised mode (excessDigits d fracPart) := digitsValue_padStart.trans hvalue
      refine ⟨_, _, ?_, standsFor_of_lt hparts (isDigit_padStart hdigits) (by rw [hpad, hfit]) (by rw [hpad]; omega)⟩
      show (if _ ≥ (10 : Int) ^ d then _ else _) = _
      rw [if_neg (by rw [← hpow]; exact_mod_cast hcarry)]
      rfl
  · rename_i h
    have hfit : fitFraction d fracPart = padEnd d fracPart := if_neg h
    have hnone : excessDigits d fracPart = [] := List.drop_of_length_le (by omega)
    have hdigits : ∀ c ∈ padEnd d fracPart, c.isDigit = true := hfit ▸ isDigit_fitFraction hparts.frac
    have hlt := digitsValue_lt hdigits
    have hlen : (padEnd d fracPart).length = d := by
      rw [padEnd, List.length_append, List.length_replicate]
      omega
    rw [hlen] at hlt
    refine ⟨_, _, by rw [decide_eq_false h], standsFor_of_lt hparts hdigits ?_ hlt⟩
    rw [hfit, hnone, raised_nil, Nat.add_zero]

end Parts

/-! ## The checks -/

/-- The amount is within the bounds. -/
def Allows (options : ParsePayrollAmountOptions) (amount : Int) : Prop :=
  (∀ min, (options.bounds.getD {}).min = some min → min ≤ amount) ∧
    ∀ max, (options.bounds.getD {}).max = some max → amount ≤ max

section Checks

variable {input symbol : String} {cs : List Char}

theorem checkText_of_plain (h : isPlainNumeral cs = true) :
    checkText input symbol cs =
      if isEffectivelyZero (splitParts cs).1 (splitParts cs).2 = true then
        .error (.amount {
          message := s!"Amount cannot be zero: \"{input}\""
          code := .ZERO_VALUE
          context := [("input", some input), ("assetSymbol", some symbol)] })
      else .ok (splitParts cs) := by
  obtain ⟨c, ds, rfl, hc⟩ : ∃ c ds, cs = c :: ds ∧ c ≠ '-' := by
    cases cs with
    | nil => cases h
    | cons c ds =>
      refine ⟨c, ds, rfl, ?_⟩
      rintro rfl
      cases h
  have hmatches : matchesNumericPattern (c :: ds) = true := by
    rw [matchesNumericPattern, if_neg hc, h]
  unfold checkText
  rw [throwIf_bind_of_not (by simp), throwIf_bind_of_not (by simp [hmatches]), throwIf_bind_of_not (by simp [hc])]
  by_cases hzero : isEffectivelyZero (splitParts (c :: ds)).1 (splitParts (c :: ds)).2 = true
  · rw [if_pos hzero]
    exact throwIf_bind_of hzero
  · rw [if_neg hzero]
    exact throwIf_bind_of_not hzero

/-- Other texts are not taken to be zero. -/
theorem checkText_of_not_plain (input symbol) (h : isPlainNumeral cs = false) :
    ∃ e, checkText input symbol cs = .error (.amount e) ∧ e.code ≠ .ZERO_VALUE := by
  unfold checkText
  cases cs with
  | nil => exact ⟨_, rfl, by rintro ⟨⟩⟩
  | cons c ds =>
    rw [throwIf_bind_of_not (by simp)]
    by_cases hmatches : matchesNumericPattern (c :: ds) = false
    · exact ⟨_, throwIf_bind_of hmatches, by rintro ⟨⟩⟩
    · have hc : c = '-' := by
        by_contra hc
        rw [matchesNumericPattern, if_neg hc] at hmatches
        exact hmatches h
      rw [throwIf_bind_of_not hmatches]
      exact ⟨_, throwIf_bind_of (by rw [hc]; rfl), by rintro ⟨⟩⟩

/-- A bound that is there is checked, and its error is not that of zero. -/
theorem checkBound_eq {check : Except ParseFailure Unit} {bound : Option Int} {allowed : Int → Prop}
    (hnone : bound = none → check = .ok ()) (hallowed : ∀ b, bound = some b → allowed b → check = .ok ())
    (hrefused : ∀ b, bound = some b → ¬ allowed b → ∃ e, check = .error (.amount e) ∧ e.code ≠ .ZERO_VALUE) :
    ((∀ b, bound = some b → allowed b) → check = .ok ()) ∧
      (¬(∀ b, bound = some b → allowed b) → ∃ e, check = .error (.amount e) ∧ e.code ≠ .ZERO_VALUE) := by
  cases bound with
  | none => exact ⟨fun _ => hnone rfl, fun h => absurd nofun h⟩
  | some b =>
    refine ⟨fun h => hallowed b rfl (h b rfl), fun h => hrefused b rfl fun hb => h fun c hc => ?_⟩
    rwa [← Option.some.inj hc]

theorem checkBounds_eq (input symbol) (decimals : Nat) (scale amount : Int) (options : ParsePayrollAmountOptions) :
    (Allows options amount → checkBounds input symbol decimals scale amount (options.bounds.getD {}) = .ok ()) ∧
      (¬Allows options amount → ∃ e, checkBounds input symbol decimals scale amount (options.bounds.getD {}) =
        .error (.amount e) ∧ e.code ≠ .ZERO_VALUE) := by
  unfold Allows
  generalize options.bounds.getD {} = bounds
  obtain ⟨hmin, hmin'⟩ : ((∀ min, bounds.min = some min → min ≤ amount) →
      checkMinimum input symbol decimals scale amount bounds = .ok ()) ∧ _ :=
    checkBound_eq (fun h => by rw [checkMinimum, h])
      (fun min h hle => by rw [checkMinimum, h]; exact if_neg (not_lt.mpr hle))
      (fun min h hnot => by rw [checkMinimum, h]; exact ⟨_, if_pos (not_le.mp hnot), nofun⟩)
  obtain ⟨hmax, hmax'⟩ : ((∀ max, bounds.max = some max → amount ≤ max) →
      checkMaximum input symbol decimals scale amount bounds = .ok ()) ∧ _ :=
    checkBound_eq (fun h => by rw [checkMaximum, h])
      (fun max h hle => by rw [checkMaximum, h]; exact if_neg (not_lt.mpr hle))
      (fun max h hnot => by rw [checkMaximum, h]; exact ⟨_, if_pos (not_le.mp hnot), nofun⟩)
  unfold checkBounds
  constructor
  · rintro ⟨hlow, hhigh⟩
    rw [hmin hlow]
    exact hmax hhigh
  · intro hnot
    by_cases hlow : ∀ min, bounds.min = some min → min ≤ amount
    · obtain ⟨e, he, hcode⟩ := hmax' fun hhigh => hnot ⟨hlow, hhigh⟩
      exact ⟨e, by rw [hmin hlow]; exact he, hcode⟩
    · obtain ⟨e, he, hcode⟩ := hmin' hlow
      exact ⟨e, by rw [he]; rfl, hcode⟩

theorem combineParts_eq (input symbol) {whole frac : List Char} (hwhole : ∀ c ∈ whole, c.isDigit = true)
    (hfrac : ∀ c ∈ frac, c.isDigit = true) (scale : Int) :
    ((digitsValue whole : Int) ≤ maxSafeInteger →
        combineParts input symbol scale whole frac = .ok (digitsValue whole * scale + digitsValue frac)) ∧
      (¬(digitsValue whole : Int) ≤ maxSafeInteger →
        ∃ e, combineParts input symbol scale whole frac = .error (.amount e) ∧ e.code ≠ .ZERO_VALUE) := by
  rw [combineParts, toBigInt_digits hwhole, toBigInt_digits hfrac]
  constructor
  · intro h
    exact throwIf_bind_of_not (by omega)
  · intro h
    exact ⟨_, throwIf_bind_of (by omega), nofun⟩

/-- The amount that the code comes to is returned. -/
def Returned (options : ParsePayrollAmountOptions) (d : Nat) (wholePart fracPart : List Char) : Prop :=
  (computedWhole (options.rounding.getD .halfUp) d wholePart fracPart : Int) ≤ maxSafeInteger ∧
    Allows options (computedAmount (options.rounding.getD .halfUp) d wholePart fracPart)

theorem scaleParts_eq (input symbol) {wholePart fracPart : List Char} (hparts : Parts wholePart fracPart)
    (options : ParsePayrollAmountOptions) (d : Nat) :
    (Returned options d wholePart fracPart → scaleParts input symbol options d (10 ^ d) (wholePart, fracPart) =
        .ok (computedAmount (options.rounding.getD .halfUp) d wholePart fracPart, decide (d < fracPart.length))) ∧
      (¬Returned options d wholePart fracPart → ∃ e, scaleParts input symbol options d (10 ^ d) (wholePart, fracPart) =
        .error (.amount e) ∧ e.code ≠ .ZERO_VALUE) := by
  obtain ⟨whole, frac, hfit, hstands⟩ := fitPrecision_eq (options.rounding.getD .halfUp) d hparts
  have hamount : (digitsValue whole : Int) * 10 ^ d + digitsValue frac =
      computedAmount (options.rounding.getD .halfUp) d wholePart fracPart := by
    rw [← hstands.amount_eq]
    push_cast
    rfl
  have hsteps : scaleParts input symbol options d (10 ^ d) (wholePart, fracPart) =
      (combineParts input symbol (10 ^ d) whole frac).bind fun amount =>
        (checkBounds input symbol d (10 ^ d) amount (options.bounds.getD {})).bind fun _ =>
          .ok (amount, decide (d < fracPart.length)) := by
    rw [scaleParts]
    dsimp only
    rw [hfit]
    rfl
  obtain ⟨hcombine, hcombine'⟩ := combineParts_eq input symbol hstands.digits.1 hstands.digits.2 (10 ^ d)
  rw [hamount, hstands.whole_eq] at hcombine
  rw [hstands.whole_eq] at hcombine'
  obtain ⟨hbounds, hbounds'⟩ := checkBounds_eq input symbol d (10 ^ d)
    (computedAmount (options.rounding.getD .halfUp) d wholePart fracPart : Int) options
  rw [hsteps]
  constructor
  · rintro ⟨hsafe, hallows⟩
    rw [hcombine hsafe]
    show (checkBounds _ _ _ _ _ _).bind _ = _
    rw [hbounds hallows]
    rfl
  · intro hnot
    by_cases hsafe : (computedWhole (options.rounding.getD .halfUp) d wholePart fracPart : Int) ≤ maxSafeInteger
    · obtain ⟨e, he, hcode⟩ := hbounds' fun hallows => hnot ⟨hsafe, hallows⟩
      refine ⟨e, ?_, hcode⟩
      rw [hcombine hsafe]
      show (checkBounds _ _ _ _ _ _).bind _ = _
      rw [he]
      rfl
    · obtain ⟨e, he, hcode⟩ := hcombine' hsafe
      exact ⟨e, by rw [he]; rfl, hcode⟩

end Checks

/-! ## The outcome -/

section Outcome

variable [NumberFormat ν] [CommRing ν] [LinearOrder ν] [FloorRing ν] {canonicalize : Char → Char} {input : String}
  {metadata : AmountMetadata ν} (options : ParsePayrollAmountOptions) {d : Nat}

/-- The cleaned text is accepted: it is a number without a sign and not taken to
be zero. -/
def IsAccepted (cs : List Char) : Prop :=
  isPlainNumeral cs = true ∧ isEffectivelyZero (splitParts cs).1 (splitParts cs).2 = false

/-- The call, after the checks of the text. -/
theorem parse_of_accepted (h : IsAccepted (sanitizeInput canonicalize input metadata.symbol))
    (hd : IsDecimals metadata.decimals d) (cache : ScaleCache ν) :
    ∃ cache', parsePayrollAmount canonicalize input metadata options cache =
      (liftM (scaleParts input metadata.symbol options d (10 ^ d)
          (splitParts (sanitizeInput canonicalize input metadata.symbol))) >>= fun r =>
        pure { amount := r.1, decimals := metadata.decimals, wasRounded := r.2 } :
        Method ParseFailure (ScaleCache ν) (ParsedPayrollAmount ν)) cache' := by
  obtain ⟨cache', hscale⟩ := cachedScale_eq ParseFailure.other hd cache
  have hfinite : metadata.decimals.eq .infinity = false := by
    rw [hd.eq_finite]
    simp [JsNumber.eq]
  have hdecimals : (metadata.decimals.toInteger.getD 0).toNat = d := by
    have hinteger : metadata.decimals.toInteger = some (d : Int) := hd
    rw [hinteger]
    rfl
  refine ⟨cache', ?_⟩
  rw [parsePayrollAmount, checkText_of_plain h.1, h.2, if_neg Bool.false_ne_true]
  show (if metadata.decimals.eq .infinity = true then _ else _ : Method ParseFailure (ScaleCache ν) _) cache = _
  rw [hfinite, if_neg Bool.false_ne_true, Method.bind_of_ok hscale, hdecimals]

/-- Other texts are refused, and as a zero just if they are one that is seen. -/
theorem parse_of_not_accepted (h : ¬IsAccepted (sanitizeInput canonicalize input metadata.symbol))
    (cache : ScaleCache ν) :
    ∃ e, parsePayrollAmount canonicalize input metadata options cache = .error (.amount e) cache ∧
      (e.code = .ZERO_VALUE ↔ isPlainNumeral (sanitizeInput canonicalize input metadata.symbol) = true) := by
  rw [parsePayrollAmount]
  generalize sanitizeInput canonicalize input metadata.symbol = cs at h
  cases hplain : isPlainNumeral cs with
  | true =>
    have hzero : isEffectivelyZero (splitParts cs).1 (splitParts cs).2 = true := by
      by_contra hzero
      exact h ⟨hplain, Bool.eq_false_of_not_eq_true hzero⟩
    rw [checkText_of_plain hplain, if_pos hzero]
    exact ⟨_, rfl, iff_of_true rfl rfl⟩
  | false =>
    obtain ⟨e, he, hcode⟩ := checkText_of_not_plain input metadata.symbol hplain
    rw [he]
    exact ⟨e, rfl, iff_of_false hcode Bool.false_ne_true⟩

variable {wholePart fracPart : List Char}

/-- What a text that is accepted comes to. -/
theorem parse_outcome (h : IsAccepted (sanitizeInput canonicalize input metadata.symbol))
    (hd : IsDecimals metadata.decimals d) (cache : ScaleCache ν)
    (hparts : splitParts (sanitizeInput canonicalize input metadata.symbol) = (wholePart, fracPart)) :
    ∃ cache', (Returned options d wholePart fracPart →
        parsePayrollAmount canonicalize input metadata options cache = .ok {
          amount := computedAmount (options.rounding.getD .halfUp) d wholePart fracPart
          decimals := metadata.decimals
          wasRounded := decide (d < fracPart.length) } cache') ∧
      (¬Returned options d wholePart fracPart →
        ∃ e, parsePayrollAmount canonicalize input metadata options cache = .error (.amount e) cache' ∧
          e.code ≠ .ZERO_VALUE) := by
  obtain ⟨cache', hparse⟩ := parse_of_accepted options h hd cache
  have hvalid := parts_of_plain h.1
  rw [hparts] at hparse hvalid
  obtain ⟨hreturned, hrefused⟩ := scaleParts_eq input metadata.symbol hvalid options d
  refine ⟨cache', fun hret => ?_, fun hnot => ?_⟩
  · rw [hparse, hreturned hret]
    rfl
  · obtain ⟨e, he, hcode⟩ := hrefused hnot
    exact ⟨e, by rw [hparse, he]; rfl, hcode⟩

variable {options}
variable {parsed : ParsedPayrollAmount ν} {cache cache' : ScaleCache ν}

/-- Only decimals that are a natural number are parsed with. -/
theorem decimals_of_parse_eq_ok
    (h : parsePayrollAmount canonicalize input metadata options cache = .ok parsed cache') :
    ∃ d, IsDecimals metadata.decimals d := by
  by_contra hnone
  rw [parsePayrollAmount, Method.lift_bind_eq_ok] at h
  obtain ⟨parts, -, h⟩ := h
  obtain ⟨d, -, hd, -⟩ | ⟨-, e, he, -⟩ := getScale_eq metadata.decimals cache
  · exact hnone ⟨d, hd⟩
  · have hscale : cachedScale ParseFailure.other metadata.decimals cache = .error (.other e) cache := by
      rw [cachedScale, he]
    split at h
    · cases h
    · rw [Method.bind_of_error hscale] at h
      cases h

/-- What is returned. -/
theorem of_parse_eq_ok (h : parsePayrollAmount canonicalize input metadata options cache = .ok parsed cache')
    (hparts : splitParts (sanitizeInput canonicalize input metadata.symbol) = (wholePart, fracPart)) :
    IsAccepted (sanitizeInput canonicalize input metadata.symbol) ∧ ∃ d, IsDecimals metadata.decimals d ∧
      Returned options d wholePart fracPart ∧
      parsed.amount = computedAmount (options.rounding.getD .halfUp) d wholePart fracPart ∧
      parsed.wasRounded = decide (d < fracPart.length) := by
  obtain ⟨d, hd⟩ := decimals_of_parse_eq_ok h
  have haccepted : IsAccepted (sanitizeInput canonicalize input metadata.symbol) := by
    by_contra hnot
    obtain ⟨e, he, -⟩ := parse_of_not_accepted options hnot cache
    rw [he] at h
    cases h
  obtain ⟨cache'', hreturned, hrefused⟩ := parse_outcome options haccepted hd cache hparts
  have hret : Returned options d wholePart fracPart := by
    by_contra hnot
    obtain ⟨e, he, -⟩ := hrefused hnot
    rw [he] at h
    cases h
  rw [hreturned hret] at h
  cases h
  exact ⟨haccepted, d, hd, hret, rfl, rfl⟩

end Outcome

/-! ## Where the amount is the exact one -/

section Exact

variable {cs : List Char} {d : Nat} {mode : RoundingMode}

theorem raised_of_hidesExcess {excess : List Char} (h : HidesExcess mode excess) : raised mode excess = 0 := by
  obtain ⟨rfl, hfirst, -⟩ := h
  rw [raised, hfirst]
  rfl

/-- The code comes to one less where the first excess digit tells too little, and
to one more where it raises twice. -/
theorem computedAmount_cases (mode : RoundingMode) (h : isPlainNumeral cs = true) (d : Nat) :
    (computedAmount mode d (splitParts cs).1 (splitParts cs).2 : Int) =
      exactAmount mode cs d - (if HidesExcess mode (excessDigits d (splitParts cs).2) then 1 else 0) +
        if d = 0 then (raised mode (excessDigits d (splitParts cs).2) : Int) else 0 := by
  rw [exactAmount_eq mode h, computedAmount]
  push_cast
  by_cases hhides : HidesExcess mode (excessDigits d (splitParts cs).2)
  · rw [if_pos hhides, if_pos hhides, raised_of_hidesExcess hhides]
    omega
  · rw [if_neg hhides, if_neg hhides]
    omega

/-- The digits before the point, where nothing is raised. -/
theorem computedWhole_of_raised_eq_zero (h : isPlainNumeral cs = true)
    (hzero : raised mode (excessDigits d (splitParts cs).2) = 0) :
    computedWhole mode d (splitParts cs).1 (splitParts cs).2 = digitsValue (splitParts cs).1 := by
  have hlt : digitsValue (fitFraction d (splitParts cs).2) < 10 ^ d := by
    have hdigits := isDigit_fitFraction (d := d) (parts_of_plain h).frac
    have hlen : (fitFraction d (splitParts cs).2).length = d := by
      unfold fitFraction
      split
      · rw [List.length_take]
        omega
      · rw [List.length_append, List.length_replicate]
        omega
    have hlt := digitsValue_lt hdigits
    rwa [hlen] at hlt
  rw [computedWhole, hzero, Nat.add_zero, keptUnits, Nat.add_comm, Nat.add_mul_div_right _ _ (by omega),
    Nat.div_eq_of_lt hlt, Nat.zero_add]

/-- A text that is taken to be zero is zero. -/
theorem eq_zero_of_isEffectivelyZero {wholePart fracPart : List Char}
    (h : isEffectivelyZero wholePart fracPart = true) (d : Nat) :
    keptUnits d wholePart fracPart = 0 ∧ digitsValue (excessDigits d fracPart) = 0 := by
  rw [isEffectivelyZero, Bool.and_eq_true, Bool.or_eq_true, decide_eq_true_eq, decide_eq_true_eq, List.all_eq_true] at h
  obtain ⟨hwhole, hfrac⟩ := h
  have hfrac : fracPart = List.replicate fracPart.length '0' :=
    List.eq_replicate_of_mem fun c hc => of_decide_eq_true (hfrac c hc)
  have hzero : digitsValue wholePart = 0 := by
    rcases hwhole with rfl | rfl
    · rfl
    · rfl
  have hfit : digitsValue (fitFraction d fracPart) = 0 := by
    rw [hfrac]
    unfold fitFraction
    split
    · rw [List.take_replicate, digitsValue_zeros]
    · rw [List.replicate_append_replicate, digitsValue_zeros]
  refine ⟨?_, ?_⟩
  · rw [keptUnits, hzero, hfit, Nat.zero_mul]
  · rw [excessDigits, hfrac, List.drop_replicate, digitsValue_zeros]

/-- The text is misread: with `CEIL` the first excess digit is a zero, but not
all of them are, and the amount is one too small; or there are no decimals, the
amount is raised and becomes one too large. In both cases that amount is returned
unless it is out of range. -/
def Misparses (options : ParsePayrollAmountOptions) (cs : List Char) (d : Nat) : Prop :=
  let mode := options.rounding.getD .halfUp
  let excess := excessDigits d (splitParts cs).2
  isPlainNumeral cs = true ∧
    (HidesExcess mode excess ∧ (digitsValue (splitParts cs).1 : Int) ≤ maxSafeInteger ∧
        Allows options (exactAmount mode cs d - 1) ∨
      d = 0 ∧ raised mode excess = 1 ∧ exactAmount mode cs d ≤ maxSafeInteger ∧
        Allows options (exactAmount mode cs d + 1))

variable {options : ParsePayrollAmountOptions}

/-- Where the code comes to another amount than the exact one, it returns it just
if the text is misread. -/
theorem misparses_iff (h : isPlainNumeral cs = true) :
    Misparses options cs d ↔ Returned options d (splitParts cs).1 (splitParts cs).2 ∧
      (computedAmount (options.rounding.getD .halfUp) d (splitParts cs).1 (splitParts cs).2 : Int) ≠
        exactAmount (options.rounding.getD .halfUp) cs d := by
  unfold Misparses Returned
  dsimp only
  generalize options.rounding.getD .halfUp = mode
  have hamount := computedAmount_cases mode h d
  have hone := raised_le_one mode (excessDigits d (splitParts cs).2)
  by_cases hhides : HidesExcess mode (excessDigits d (splitParts cs).2)
  · have hraised := raised_of_hidesExcess hhides
    rw [if_pos hhides, hraised, Nat.cast_zero, ite_self, add_zero] at hamount
    rw [computedWhole_of_raised_eq_zero h hraised, hamount, hraised]
    constructor
    · rintro ⟨-, ⟨-, hsafe, hallows⟩ | ⟨-, hone, -⟩⟩
      · exact ⟨⟨hsafe, hallows⟩, by omega⟩
      · cases hone
    · rintro ⟨⟨hsafe, hallows⟩, -⟩
      exact ⟨h, .inl ⟨hhides, hsafe, hallows⟩⟩
  · rw [if_neg hhides, sub_zero] at hamount
    by_cases hd : d = 0
    · subst hd
      have hwhole : (computedWhole mode 0 (splitParts cs).1 (splitParts cs).2 : Int) = exactAmount mode cs 0 := by
        rw [exactAmount_eq mode h, if_neg hhides, computedWhole, pow_zero, Nat.div_one]
        push_cast
        rfl
      rw [if_pos rfl] at hamount
      rw [hwhole, hamount]
      constructor
      · rintro ⟨-, ⟨hnot, -⟩ | ⟨-, hraised, hsafe, hallows⟩⟩
        · exact absurd hnot hhides
        · rw [hraised]
          exact ⟨⟨hsafe, hallows⟩, by omega⟩
      · rintro ⟨⟨hsafe, hallows⟩, hne⟩
        have hraised : raised mode (excessDigits 0 (splitParts cs).2) = 1 := by omega
        rw [hraised] at hallows
        exact ⟨h, .inr ⟨rfl, hraised, hsafe, hallows⟩⟩
    · rw [if_neg hd, add_zero] at hamount
      rw [hamount]
      constructor
      · rintro ⟨-, ⟨hnot, -⟩ | ⟨hzero, -⟩⟩
        · exact absurd hnot hhides
        · exact absurd hzero hd
      · rintro ⟨-, hne⟩
        exact absurd rfl hne

/-- A text that is misread is not taken to be zero. -/
theorem Misparses.isAccepted (h : Misparses options cs d) : IsAccepted cs := by
  refine ⟨h.1, Bool.eq_false_of_not_eq_true fun hzero => ?_⟩
  obtain ⟨-, hexcess⟩ := eq_zero_of_isEffectivelyZero hzero d
  rcases h.2 with ⟨hhides, -⟩ | ⟨-, hraised, -⟩
  · exact hhides.2.2 hexcess
  · have hfirst := firstExcess_eq_zero hexcess
    revert hraised
    cases options.rounding.getD .halfUp with
    | halfUp => simp [raised, hfirst]
    | ceil => simp [raised, hfirst]
    | truncate => simp [raised]
    | floor => simp [raised]

end Exact

section Claims

variable [NumberFormat ν] [CommRing ν] [LinearOrder ν] [FloorRing ν]

/-- Whenever the call returns, its amount is the number that is entered, in units
of the asset, rounded by the mode. -/
def ParsesExactly (canonicalize : Char → Char) (input : String) (metadata : AmountMetadata ν)
    (options : ParsePayrollAmountOptions) : Prop :=
  ∀ cache parsed cache', parsePayrollAmount canonicalize input metadata options cache = .ok parsed cache' →
    ∃ d, IsDecimals metadata.decimals d ∧ parsed.amount =
      exactAmount (options.rounding.getD .halfUp) (sanitizeInput canonicalize input metadata.symbol) d

theorem parsesExactly_iff (canonicalize : Char → Char) (input : String) (metadata : AmountMetadata ν)
    (options : ParsePayrollAmountOptions) :
    ParsesExactly canonicalize input metadata options ↔ ∀ d, IsDecimals metadata.decimals d →
      ¬Misparses options (sanitizeInput canonicalize input metadata.symbol) d := by
  constructor
  · intro h d hd hmisparses
    obtain ⟨hreturned, hne⟩ := (misparses_iff hmisparses.1).mp hmisparses
    have cache : ScaleCache ν := ⟨[], fun _ hf => absurd hf List.not_mem_nil⟩
    obtain ⟨cache', hparse, -⟩ := parse_outcome options hmisparses.isAccepted hd cache Prod.mk.eta.symm
    obtain ⟨d', hd', hamount⟩ := h cache _ cache' (hparse hreturned)
    rw [hd.unique hd'] at hne
    rw [hd.unique hd'] at hamount
    exact hne hamount
  · intro h cache parsed cache' hparse
    obtain ⟨haccepted, d, hd, hreturned, hamount, -⟩ := of_parse_eq_ok hparse Prod.mk.eta.symm
    refine ⟨d, hd, ?_⟩
    by_contra hne
    rw [hamount] at hne
    exact h d hd ((misparses_iff haccepted.1).mpr ⟨hreturned, hne⟩)

end Claims

/-- An asset without decimals. -/
def wholeUnitsAsset : AmountMetadata Int := { decimals := .finite 0, symbol := "PTS" }

def emptyCache : ScaleCache Int := ⟨[], fun _ hf => absurd hf List.not_mem_nil⟩

/-- The amount that a call returns, if it returns one. -/
def returnedAmount (input : String) (options : ParsePayrollAmountOptions) : Option (Int × Bool) :=
  match parsePayrollAmount id input wholeUnitsAsset options emptyCache with
  | .ok parsed _ => some (parsed.amount, parsed.wasRounded)
  | .error _ _ => none

theorem amount_of_returnedAmount {input : String} {options : ParsePayrollAmountOptions} {amount : Int × Bool}
    (h : returnedAmount input options = some amount) :
    ∃ parsed cache', parsePayrollAmount id input wholeUnitsAsset options emptyCache = .ok parsed cache' ∧
      (parsed.amount, parsed.wasRounded) = amount := by
  unfold returnedAmount at h
  split at h
  · rename_i parsed cache' hparse
    exact ⟨parsed, cache', hparse, Option.some.inj h⟩
  · cases h

/-- Without decimals 1.5 is raised to 3, and by `CEIL` 1.01 is not raised. -/
theorem raised_twice_or_not : ¬ParsesExactly id "1.5" wholeUnitsAsset {} ∧
    ¬ParsesExactly id "1.01" wholeUnitsAsset { rounding := some .ceil } := by
  have hnone : IsDecimals wholeUnitsAsset.decimals 0 := rfl
  constructor
  · intro h
    have hreturned : returnedAmount "1.5" {} = some (3, true) := by decide +kernel
    obtain ⟨parsed, cache', hparse, hamount⟩ := amount_of_returnedAmount hreturned
    obtain ⟨d, hd, hexact⟩ := h _ _ _ hparse
    rw [(Prod.mk.inj hamount).1, ← hnone.unique hd] at hexact
    revert hexact
    decide +kernel
  · intro h
    have hreturned : returnedAmount "1.01" { rounding := some .ceil } = some (1, true) := by decide +kernel
    obtain ⟨parsed, cache', hparse, hamount⟩ := amount_of_returnedAmount hreturned
    obtain ⟨d, hd, hexact⟩ := h _ _ _ hparse
    rw [(Prod.mk.inj hamount).1, ← hnone.unique hd] at hexact
    revert hexact
    decide +kernel

end ZkPayroll.Assets
