import ZkPayroll.Assets.Formatters

/-!
# Amounts that are read right

`parseAmount` adds the digits before the point, which have the sign, to those
after it, which have none, and takes an exponent for digits or for nothing. So a
text is read right, or refused with the error that is documented, exactly where
`ReadsRight` holds of it (`parseAmount_exact_iff`): where it is no number and
zero is not returned for it, or where the decimals are a natural number and it
is a number whose parts are read (`Readable`) and stand for the same amount
(`SameAmount`).
-/

namespace ZkPayroll.Assets

open Framework ZkPayroll.Core Treasury

variable {ν : Type}

/-! ## Parts of a numeral -/

variable (n : Numeral)

/-- The digits before the point, in units. -/
def wholeUnits (d : Nat) : Nat := digitsValue n.whole * 10 ^ d

/-- The digits after the point that are units. -/
def fractionUnits (d : Nat) : Nat := digitsValue (fitFraction d n.fractionDigits)

/-- The parts of the numeral are read. -/
def Readable (d : Nat) : Prop :=
  match n.fraction with
  | none => n.exponent = []
  | some f => (n.whole = [] → n.sign = none) ∧ (n.exponent ≠ [] → d ≤ f.length)

/-- The parts stand for the amount. A negative numeral loses no units after its
point; an exponent that is not zero changes nothing where there are no units at
all. -/
def SameAmount (d : Nat) : Prop :=
  if n.exponentValue = 0 then n.negative = true → fractionUnits n d = 0
  else if n.negative then (wholeUnits n d : Int) - fractionUnits n d = n.units d
  else wholeUnits n d + fractionUnits n d = 0 ∧ n.units d = 0

/-- What the parts add up to. -/
def readUnits (d : Nat) : Int :=
  (if n.negative then -(digitsValue n.whole : Int) else digitsValue n.whole) * 10 ^ d + fractionUnits n d

variable {d : Nat}

theorem isDigit_fitFraction {f : List Char} (h : ∀ c ∈ f, c.isDigit = true) :
    ∀ c ∈ fitFraction d f, c.isDigit = true := by
  intro c hc
  unfold fitFraction at hc
  split at hc
  · exact h c (List.mem_of_mem_take hc)
  · rcases List.mem_append.mp hc with hc | hc
    · exact h c hc
    · rw [List.eq_of_mem_replicate hc]
      rfl

variable {n : Numeral}

/-- The units of the digits, when the exponent is left out. -/
theorem plainUnits_eq (h : n.Valid) (d : Nat) :
    wholeUnits n d + fractionUnits n d = n.digits * 10 ^ d / 10 ^ n.fractionDigits.length := by
  have hdigits : n.digits = 10 ^ n.fractionDigits.length * digitsValue n.whole + digitsValue n.fractionDigits :=
    digitsValue_append _ _
  have hf : ∀ c ∈ n.fractionDigits, c.isDigit = true := h.fraction
  unfold wholeUnits fractionUnits fitFraction
  generalize n.fractionDigits = f at hdigits hf ⊢
  split
  · rename_i hd
    -- the digits that are cut off are less than a unit
    have hcut : digitsValue f = 10 ^ (f.length - d) * digitsValue (f.take d) + digitsValue (f.drop d) := by
      conv_lhs => rw [← List.take_append_drop d f]
      rw [digitsValue_append, List.length_drop]
    have hless : digitsValue (f.drop d) < 10 ^ (f.length - d) := by
      have hlt : digitsValue (f.drop d) < 10 ^ (f.drop d).length :=
        digitsValue_lt fun c hc => hf c (List.mem_of_mem_drop hc)
      rwa [List.length_drop] at hlt
    have hpow : 10 ^ f.length = 10 ^ (f.length - d) * 10 ^ d := by
      rw [← pow_add]
      congr 1
      omega
    have hsum : n.digits = 10 ^ (f.length - d) * (digitsValue n.whole * 10 ^ d + digitsValue (f.take d)) +
        digitsValue (f.drop d) := by
      rw [hdigits, hcut, hpow]
      ring
    rw [hpow, Nat.mul_div_mul_right _ _ (by positivity), hsum, Nat.mul_add_div (by positivity),
      Nat.div_eq_of_lt hless, Nat.add_zero]
  · rename_i hd
    have hpow : 10 ^ d = 10 ^ (d - f.length) * 10 ^ f.length := by
      rw [← pow_add]
      congr 1
      omega
    have hsum : n.digits * 10 ^ d = (n.digits * 10 ^ (d - f.length)) * 10 ^ f.length := by
      rw [hpow]
      ring
    rw [hsum, Nat.mul_div_cancel _ (by positivity), digitsValue_append, digitsValue_zeros, List.length_replicate, hdigits,
      hpow]
    ring

/-- With another power of ten, what is not zero is another amount. -/
theorem units_eq_zero_of_plain (h : n.Valid) (hzero : n.exponentValue ≠ 0)
    (hsame : n.units d = wholeUnits n d + fractionUnits n d) : n.units d = 0 := by
  rw [plainUnits_eq h d] at hsame
  by_contra hne
  rcases Int.lt_or_gt_of_ne hzero with hlt | hgt
  · have hnat : n.exponentValue.toNat = 0 := by omega
    have hunits : n.units d =
        n.digits * 10 ^ d / 10 ^ n.fractionDigits.length / 10 ^ (-n.exponentValue).toNat := by
      rw [Numeral.units, hnat, Nat.add_zero, pow_add, Nat.div_div_eq_div_mul]
    have hpow : 1 < 10 ^ (-n.exponentValue).toNat := Nat.one_lt_pow (by omega) (by omega)
    rw [hsame] at hunits
    have hless := Nat.div_lt_self (Nat.pos_of_ne_zero (hsame ▸ hne)) hpow
    omega
  · have hnat : (-n.exponentValue).toNat = 0 := by omega
    have hunits : n.digits * 10 ^ d / 10 ^ n.fractionDigits.length * 10 ^ n.exponentValue.toNat ≤ n.units d := by
      rw [Numeral.units, hnat, Nat.add_zero, pow_add, ← mul_assoc, Nat.mul_comm, Nat.mul_comm _ (10 ^ n.exponentValue.toNat)]
      exact Nat.mul_div_le_mul_div_assoc _ _ _
    have hpow : 10 ≤ 10 ^ n.exponentValue.toNat := Nat.le_self_pow (by omega) 10
    rw [← hsame] at hunits
    have hless : n.units d * 1 < n.units d * 10 ^ n.exponentValue.toNat :=
      Nat.mul_lt_mul_of_pos_left (by omega) (Nat.pos_of_ne_zero hne)
    omega

/-- The parts add up to the amount exactly where they stand for it. -/
theorem sameAmount_iff (h : n.Valid) (d : Nat) :
    SameAmount n d ↔ readUnits n d = if n.negative then -(n.units d : Int) else n.units d := by
  have hplain := plainUnits_eq h d
  have hwhole : (digitsValue n.whole : Int) * 10 ^ d = wholeUnits n d := by
    rw [wholeUnits]
    push_cast
    rfl
  unfold SameAmount readUnits
  by_cases hzero : n.exponentValue = 0
  · have hunits : n.units d = wholeUnits n d + fractionUnits n d := by
      rw [hplain, Numeral.units, hzero]
      rfl
    rw [if_pos hzero, hunits]
    by_cases hneg : n.negative = true
    · rw [if_pos hneg, if_pos hneg, neg_mul, hwhole, Nat.cast_add]
      constructor
      · intro hnone
        have hnone := hnone hneg
        omega
      · intro hsame _
        omega
    · rw [if_neg hneg, if_neg hneg, hwhole, Nat.cast_add]
      exact iff_of_true (fun hpos => absurd hpos hneg) rfl
  · rw [if_neg hzero]
    by_cases hneg : n.negative = true
    · rw [if_pos hneg, if_pos hneg, if_pos hneg, neg_mul, hwhole]
      omega
    · rw [if_neg hneg, if_neg hneg, if_neg hneg, hwhole]
      constructor
      · intro hnone
        omega
      · intro hsame
        have hnone := units_eq_zero_of_plain (d := d) h hzero (by omega)
        omega

/-! ## Reading the parts -/

/-- A character of a numeral other than its point. -/
def IsPlain (c : Char) : Prop := c.isDigit = true ∨ c ∈ ['+', '-', 'e', 'E']

theorem IsPlain.facts {c : Char} (h : IsPlain c) : prefixBase c = none ∧ c ≠ '.' := by
  rcases h with h | h
  · refine ⟨prefixBase_of_isDigit h, ?_⟩
    rintro rfl
    revert h
    decide
  · simp only [List.mem_cons, List.not_mem_nil, or_false] at h
    obtain rfl | rfl | rfl | rfl := h
    all_goals exact ⟨rfl, by decide⟩

variable {cs : List Char}

theorem plain_of_isSignedDigits (h : isSignedDigits cs = true) : ∀ c ∈ cs, IsPlain c := by
  intro c hc
  cases cs with
  | nil => cases hc
  | cons d cs =>
    rw [isSignedDigits] at h
    split at h
    · rename_i hsign
      rcases List.mem_cons.mp hc with rfl | hc
      · exact .inr (by simpa using hsign.imp_right .inl)
      · exact .inl ((isDigits_iff.mp h).2 c hc)
    · exact .inl ((isDigits_iff.mp h).2 c hc)

theorem plain_exponent (h : n.Valid) : ∀ c ∈ n.exponent, IsPlain c := by
  have hexponent := h.exponent
  intro c hc
  cases he : n.exponent with
  | nil =>
    rw [he] at hc
    cases hc
  | cons d cs =>
    rw [he] at hc hexponent
    simp only [Numeral.isExponent, Bool.and_eq_true, Bool.or_eq_true, decide_eq_true_eq] at hexponent
    rcases List.mem_cons.mp hc with rfl | hc
    · refine .inr ?_
      rcases hexponent.1 with rfl | rfl
      · decide
      · decide
    · exact plain_of_isSignedDigits hexponent.2 c hc

theorem plain_signed (h : n.Valid) : ∀ c ∈ n.sign.toList ++ n.whole, IsPlain c := by
  intro c hc
  rcases List.mem_append.mp hc with hc | hc
  · refine .inr ?_
    rcases h.sign c (Option.mem_toList.mp hc) with rfl | rfl
    · decide
    · decide
  · exact .inl (h.whole c hc)

/-- What a text of such characters is read as. -/
theorem toBigInt_plain (h : ∀ c ∈ cs, IsPlain c) :
    (cs = [] → toBigInt cs = .ok 0) ∧ (isSignedDigits cs = true → toBigInt cs = .ok (signedValue cs)) ∧
      (cs ≠ [] → isSignedDigits cs = false → ∃ e, toBigInt cs = .error e ∧ e.name = "SyntaxError") := by
  have hread := bigIntLiteral_of_no_prefix fun c hc => (h c hc).facts.1
  refine ⟨?_, fun hsigned => ?_, fun hne hsigned => ?_⟩
  · rintro rfl
    rfl
  · have hne : cs ≠ [] := by
      rintro rfl
      cases hsigned
    rw [if_neg hne, if_pos hsigned] at hread
    rw [toBigInt, hread]
    rfl
  · rw [if_neg hne, hsigned] at hread
    rw [toBigInt, hread]
    exact ⟨_, rfl, rfl⟩

theorem isSignedDigits_of_mem {c : Char} (hc : c ∈ cs) (he : c = 'e' ∨ c = 'E') :
    isSignedDigits cs = false := by
  rw [Bool.eq_false_iff]
  intro hsigned
  have hdigit : c.isDigit = false ∧ c ≠ '+' ∧ c ≠ '-' := by
    rcases he with rfl | rfl
    · decide
    · decide
  cases cs with
  | nil => cases hc
  | cons d cs =>
    rw [isSignedDigits] at hsigned
    split at hsigned
    · rename_i hsign
      rcases List.mem_cons.mp hc with rfl | hc
      · exact hsign.elim hdigit.2.1 hdigit.2.2
      · have := (isDigits_iff.mp hsigned).2 c hc
        rw [hdigit.1] at this
        cases this
    · have := (isDigits_iff.mp hsigned).2 c hc
      rw [hdigit.1] at this
      cases this

/-- The first letter of an exponent. -/
theorem exponent_head (h : n.Valid) (hne : n.exponent ≠ []) :
    ∃ c cs, n.exponent = c :: cs ∧ (c = 'e' ∨ c = 'E') := by
  have hexponent := h.exponent
  cases he : n.exponent with
  | nil => exact absurd he hne
  | cons c cs =>
    rw [he] at hexponent
    simp only [Numeral.isExponent, Bool.and_eq_true, Bool.or_eq_true, decide_eq_true_eq] at hexponent
    exact ⟨c, cs, rfl, hexponent.1⟩

/-- The digits before the point, with the sign. -/
theorem signed_whole (h : n.Valid) (hne : n.whole ≠ []) :
    isSignedDigits (n.sign.toList ++ n.whole) = true ∧ signedValue (n.sign.toList ++ n.whole) =
      if n.negative then -(digitsValue n.whole : Int) else digitsValue n.whole := by
  have hdigits : isDigits n.whole = true := isDigits_iff.mpr ⟨hne, h.whole⟩
  have hsign := h.sign
  unfold Numeral.negative
  cases hs : n.sign with
  | none =>
    obtain ⟨hsigned, hvalue⟩ := isSignedDigits_of_isDigits hdigits
    exact ⟨hsigned, hvalue⟩
  | some c =>
    rw [hs] at hsign
    rcases hsign c rfl with rfl | rfl
    · exact ⟨hdigits, rfl⟩
    · exact ⟨hdigits, rfl⟩

theorem idxOf?_append_cons {α : Type} [BEq α] [LawfulBEq α] {a : α} : ∀ {xs : List α} (ys : List α), a ∉ xs →
    (xs ++ a :: ys).idxOf? a = some xs.length
  | [], ys, _ => by simp [List.idxOf?_cons]
  | x :: xs, ys, h => by
    rw [List.mem_cons, not_or] at h
    obtain ⟨hne, h⟩ := h
    rw [List.cons_append, List.idxOf?_cons, if_neg (by simpa using Ne.symm hne), idxOf?_append_cons ys h]
    rfl

/-- A text without a point. -/
theorem parseCleaned_of_no_point (h : '.' ∉ cs) (d : Nat) (scale : Int) :
    parseCleaned d scale cs = (toBigInt cs).bind fun whole => .ok (whole * scale) := by
  have hnone : cs.idxOf? '.' = none := List.idxOf?_eq_none_iff.mpr h
  rw [parseCleaned, hnone]
  rfl

/-- A text with a point. -/
theorem parseCleaned_of_point {signed rest : List Char} (h : '.' ∉ signed) (d : Nat) (scale : Int) :
    parseCleaned d scale (signed ++ '.' :: rest) =
      (toBigInt (if signed = [] then ['0'] else signed)).bind fun whole =>
        (toBigInt (fitFraction d rest)).bind fun frac => .ok (whole * scale + frac) := by
  have hdrop : (signed ++ '.' :: rest).drop (signed.length + 1) = rest := by
    rw [List.drop_append, List.drop_of_length_le (by omega), List.nil_append]
    simp
  rw [parseCleaned, idxOf?_append_cons rest h]
  simp only [List.take_left, hdrop]
  rfl

/-- Where there are digits enough, the exponent is cut off. -/
theorem fitFraction_exponent (h : n.exponent = [] ∨ d ≤ n.fractionDigits.length) :
    fitFraction d (n.fractionDigits ++ n.exponent) = fitFraction d n.fractionDigits := by
  rcases Classical.em (n.exponent = []) with he | he
  · rw [he, List.append_nil]
  · have hd := h.resolve_left he
    have hpos := List.length_pos_of_ne_nil he
    rw [fitFraction, if_pos (by rw [List.length_append]; omega), List.take_append_of_le_length hd, fitFraction]
    split
    · rfl
    · have hlen : n.fractionDigits.length = d := by omega
      rw [← hlen, List.take_length, Nat.sub_self, List.replicate_zero, List.append_nil]

/-- Where there are too few, the letter of the exponent is among them. -/
theorem mem_fitFraction_exponent {f cs : List Char} (c : Char) (hd : f.length < d) :
    c ∈ fitFraction d (f ++ c :: cs) := by
  unfold fitFraction
  split
  · obtain ⟨k, hk⟩ : ∃ k, d - f.length = k + 1 := ⟨d - f.length - 1, by omega⟩
    rw [List.take_append, List.mem_append, hk, List.take_succ_cons]
    exact .inr List.mem_cons_self
  · simp

theorem plain_fitFraction {f : List Char} (h : ∀ c ∈ f, IsPlain c) : ∀ c ∈ fitFraction d f, IsPlain c := by
  intro c hc
  unfold fitFraction at hc
  split at hc
  · exact h c (List.mem_of_mem_take hc)
  · rcases List.mem_append.mp hc with hc | hc
    · exact h c hc
    · rw [List.eq_of_mem_replicate hc]
      exact .inl rfl

/-- The digits after the point are read where an exponent is not among them. -/
theorem toBigInt_fitFraction (h : n.Valid) (d : Nat) :
    (n.exponent = [] ∨ d ≤ n.fractionDigits.length →
      toBigInt (fitFraction d (n.fractionDigits ++ n.exponent)) = .ok (fractionUnits n d)) ∧
    (n.exponent ≠ [] → n.fractionDigits.length < d →
      ∃ e, toBigInt (fitFraction d (n.fractionDigits ++ n.exponent)) = .error e ∧ e.name = "SyntaxError") := by
  have hf : ∀ c ∈ n.fractionDigits, c.isDigit = true := h.fraction
  constructor
  · intro hread
    rw [fitFraction_exponent hread, fractionUnits]
    have hdigits := isDigit_fitFraction (d := d) hf
    obtain ⟨hnil, hsigned, -⟩ := toBigInt_plain fun c hc => .inl (hdigits c hc)
    rcases Classical.em (fitFraction d n.fractionDigits = []) with hempty | hempty
    · rw [hempty] at hnil ⊢
      exact hnil rfl
    · obtain ⟨hs, hvalue⟩ := isSignedDigits_of_isDigits (isDigits_iff.mpr ⟨hempty, hdigits⟩)
      rw [hsigned hs, hvalue]
  · intro he hd
    obtain ⟨c, cs, hexp, hc⟩ := exponent_head h he
    have hmem : c ∈ fitFraction d (n.fractionDigits ++ n.exponent) := by
      rw [hexp]
      exact mem_fitFraction_exponent c hd
    have hboth : ∀ c ∈ n.fractionDigits ++ n.exponent, IsPlain c := by
      intro c hc
      rcases List.mem_append.mp hc with hc | hc
      · exact .inl (hf c hc)
      · exact plain_exponent h c hc
    exact (toBigInt_plain (plain_fitFraction hboth)).2.2 (List.ne_nil_of_mem hmem) (isSignedDigits_of_mem hmem hc)

/-- The digits before the point are none, none but a sign, which is refused, or
some. -/
theorem toBigInt_beforePoint (h : n.Valid) :
    ((n.whole = [] → n.sign = none) → toBigInt (if n.sign.toList ++ n.whole = [] then ['0']
        else n.sign.toList ++ n.whole) = .ok (if n.negative then -(digitsValue n.whole : Int) else digitsValue n.whole)) ∧
      (¬(n.whole = [] → n.sign = none) → ∃ e, toBigInt (if n.sign.toList ++ n.whole = [] then ['0']
        else n.sign.toList ++ n.whole) = .error e ∧ e.name = "SyntaxError") := by
  constructor
  · intro hsign
    by_cases hempty : n.whole = []
    · have hnone := hsign hempty
      rw [hempty, hnone, Numeral.negative, hnone]
      rfl
    · obtain ⟨hsigned, hvalue⟩ := signed_whole h hempty
      rw [if_neg (by simp [hempty]), (toBigInt_plain (plain_signed h)).2.1 hsigned, hvalue]
  · intro hnot
    rw [Classical.not_imp] at hnot
    obtain ⟨c, hc⟩ := Option.ne_none_iff_exists'.mp hnot.2
    have hsigned : isSignedDigits (n.sign.toList ++ n.whole) = false := by
      rw [hnot.1, hc]
      rcases h.sign c hc with rfl | rfl
      · rfl
      · rfl
    have hne : n.sign.toList ++ n.whole ≠ [] := by
      rw [hc]
      exact List.cons_ne_nil _ _
    rw [if_neg hne]
    exact (toBigInt_plain (plain_signed h)).2.2 hne hsigned

/-- A numeral without a point is read if it has no exponent. -/
theorem parseCleaned_of_no_fraction (h : n.Valid) (hf : n.fraction = none) (d : Nat) :
    (n.exponent = [] → parseCleaned d (10 ^ d) (n.sign.toList ++ n.whole ++ [] ++ n.exponent) = .ok (readUnits n d)) ∧
      (n.exponent ≠ [] → ∃ e, parseCleaned d (10 ^ d) (n.sign.toList ++ n.whole ++ [] ++ n.exponent) = .error e ∧
        e.name = "SyntaxError") := by
  have hdigits : n.fractionDigits = [] := by
    rw [Numeral.fractionDigits, hf]
    rfl
  have hwhole : n.whole ≠ [] := by
    have hsome := h.some_digit
    rw [hf] at hsome
    exact hsome.resolve_right fun hne => hne rfl
  have hplain : ∀ c ∈ n.sign.toList ++ n.whole ++ [] ++ n.exponent, IsPlain c := by
    intro c hc
    rw [List.append_nil] at hc
    exact (List.mem_append.mp hc).elim (plain_signed h c) (plain_exponent h c)
  have hnone : '.' ∉ n.sign.toList ++ n.whole ++ [] ++ n.exponent := fun hmem => (hplain '.' hmem).facts.2 rfl
  rw [parseCleaned_of_no_point hnone]
  obtain ⟨-, hread, hrefuse⟩ := toBigInt_plain hplain
  constructor
  · intro he
    obtain ⟨hsigned, hvalue⟩ := signed_whole h hwhole
    have hzeros : fractionUnits n d = 0 := by
      rw [fractionUnits, hdigits, fitFraction, if_neg (by simp), List.nil_append, digitsValue_zeros]
    rw [he, List.append_nil, List.append_nil] at hread ⊢
    rw [hread hsigned, hvalue, readUnits, hzeros, Nat.cast_zero, add_zero]
    rfl
  · intro he
    obtain ⟨c, cs, hexp, hc⟩ := exponent_head h he
    have hmem : c ∈ n.sign.toList ++ n.whole ++ [] ++ n.exponent := by
      rw [hexp]
      simp
    obtain ⟨e, herror, hname⟩ := hrefuse (List.ne_nil_of_mem hmem) (isSignedDigits_of_mem hmem hc)
    refine ⟨e, ?_, hname⟩
    rw [herror]
    rfl

/-- A numeral with a point is read if its sign has digits and its exponent is
cut off. -/
theorem parseCleaned_of_fraction (h : n.Valid) (d : Nat) :
    ((n.whole = [] → n.sign = none) ∧ (n.exponent ≠ [] → d ≤ n.fractionDigits.length) →
        parseCleaned d (10 ^ d) ((n.sign.toList ++ n.whole) ++ '.' :: (n.fractionDigits ++ n.exponent)) =
          .ok (readUnits n d)) ∧
      (¬((n.whole = [] → n.sign = none) ∧ (n.exponent ≠ [] → d ≤ n.fractionDigits.length)) →
        ∃ e, parseCleaned d (10 ^ d) ((n.sign.toList ++ n.whole) ++ '.' :: (n.fractionDigits ++ n.exponent)) = .error e ∧
          e.name = "SyntaxError") := by
  have hpoint : '.' ∉ n.sign.toList ++ n.whole := fun hmem => (plain_signed h '.' hmem).facts.2 rfl
  obtain ⟨hfrac, hfrac'⟩ := toBigInt_fitFraction h d
  obtain ⟨hwhole, hwhole'⟩ := toBigInt_beforePoint h
  rw [parseCleaned_of_point hpoint]
  constructor
  · rintro ⟨hsign, hexp⟩
    rw [hwhole hsign, hfrac (or_iff_not_imp_left.mpr hexp)]
    rfl
  · intro hnot
    by_cases hsign : n.whole = [] → n.sign = none
    · have hexp : n.exponent ≠ [] ∧ ¬d ≤ n.fractionDigits.length := by
        rw [← Classical.not_imp]
        exact fun hexp => hnot ⟨hsign, hexp⟩
      obtain ⟨e, herror, hname⟩ := hfrac' hexp.1 (by omega)
      refine ⟨e, ?_, hname⟩
      rw [hwhole hsign, herror]
      rfl
    · obtain ⟨e, herror, hname⟩ := hwhole' hsign
      refine ⟨e, ?_, hname⟩
      rw [herror]
      rfl

/-- The amount that is read of a numeral, or the error that is none of the
documented ones. -/
theorem parseCleaned_numeral (h : n.Valid) (d : Nat) :
    (Readable n d → parseCleaned d (10 ^ d) n.text = .ok (readUnits n d)) ∧
      (¬Readable n d → ∃ e, parseCleaned d (10 ^ d) n.text = .error e ∧ e.name = "SyntaxError") := by
  unfold Readable Numeral.text Numeral.point
  cases hf : n.fraction with
  | none => exact parseCleaned_of_no_fraction h hf d
  | some f =>
    have hdigits : n.fractionDigits = f := by
      rw [Numeral.fractionDigits, hf]
      rfl
    have htext : n.sign.toList ++ n.whole ++ '.' :: f ++ n.exponent =
        (n.sign.toList ++ n.whole) ++ '.' :: (n.fractionDigits ++ n.exponent) := by
      rw [hdigits, List.append_assoc, List.cons_append]
    rw [htext, ← hdigits]
    exact parseCleaned_of_fraction h d

/-! ## Numbers -/

/-- A number is read for what it is. -/
def NumberReadsRight (d : Nat) : NumberLiteral → Prop
  | .infinity _ => False
  | .radix _ => True
  | .decimal n => Readable n d ∧ SameAmount n d

theorem bigIntLiteral_of_readRadix {n : Nat} (h : readRadix cs = some n) :
    bigIntLiteral cs = some (n : Int) := by
  unfold readRadix at h
  split at h
  · rename_i c cs
    obtain ⟨base, hbase, hread⟩ := Option.bind_eq_some_iff.mp h
    rw [bigIntLiteral, hbase]
    simp only [if_true, hread]
    rfl
  · cases h

/-- The amount of a number, rounded towards zero, or another outcome. -/
theorem parseCleaned_iff {lit : NumberLiteral} (h : readNumber cs = some lit) (d : Nat) :
    (NumberReadsRight d lit → ∃ q, lit.value = some q ∧ parseCleaned d (10 ^ d) cs = .ok (truncate (q * 10 ^ d))) ∧
      (¬NumberReadsRight d lit → (∃ e, parseCleaned d (10 ^ d) cs = .error e ∧ e.name = "SyntaxError") ∨
        ∃ v q, parseCleaned d (10 ^ d) cs = .ok v ∧ lit.value = some q ∧ v ≠ truncate (q * 10 ^ d)) := by
  have hinfinity : ∀ cs ∈ ["Infinity".toList, "+Infinity".toList, "-Infinity".toList],
      '.' ∉ cs ∧ bigIntLiteral cs = none := by decide +kernel
  have hrefused : ∀ {cs : List Char}, '.' ∉ cs ∧ bigIntLiteral cs = none →
      ∃ e, parseCleaned d (10 ^ d) cs = .error e ∧ e.name = "SyntaxError" := by
    rintro cs ⟨hpoint, hnone⟩
    rw [parseCleaned_of_no_point hpoint, toBigInt, hnone]
    exact ⟨_, rfl, rfl⟩
  unfold readNumber at h
  split at h
  · rename_i n hradix
    cases h
    have hliteral := bigIntLiteral_of_readRadix hradix
    have hpoint : '.' ∉ cs := fun hmem => absurd (chars_of_bigIntLiteral hliteral '.' hmem) (by decide)
    refine ⟨fun _ => ⟨n, rfl, ?_⟩, fun hnot => absurd trivial hnot⟩
    have hwhole : ((n : ℚ) * 10 ^ d) = ((n * 10 ^ d : Int) : ℚ) := by
      push_cast
      rfl
    rw [parseCleaned_of_no_point hpoint, toBigInt, hliteral, hwhole, truncate_intCast]
    rfl
  · split at h
    · rename_i hcs
      cases h
      refine ⟨False.elim, fun _ => .inl (hrefused (hinfinity cs ?_))⟩
      rcases hcs with rfl | rfl <;> simp
    · split at h
      · rename_i hcs
        cases h
        exact ⟨False.elim, fun _ => .inl (hrefused (hinfinity cs (by simp [hcs])))⟩
      · split at h
        · rename_i hnumeral
          cases h
          have hvalid := Numeral.valid_ofText hnumeral
          obtain ⟨hread, hrefuse⟩ := parseCleaned_numeral hvalid d
          rw [Numeral.text_ofText] at hread hrefuse
          have hsame := sameAmount_iff hvalid d
          rw [← Numeral.truncate_value] at hsame
          refine ⟨fun hright => ⟨_, rfl, ?_⟩, fun hnot => ?_⟩
          · rw [hread hright.1, hsame.mp hright.2]
          · rcases Classical.em (Readable (Numeral.ofText cs) d) with hr | hr
            · refine .inr ⟨_, _, hread hr, rfl, fun heq => hnot ⟨hr, hsame.mpr heq⟩⟩
            · exact .inl (hrefuse hr)
        · cases h

/-! ## Amounts -/

section Amounts

variable [NumberFormat ν] [CommRing ν] [LinearOrder ν] [FloorRing ν]

/-- The outcome is the amount of the text, rounded towards zero, or the error that
is documented. -/
def Exact (decimals : JsNumber ν) (cleaned : List Char) (documented : SdkError) : Except SdkError Int → Prop
  | .ok v => ∃ d lit q, IsDecimals decimals d ∧ readNumber cleaned = some lit ∧ lit.value = some q ∧
      v = truncate (q * 10 ^ d)
  | .error e => e = documented

/-- A cleaned text is read right: it is no number and is not taken for zero, or it
is a number that is read for what it is. -/
def ReadsRight (options : ParseAmountOptions) (decimals : JsNumber ν) (cleaned : List Char) : Prop :=
  match readNumber cleaned with
  | none => options.strict = false
  | some lit => ∃ d, IsDecimals decimals d ∧ NumberReadsRight d lit

omit [NumberFormat ν] in
/-- What is read of a number is exact where the number is read right. -/
theorem exact_parseCleaned_iff {cleaned : List Char} {lit : NumberLiteral} (hread : readNumber cleaned = some lit)
    {decimals : JsNumber ν} {d : Nat} (hd : IsDecimals decimals d) {documented : SdkError}
    (hname : documented.name = "Error") :
    Exact decimals cleaned documented (parseCleaned d (10 ^ d) cleaned) ↔
      ∃ d, IsDecimals decimals d ∧ NumberReadsRight d lit := by
  obtain ⟨hright, hwrong⟩ := parseCleaned_iff hread d
  constructor
  · intro hexact
    refine ⟨d, hd, by_contra fun hnot => ?_⟩
    rcases hwrong hnot with ⟨e, he, hsyntax⟩ | ⟨v, q, hv, hq, hne⟩
    · rw [he] at hexact
      rw [show e = documented from hexact, hname] at hsyntax
      exact absurd hsyntax (by decide)
    · rw [hv] at hexact
      obtain ⟨d', lit', q', hd', hread', hq', rfl⟩ := hexact
      rw [hread, Option.some.injEq] at hread'
      rw [← hread', hq, Option.some.injEq] at hq'
      exact hne (by rw [hd'.unique hd, hq'])
  · rintro ⟨d', hd', hr⟩
    obtain ⟨q, hq, hok⟩ := hright (hd'.unique hd ▸ hr)
    rw [hok]
    exact ⟨d, lit, q, hd, hread, hq, rfl⟩

/-- The outcome for a text is exact, or the error that is documented, exactly where
the text is read right. -/
theorem parseAmount_exact_iff (canonicalize : Char → Char) (input : String) (metadata : AmountMetadata ν)
    (options : ParseAmountOptions) (cache : ScaleCache ν) :
    Exact metadata.decimals (cleanAmount canonicalize metadata.symbol input) (rejection input metadata.symbol)
        (parseAmount canonicalize input metadata options cache).1 ↔
      ReadsRight options metadata.decimals (cleanAmount canonicalize metadata.symbol input) := by
  have hname : (rejection input metadata.symbol).name = "Error" := rfl
  have hempty : readNumber [] = none := by decide
  unfold parseAmount ReadsRight
  generalize cleanAmount canonicalize metadata.symbol input = cleaned
  cases hread : readNumber cleaned with
  | none =>
    rw [if_pos (.inr (by rw [hread]; rfl))]
    by_cases hstrict : options.strict = false
    · rw [if_pos hstrict]
      exact iff_of_true rfl hstrict
    · rw [if_neg hstrict]
      refine iff_of_false ?_ hstrict
      rintro ⟨d, lit, q, -, hsome, -⟩
      rw [hread] at hsome
      cases hsome
  | some lit =>
    have hne : ¬(cleaned = [] ∨ (readNumber cleaned).isNone = true) := by
      rw [hread]
      rintro (rfl | hnone)
      · rw [hempty] at hread
        cases hread
      · cases hnone
    rw [if_neg hne]
    rcases getScale_eq metadata.decimals cache with ⟨d, cache', hd, hscale⟩ | ⟨hnone, e, hscale, herror⟩
    · have hdecimals : (metadata.decimals.toInteger.getD 0).toNat = d := by
        rw [show metadata.decimals.toInteger = some (d : Int) from hd]
        rfl
      simp only [hscale, hdecimals]
      exact exact_parseCleaned_iff hread hd hname
    · simp only [hscale]
      refine iff_of_false ?_ fun ⟨d, hd, _⟩ => hnone d hd
      intro hsame
      rw [show e = rejection input metadata.symbol from hsame, hname] at herror
      exact absurd herror (by decide)

end Amounts

/-- The metadata of lumens. -/
def lumens : AmountMetadata Int where
  decimals := .finite 7
  symbol := "XLM"

/-- Minus one and a half is read as minus a half. -/
theorem negative_half :
    (parseAmount id "-1.5 XLM" lumens {} { entries := [], scales := nofun }).1 = .ok (-5000000) ∧
      ¬Exact lumens.decimals (cleanAmount id "XLM" "-1.5 XLM") (rejection "-1.5 XLM" "XLM") (.ok (-5000000)) := by
  refine ⟨rfl, ?_⟩
  rintro ⟨d, lit, q, hd, hread, hq, hv⟩
  have hdecimals : d = 7 := by
    have hseven : some ((7 : Nat) : Int) = some (d : Int) := hd
    rw [Option.some.injEq] at hseven
    omega
  have hclean : readNumber (cleanAmount id "XLM" "-1.5 XLM") =
      some (.decimal { sign := some '-', whole := ['1'], fraction := some ['5'] }) := rfl
  rw [hclean, Option.some.injEq] at hread
  subst hread
  rw [NumberLiteral.value, Option.some.injEq] at hq
  rw [← hq, hdecimals, Numeral.truncate_value] at hv
  exact absurd hv (by decide)

end ZkPayroll.Assets
