import ZkPayroll.Assets.ParsedPayrollAmounts
import ZkPayroll.Framework.Lists

/-!
# Formatted amounts that are parsed again

`formatRoundedAmount` of `assets/amountRounding.ts` writes a number and the
symbol of the asset, and `parsePayrollAmount` removes the symbol where it first
occurs. The number is read as the amount (`formatted_outcome`). A symbol that
occurs too early repeats an end of the number and a space (`early_symbol`), as
what is left of it is conjugate to what is removed; so the number is left whole
just if the last part of the symbol is nothing, or the number (`roundTrips_iff`).
-/

namespace ZkPayroll.Assets

open Framework ZkPayroll.Core Treasury

variable {ν : Type} [NumberFormat ν] [CommRing ν] [LinearOrder ν] [FloorRing ν]

/-! ## Formatting -/

def formatRoundedAmount (rounded : RoundedAmount ν) (asset : AmountMetadata ν) :
    Method SdkError (ScaleCache ν) String := do
  let scale ← getDecimalScaleFactor rounded.targetDecimals
  let whole := rounded.amount.tdiv scale
  let frac := rounded.amount.tmod scale
  if frac = 0 then
    return s!"{whole} {asset.symbol}"
  else
    let decimals := (rounded.targetDecimals.toInteger.getD 0).toNat
    let fracStr := String.ofList (dropTrailingZeros (padStart decimals (integerText frac)))
    return s!"{whole}.{fracStr} {asset.symbol}"

/-- The number that is written. -/
def numeralOf (n d : Nat) : List Char :=
  if n % 10 ^ d = 0 then Nat.toDigits 10 (n / 10 ^ d)
  else Nat.toDigits 10 (n / 10 ^ d) ++ '.' :: dropTrailingZeros (padStart d (Nat.toDigits 10 (n % 10 ^ d)))

theorem toList_whole (whole : Nat) (symbol : String) :
    (toString (whole : Int) ++ " " ++ symbol).toList = Nat.toDigits 10 whole ++ ' ' :: symbol.toList := by
  have hwhole : (toString (whole : Int)).toList = Nat.toDigits 10 whole := toList_toString whole
  rw [String.toList_append, String.toList_append, hwhole, List.append_assoc]
  rfl

theorem toList_frac (whole : Nat) (frac : List Char) (symbol : String) :
    (toString (whole : Int) ++ "." ++ String.ofList frac ++ " " ++ symbol).toList =
      Nat.toDigits 10 whole ++ '.' :: frac ++ ' ' :: symbol.toList := by
  have hwhole : (toString (whole : Int)).toList = Nat.toDigits 10 whole := toList_toString whole
  rw [String.toList_append, String.toList_append, String.toList_append, String.toList_append, hwhole,
    String.toList_ofList, List.append_assoc, List.append_assoc]
  simp

theorem formatRoundedAmount_eq {rounded : RoundedAmount ν} {d n : Nat} (hd : IsPrecision rounded.targetDecimals d)
    (hn : rounded.amount = n) (asset : AmountMetadata ν) (cache : ScaleCache ν) :
    ∃ text cache', formatRoundedAmount rounded asset cache = .ok text cache' ∧
      text.toList = numeralOf n d ++ ' ' :: asset.symbol.toList := by
  obtain ⟨cache', hscale⟩ := getDecimalScaleFactor_eq hd cache
  have hwhole : rounded.amount.tdiv (10 ^ d) = ((n / 10 ^ d : Nat) : Int) := by
    rw [hn]
    push_cast
    rfl
  have hfrac : rounded.amount.tmod (10 ^ d) = ((n % 10 ^ d : Nat) : Int) := by
    rw [hn]
    push_cast
    rfl
  have hdecimals : (rounded.targetDecimals.toInteger.getD 0).toNat = d := by
    have hinteger : rounded.targetDecimals.toInteger = some (d : Int) := hd.isDecimals
    rw [hinteger]
    rfl
  rw [formatRoundedAmount, Method.bind_of_ok hscale]
  dsimp only
  rw [hwhole, hfrac, hdecimals, numeralOf]
  by_cases h : n % 10 ^ d = 0
  · rw [if_pos (by rw [h]; rfl), if_pos h]
    refine ⟨_, cache', rfl, ?_⟩
    exact toList_whole (n / 10 ^ d) asset.symbol
  · rw [if_neg (by exact_mod_cast h), if_neg h]
    refine ⟨_, cache', rfl, ?_⟩
    exact toList_frac (n / 10 ^ d) (dropTrailingZeros (padStart d (Nat.toDigits 10 (n % 10 ^ d)))) asset.symbol

/-! ## The number -/

section Numeral

variable {n d : Nat}

/-- The zeros that are dropped. -/
theorem dropTrailingZeros_append (cs : List Char) : ∃ k, cs = dropTrailingZeros cs ++ List.replicate k '0' := by
  refine ⟨(cs.reverse.takeWhile (· = '0')).length, ?_⟩
  have hzeros : cs.reverse.takeWhile (· = '0') = List.replicate (cs.reverse.takeWhile (· = '0')).length '0' := by
    apply List.eq_replicate_of_mem
    intro c hc
    simpa using List.mem_takeWhile_imp hc
  rw [← List.reverse_replicate, ← hzeros, dropTrailingZeros, ← List.reverse_append, List.takeWhile_append_dropWhile,
    List.reverse_reverse]

theorem length_padded (h : n < 10 ^ d) (hne : n ≠ 0) : (padStart d (Nat.toDigits 10 n)).length = d := by
  have hpos : 0 < d := by
    apply Nat.pos_of_ne_zero
    rintro rfl
    omega
  have hle : (Nat.toDigits 10 n).length ≤ d := (Nat.length_toDigits_le_iff (by decide) hpos).mpr h
  rw [padStart, List.length_append, List.length_replicate]
  omega

/-- The parts of the number that is written. -/
structure WrittenParts (n d : Nat) (whole frac : List Char) : Prop where
  parts : Parts whole frac
  whole_eq : digitsValue whole = n / 10 ^ d
  length_le : frac.length ≤ d
  kept : keptUnits d whole frac = n

theorem writtenParts_of_whole (h : n % 10 ^ d = 0) : WrittenParts n d (Nat.toDigits 10 (n / 10 ^ d)) [] := by
  refine ⟨⟨isDigits_toDigits _, List.forall_mem_nil _⟩, digitsValue_toDigits _, Nat.zero_le d, ?_⟩
  have hfit : fitFraction d [] = List.replicate d '0' := by
    rw [fitFraction, if_neg (by simp)]
    rfl
  rw [keptUnits, hfit, digitsValue_zeros, digitsValue_toDigits]
  have hdiv := Nat.div_add_mod' n (10 ^ d)
  omega

theorem writtenParts_of_frac (h : n % 10 ^ d ≠ 0) :
    WrittenParts n d (Nat.toDigits 10 (n / 10 ^ d)) (dropTrailingZeros (padStart d (Nat.toDigits 10 (n % 10 ^ d)))) := by
  have hlt : n % 10 ^ d < 10 ^ d := Nat.mod_lt n (Nat.pow_pos (by decide))
  have hlen := length_padded hlt h
  have hvalue : digitsValue (padStart d (Nat.toDigits 10 (n % 10 ^ d))) = n % 10 ^ d :=
    digitsValue_padStart.trans (digitsValue_toDigits _)
  have hdigits : ∀ c ∈ padStart d (Nat.toDigits 10 (n % 10 ^ d)), c.isDigit = true := isDigit_padStart toDigits_isDigit
  generalize padStart d (Nat.toDigits 10 (n % 10 ^ d)) = padded at hlen hvalue hdigits
  obtain ⟨k, hk⟩ := dropTrailingZeros_append padded
  have hsum := congrArg List.length hk
  rw [List.length_append, List.length_replicate, hlen] at hsum
  have hfit : fitFraction d (dropTrailingZeros padded) = padded := by
    have hsub : d - (dropTrailingZeros padded).length = k := by omega
    rw [fitFraction, if_neg (by omega), hsub, ← hk]
  refine ⟨⟨isDigits_toDigits _, ?_⟩, digitsValue_toDigits _, by omega, ?_⟩
  · intro c hc
    exact hdigits c (hk ▸ List.mem_append_left _ hc)
  · rw [keptUnits, hfit, hvalue, digitsValue_toDigits, Nat.div_add_mod']

/-- The number is read in the parts that were written. -/
theorem numeralOf_parts (n d : Nat) : isPlainNumeral (numeralOf n d) = true ∧
    ∃ whole frac, splitParts (numeralOf n d) = (whole, frac) ∧ WrittenParts n d whole frac := by
  have hdigits : isDigits (Nat.toDigits 10 (n / 10 ^ d)) = true := isDigits_toDigits _
  obtain ⟨hne, hall⟩ := isDigits_iff.mp hdigits
  rw [numeralOf]
  split
  next h =>
    have hparts := writtenParts_of_whole h
    have hnone : (Nat.toDigits 10 (n / 10 ^ d)).idxOf? '.' = none :=
      List.idxOf?_eq_none_iff.mpr fun hmem => isDigit_ne_point (hall _ hmem) rfl
    refine ⟨?_, _, _, by rw [splitParts, hnone], hparts⟩
    rw [isPlainNumeral, List.dropWhile_eq_nil_iff.mpr hall]
    simp
  next h =>
    have hparts := writtenParts_of_frac h
    generalize dropTrailingZeros (padStart d (Nat.toDigits 10 (n % 10 ^ d))) = frac at hparts
    generalize Nat.toDigits 10 (n / 10 ^ d) = whole at hne hall hparts
    have hpoint : '.' ∉ whole := fun hmem => isDigit_ne_point (hall _ hmem) rfl
    refine ⟨?_, whole, frac, ?_, hparts⟩
    · have hdrop : (whole ++ '.' :: frac).dropWhile Char.isDigit = '.' :: frac := by
        rw [List.dropWhile_append_of_pos hall]
        exact List.dropWhile_cons_of_neg (by decide)
      have htake : (whole ++ '.' :: frac).takeWhile Char.isDigit = whole := by
        rw [List.takeWhile_append_of_pos hall, List.takeWhile_cons_of_neg (by decide), List.append_nil]
      have hfrac : frac.all Char.isDigit = true := List.all_eq_true.mpr hparts.parts.frac
      rw [isPlainNumeral, hdrop]
      simp [htake, hfrac, hne]
    · rw [splitParts, idxOf?_append_cons frac hpoint]
      simp [hne]

end Numeral

/-! ## The symbol that is removed -/

section Symbol

variable {canonicalize : Char → Char}

/-- No other character is taken for a digit, the point or the space. -/
def KeepsNumerals (canonicalize : Char → Char) : Prop :=
  ∀ c d : Char, d.isDigit = true ∨ d = '.' ∨ d = ' ' → canonicalize c = canonicalize d → c = d

/-- The symbol occurs in the text before its own place. -/
def OccursEarly (canonicalize : Char → Char) (numeral symbol : List Char) : Prop :=
  ∃ i ≤ numeral.length,
    (((numeral ++ ' ' :: symbol).drop i).take symbol.length).map canonicalize = symbol.map canonicalize

/-- What follows the last space. -/
def afterLastSpace (symbol : List Char) : List Char := (symbol.reverse.takeWhile (· ≠ ' ')).reverse

/-- A symbol that occurs no earlier is removed from its place. -/
theorem removeFirst_last {pre symbol : List Char}
    (h : ∀ i < pre.length, (((pre ++ symbol).drop i).take symbol.length).map canonicalize ≠ symbol.map canonicalize) :
    removeFirst canonicalize symbol (pre ++ symbol) = pre := by
  induction pre with
  | nil =>
    rw [List.nil_append]
    cases symbol with
    | nil => rfl
    | cons c symbol => rw [removeFirst, List.take_length, if_pos rfl, List.drop_length]
  | cons c pre ih =>
    have hself := h 0 (by simp)
    rw [List.drop_zero, List.cons_append] at hself
    rw [List.cons_append, removeFirst, if_neg hself, ih]
    intro i hi
    have hrest := h (i + 1) (by rw [List.length_cons]; omega)
    rwa [List.cons_append, List.drop_succ_cons] at hrest

/-- A symbol that occurs earlier is removed there. -/
theorem removeFirst_early {pre symbol : List Char}
    (h : ∃ i < pre.length, (((pre ++ symbol).drop i).take symbol.length).map canonicalize = symbol.map canonicalize) :
    ∃ x z found y, z ≠ [] ∧ pre = x ++ z ∧ z ++ symbol = found ++ y ∧
      found.map canonicalize = symbol.map canonicalize ∧ removeFirst canonicalize symbol (pre ++ symbol) = x ++ y := by
  induction pre with
  | nil =>
    obtain ⟨i, hi, -⟩ := h
    exact absurd hi (Nat.not_lt_zero i)
  | cons c pre ih =>
    by_cases hself : ((c :: pre ++ symbol).take symbol.length).map canonicalize = symbol.map canonicalize
    · refine ⟨[], c :: pre, (c :: pre ++ symbol).take symbol.length, (c :: pre ++ symbol).drop symbol.length,
        List.cons_ne_nil c pre, rfl, (List.take_append_drop _ _).symm, hself, ?_⟩
      rw [List.cons_append] at hself ⊢
      rw [removeFirst, if_pos hself]
      rfl
    · obtain ⟨i, hi, hfound⟩ := h
      cases i with
      | zero => exact absurd hfound hself
      | succ i =>
        rw [List.cons_append, List.drop_succ_cons] at hfound
        obtain ⟨x, z, found, y, hz, rfl, hy, hmap, hremoved⟩ := ih ⟨i, by simpa using hi, hfound⟩
        refine ⟨c :: x, z, found, y, hz, rfl, hy, hmap, ?_⟩
        rw [List.cons_append] at hself ⊢
        rw [removeFirst, if_neg hself, hremoved]
        rfl

/-- What is found is the symbol itself, as its characters come from the number. -/
theorem found_eq {z symbol found y : List Char} (hz : z ≠ [])
    (hkeeps : ∀ d ∈ z, ∀ c, canonicalize c = canonicalize d → c = d) (h : z ++ symbol = found ++ y)
    (hmap : found.map canonicalize = symbol.map canonicalize) : found = symbol := by
  induction symbol generalizing z found with
  | nil => exact List.map_eq_nil_iff.mp hmap
  | cons s symbol ih =>
    cases found with
    | nil => cases hmap
    | cons f found =>
      obtain ⟨hsame, htail⟩ := List.cons.inj hmap
      obtain ⟨d, z, rfl⟩ := List.exists_cons_of_ne_nil hz
      obtain ⟨rfl, hrest⟩ := List.cons.inj h
      have hs : s = d := hkeeps d List.mem_cons_self s hsame.symm
      subst hs
      have hz' : z ++ [s] ≠ [] := by simp
      have hkeeps' : ∀ d ∈ z ++ [s], ∀ c, canonicalize c = canonicalize d → c = d := by
        intro d hd
        apply hkeeps d
        simpa [or_comm] using hd
      have hpassed : (z ++ [s]) ++ symbol = found ++ y := by
        rw [List.append_assoc]
        exact hrest
      rw [ih hz' hkeeps' hpassed htail]

variable {u : List Char}

theorem afterLastSpace_of_free (h : ' ' ∉ u) : afterLastSpace u = u := by
  have htake : u.reverse.takeWhile (· ≠ ' ') = u.reverse := by
    apply List.takeWhile_eq_self_iff.mpr
    intro c hc
    simpa using fun heq : c = ' ' => h (heq ▸ List.mem_reverse.mp hc)
  rw [afterLastSpace, htake, List.reverse_reverse]

theorem afterLastSpace_append (pre : List Char) (h : ' ' ∉ u) :
    afterLastSpace (pre ++ ' ' :: u) = u := by
  have hpos : ∀ c ∈ u.reverse, decide (c ≠ ' ') = true := by
    intro c hc
    simpa using fun heq : c = ' ' => h (heq ▸ List.mem_reverse.mp hc)
  rw [afterLastSpace, List.reverse_append, List.reverse_cons, List.append_assoc, List.takeWhile_append_of_pos hpos]
  simp

/-- What is removed repeats an end of the number and a space, and ends with what
follows its last space. -/
theorem afterLastSpace_repeated (w : List Char) (h : ' ' ∉ u) (k : Nat) :
    afterLastSpace ((List.replicate k (w ++ [' '])).flatten ++ u) = u := by
  cases k with
  | zero => exact afterLastSpace_of_free h
  | succ k =>
    have hrepeat : (List.replicate (k + 1) (w ++ [' '])).flatten ++ u =
        ((List.replicate k (w ++ [' '])).flatten ++ w) ++ ' ' :: u := by
      rw [List.replicate_succ', List.flatten_append]
      simp
    rw [hrepeat, afterLastSpace_append _ h]

/-! ## What is left of the text -/

variable {numeral symbol : List Char}

/-- A symbol that occurs early has the characters of the number, and without it
the space is moved before the end of the number that the symbol ends with. -/
theorem early_symbol (hc : KeepsNumerals canonicalize)
    (hnumeral : ∀ c ∈ numeral, c.isDigit = true ∨ c = '.') (h : OccursEarly canonicalize numeral symbol) :
    (∀ c ∈ symbol, c ∈ numeral ∨ c = ' ') ∧ ∃ x v u, numeral = x ++ (u ++ v) ∧ afterLastSpace symbol = u ∧
      removeFirst canonicalize symbol (numeral ++ ' ' :: symbol) = x ++ (v ++ ' ' :: u) := by
  have hassoc : ∀ t, numeral ++ ' ' :: t = (numeral ++ [' ']) ++ t := fun t => by simp
  obtain ⟨i, hi, hfound⟩ := h
  rw [hassoc] at hfound
  obtain ⟨x, z, found, y, hz, hsplit, hy, hmap, hremoved⟩ := removeFirst_early
    ⟨i, by rw [List.length_append, List.length_singleton]; omega, hfound⟩
  have hchars : ∀ d ∈ numeral ++ [' '], d.isDigit = true ∨ d = '.' ∨ d = ' ' := by
    intro d hd
    rcases List.mem_append.mp hd with hd | hd
    · exact (hnumeral d hd).imp_right .inl
    · exact .inr (.inr (List.mem_singleton.mp hd))
  have hsame : found = symbol :=
    found_eq hz (fun d hd c => hc c d (hchars d (hsplit ▸ List.mem_append_right x hd))) hy hmap
  rw [hsame] at hy
  obtain ⟨u, v, k, hv, rfl, rfl, hsymbol⟩ := conjugate hz hy
  -- the space is the last character of `v`
  obtain ⟨v, c, rfl⟩ : ∃ v' c, v = v' ++ [c] := ⟨_, _, (List.dropLast_append_getLast hv).symm⟩
  rw [← List.append_assoc u, ← List.append_assoc x] at hsplit
  obtain ⟨rfl, hlast⟩ := List.append_inj' hsplit rfl
  obtain rfl : ' ' = c := (List.cons.inj hlast).1
  have hu : ' ' ∉ u := by
    intro hmem
    rcases hnumeral ' ' (by simp [hmem]) with hdigit | hpoint
    · revert hdigit
      decide
    · revert hpoint
      decide
  refine ⟨?_, x, v, u, rfl, ?_, ?_⟩
  · intro c hc
    have hmem : c ∈ u ++ (v ++ [' ']) := by
      rw [hsymbol] at hc
      rcases List.mem_append.mp hc with hc | hc
      · obtain ⟨l, hl, hc⟩ := List.mem_flatten.mp hc
        exact List.eq_of_mem_replicate hl ▸ hc
      · exact List.mem_append_left _ hc
    simp only [List.mem_append, List.mem_singleton] at hmem ⊢
    tauto
  · rw [hsymbol, ← List.append_assoc u, afterLastSpace_repeated _ hu]
  · rw [hassoc, hremoved, List.append_assoc]
    rfl

/-- The number is left whole: the symbol occurs at its place only, or it is empty
or ends with a space, or the number follows its last space. -/
def LeavesNumeral (canonicalize : Char → Char) (numeral symbol : List Char) : Prop :=
  ¬OccursEarly canonicalize numeral symbol ∨ afterLastSpace symbol = [] ∨ afterLastSpace symbol = numeral

variable {cs : List Char}

/-- A character of the number, or a space, is kept. -/
theorem filter_numeral (h : ∀ c ∈ cs, c.isDigit = true ∨ c = '.' ∨ c = ' ') :
    cs.filter (fun c => !(isCurrencySign c || c = ',')) = cs := by
  apply List.filter_eq_self.mpr
  intro c hc
  rcases h c hc with hdigit | rfl | rfl
  · have hle := isDigit_iff.mp hdigit
    have hne : ∀ d : Char, (d.toNat < 48 ∨ 57 < d.toNat) → c ≠ d := by
      rintro d hd rfl
      omega
    simp [isCurrencySign, hne '$' (by decide), hne '€' (by decide), hne '£' (by decide), hne '¥' (by decide),
      hne ',' (by decide)]
  · decide
  · decide

theorem trimChars_space_cons (h : ∀ c ∈ cs, isSpace c = false) : trimChars (' ' :: cs) = cs := by
  have htrim : trimChars (' ' :: cs) = trimChars cs := rfl
  rw [htrim, trimChars_of_no_space h]

theorem trimChars_append_space (h : ∀ c ∈ cs, isSpace c = false) : trimChars (cs ++ [' ']) = cs := by
  cases cs with
  | nil => rfl
  | cons c cs =>
    have hspace : (' ' :: (c :: cs).reverse).dropWhile isSpace = (c :: cs).reverse.dropWhile isSpace := rfl
    have hfront : ∀ t, (c :: t).dropWhile isSpace = c :: t := fun t => List.dropWhile_cons_of_neg (by simp [h c])
    have hplain := trimChars_of_no_space h
    rw [trimChars, hfront] at hplain
    rw [trimChars, List.cons_append, hfront, ← List.cons_append, List.reverse_append, List.reverse_singleton,
      List.singleton_append, hspace, hplain]

theorem chars_of_plain (h : isPlainNumeral cs = true) : ∀ c ∈ cs, c.isDigit = true ∨ c = '.' := by
  obtain ⟨hdigits, -⟩ | ⟨whole, frac, rfl, hwhole, hfrac, -⟩ := cases_of_plain h
  · exact fun c hc => .inl ((isDigits_iff.mp hdigits).2 c hc)
  · intro c hc
    rcases List.mem_append.mp hc with hc | hc
    · exact .inl (hwhole c hc)
    · rcases List.mem_cons.mp hc with rfl | hc
      · exact .inr rfl
      · exact .inl (hfrac c hc)

theorem not_space_of_numeral {c : Char} (h : c.isDigit = true ∨ c = '.') : isSpace c = false := by
  rcases h with h | rfl
  · exact isSpace_of_isDigit h
  · decide

/-- A text with a space in it is no number. -/
theorem not_plain_of_space {a u : List Char} (ha : a ≠ []) (hu : u ≠ []) (hchars : ∀ c ∈ a ++ u, isSpace c = false) :
    isPlainNumeral (trimChars (a ++ ' ' :: u)) = false := by
  obtain ⟨c, a, rfl⟩ := List.exists_cons_of_ne_nil ha
  obtain ⟨u, d, rfl⟩ : ∃ u' d, u = u' ++ [d] := ⟨_, _, (List.dropLast_append_getLast hu).symm⟩
  have hshape : c :: a ++ ' ' :: (u ++ [d]) = c :: (a ++ ' ' :: u) ++ [d] := by simp
  have htrim : trimChars (c :: a ++ ' ' :: (u ++ [d])) = c :: a ++ ' ' :: (u ++ [d]) := by
    rw [hshape]
    exact trimChars_eq_self (hchars c (by simp)) (hchars d (by simp))
  rw [htrim]
  cases hplain : isPlainNumeral (c :: a ++ ' ' :: (u ++ [d])) with
  | false => rfl
  | true => exact absurd (not_space_of_numeral (chars_of_plain hplain ' ' (by simp))) (by decide)

/-- A symbol with a letter leaves every number whole. -/
theorem leavesNumeral_of_letter (hc : KeepsNumerals canonicalize)
    (hplain : isPlainNumeral numeral = true) {c : Char} (hmem : c ∈ symbol) (hdigit : c.isDigit = false) (hpoint : c ≠ '.')
    (hspace : c ≠ ' ') : LeavesNumeral canonicalize numeral symbol := by
  apply Or.inl
  intro hearly
  have hchars := chars_of_plain hplain
  rcases (early_symbol hc hchars hearly).1 c hmem with hin | heq
  · rcases hchars c hin with h | h
    · rw [hdigit] at h
      cases h
    · exact hpoint h
  · exact hspace heq

theorem removeFirst_of_not_early (h : ¬OccursEarly canonicalize numeral symbol) :
    removeFirst canonicalize symbol (numeral ++ ' ' :: symbol) = numeral ++ [' '] := by
  have hassoc : numeral ++ ' ' :: symbol = (numeral ++ [' ']) ++ symbol := by simp
  rw [hassoc]
  apply removeFirst_last
  intro i hi hfound
  rw [← hassoc] at hfound
  rw [List.length_append, List.length_singleton] at hi
  exact h ⟨i, by omega, hfound⟩

/-- Where the space is moved, the number is left whole if it was moved before
nothing, or before all of the number. -/
theorem leavesNumeral_iff_of_early {x u v symbol : List Char}
    (hearly : OccursEarly canonicalize (x ++ (u ++ v)) symbol) (hafter : afterLastSpace symbol = u) :
    LeavesNumeral canonicalize (x ++ (u ++ v)) symbol ↔ u = [] ∨ x ++ v = [] := by
  rw [LeavesNumeral, or_iff_right (not_not.mpr hearly), hafter]
  apply or_congr_right
  constructor
  · intro heq
    have hlen := congrArg List.length heq
    simp only [List.length_append] at hlen
    apply List.eq_nil_of_length_eq_zero
    rw [List.length_append]
    omega
  · intro hnil
    obtain ⟨rfl, rfl⟩ := List.append_eq_nil_iff.mp hnil
    simp

theorem sanitizeInput_numeral (hc : KeepsNumerals canonicalize) {numeral : List Char}
    (hplain : isPlainNumeral numeral = true) {text symbol : String}
    (htext : text.toList = numeral ++ ' ' :: symbol.toList) :
    (LeavesNumeral canonicalize numeral symbol.toList → sanitizeInput canonicalize text symbol = numeral) ∧
      (¬LeavesNumeral canonicalize numeral symbol.toList →
        isPlainNumeral (sanitizeInput canonicalize text symbol) = false) := by
  have hchars := chars_of_plain hplain
  have hnospace : ∀ c ∈ numeral, isSpace c = false := fun c hc => not_space_of_numeral (hchars c hc)
  have hkept : ∀ t : List Char, (∀ c ∈ t, c ∈ numeral ∨ c = ' ') →
      t.filter (fun c => !(isCurrencySign c || c = ',')) = t := by
    intro t ht
    apply filter_numeral
    intro c hc
    rcases ht c hc with hc | rfl
    · exact (hchars c hc).imp_right .inl
    · exact .inr (.inr rfl)
  rw [sanitizeInput, htext]
  by_cases hearly : OccursEarly canonicalize numeral symbol.toList
  · obtain ⟨-, x, v, u, rfl, hafter, hremoved⟩ := early_symbol hc hchars hearly
    have hleft : ∀ c ∈ x ++ (v ++ ' ' :: u), c ∈ x ++ (u ++ v) ∨ c = ' ' := by
      intro c hc
      simp only [List.mem_append, List.mem_cons] at hc ⊢
      tauto
    rw [hremoved, hkept _ hleft, leavesNumeral_iff_of_early hearly hafter]
    constructor
    · rintro (rfl | hnil)
      · rw [List.nil_append, ← List.append_assoc]
        exact trimChars_append_space hnospace
      · obtain ⟨rfl, rfl⟩ := List.append_eq_nil_iff.mp hnil
        rw [List.append_nil]
        exact trimChars_space_cons (by simpa using hnospace)
    · intro hnot
      rw [not_or] at hnot
      rw [← List.append_assoc]
      apply not_plain_of_space hnot.2 hnot.1
      intro c hc
      apply hnospace c
      simp only [List.mem_append] at hc ⊢
      tauto
  · rw [removeFirst_of_not_early hearly, hkept _ (by simp), trimChars_append_space hnospace]
    exact ⟨fun _ => rfl, fun h => absurd (.inl hearly) h⟩

end Symbol

/-! ## The round trip -/

/-- The amount that is formatted is parsed again. -/
def RoundTrips (canonicalize : Char → Char) (rounded : RoundedAmount ν) (asset : AmountMetadata ν)
    (rounding : Option RoundingMode) (cache cache' : ScaleCache ν) : Prop :=
  ∃ text cache₁, formatRoundedAmount rounded asset cache = .ok text cache₁ ∧
    ∃ parsed cache₂,
      parsePayrollAmount canonicalize text { asset with decimals := rounded.targetDecimals } { rounding } cache' =
          .ok parsed cache₂ ∧
        parsed.amount = rounded.amount

/-- The number that is written is read as the amount. -/
theorem numeralOf_accepted {n d : Nat} (hpos : 0 < n) {whole frac : List Char}
    (hsplit : splitParts (numeralOf n d) = (whole, frac)) (hparts : WrittenParts n d whole frac)
    (mode : RoundingMode) :
    IsAccepted (numeralOf n d) ∧ computedAmount mode d whole frac = n ∧ computedWhole mode d whole frac = n / 10 ^ d := by
  have hnone : excessDigits d frac = [] := List.drop_of_length_le hparts.length_le
  refine ⟨⟨(numeralOf_parts n d).1, ?_⟩, ?_, ?_⟩
  · apply Bool.eq_false_of_not_eq_true
    intro hzero
    have hkept := (eq_zero_of_isEffectivelyZero hzero d).1
    rw [hsplit] at hkept
    have hsame := hparts.kept
    dsimp only at hkept
    omega
  · rw [computedAmount, hparts.kept, hnone, raised_nil, ite_self]
    rfl
  · rw [computedWhole, hparts.kept, hnone, raised_nil, Nat.add_zero]

/-- The amount comes back if and only if the number is left whole. -/
theorem roundTrips_iff {canonicalize : Char → Char} (hc : KeepsNumerals canonicalize) {rounded : RoundedAmount ν}
    {d : Nat} (hd : IsPrecision rounded.targetDecimals d) (hpos : 0 < rounded.amount)
    (hsafe : rounded.amount / 10 ^ d ≤ maxSafeInteger) (asset : AmountMetadata ν) (rounding : Option RoundingMode)
    (cache cache' : ScaleCache ν) :
    RoundTrips canonicalize rounded asset rounding cache cache' ↔
      LeavesNumeral canonicalize (numeralOf rounded.amount.toNat d) asset.symbol.toList := by
  obtain ⟨n, hn⟩ : ∃ n : Nat, rounded.amount = n := ⟨rounded.amount.toNat, (Int.toNat_of_nonneg hpos.le).symm⟩
  have hsame : rounded.amount.toNat = n := by omega
  obtain ⟨text, cache₁, hformat, htext⟩ := formatRoundedAmount_eq hd hn asset cache
  obtain ⟨hplain, whole, frac, hsplit, hparts⟩ := numeralOf_parts n d
  obtain ⟨haccepted, hamount, hwhole⟩ := numeralOf_accepted (by omega) hsplit hparts (rounding.getD .halfUp)
  obtain ⟨hleft, hbroken⟩ := sanitizeInput_numeral hc hplain htext
  rw [hsame]
  constructor
  · rintro ⟨text', _, hformat', parsed, cache₂, hparse, -⟩
    rw [hformat] at hformat'
    cases hformat'
    by_contra hnot
    obtain ⟨haccepted', -⟩ := of_parse_eq_ok hparse Prod.mk.eta.symm
    have hplain' := haccepted'.1
    rw [hbroken hnot] at hplain'
    cases hplain'
  · intro h
    have hclean := hleft h
    let metadata : AmountMetadata ν := { asset with decimals := rounded.targetDecimals }
    have haccepted' : IsAccepted (sanitizeInput canonicalize text metadata.symbol) := hclean.symm ▸ haccepted
    have hsplit' : splitParts (sanitizeInput canonicalize text metadata.symbol) = (whole, frac) := hclean.symm ▸ hsplit
    obtain ⟨cache₂, hparse, -⟩ := parse_outcome { rounding } haccepted' hd.isDecimals cache' hsplit'
    refine ⟨text, cache₁, hformat, _, cache₂, hparse ⟨?_, ?_⟩, ?_⟩
    · show (computedWhole (rounding.getD .halfUp) d whole frac : Int) ≤ maxSafeInteger
      rw [hwhole]
      rw [hn] at hsafe
      exact_mod_cast hsafe
    · exact ⟨fun _ h => absurd h (Option.not_mem_none _), fun _ h => absurd h (Option.not_mem_none _)⟩
    · show (computedAmount (rounding.getD .halfUp) d whole frac : Int) = rounded.amount
      rw [hamount, hn]

/-- An amount of units, with so many decimals. -/
def amountOf (amount : Int) (d : Nat) : RoundedAmount Int where
  amount := amount
  targetDecimals := .finite d
  wasRounded := false
  originalAmount := amount
  sourceDecimals := .finite d

theorem isPrecision_amountOf (amount : Int) {d : Nat} (h : d ≤ 18) :
    IsPrecision (amountOf amount d).targetDecimals d :=
  ⟨isDecimals_natCast d, h⟩

theorem keepsNumerals_id : KeepsNumerals id := fun _ _ _ h => h

/-- 100.5 XLM -/
theorem lumens_parsed : RoundTrips id (amountOf 1005000000 7) { decimals := .finite 7, symbol := "XLM" } none
    emptyCache emptyCache := by
  have hletter : LeavesNumeral id (numeralOf 1005000000 7) "XLM".toList :=
    leavesNumeral_of_letter (c := 'X') keepsNumerals_id (numeralOf_parts _ _).1 (by decide) (by decide) (by decide)
      (by decide)
  exact (roundTrips_iff keepsNumerals_id (isPrecision_amountOf _ (by decide)) (by decide) (by decide)
    { decimals := .finite 7, symbol := "XLM" } none emptyCache emptyCache).mpr hletter

/-- The symbol "1" is removed from the number 21. -/
theorem digit_symbol_removed :
    ¬RoundTrips id (amountOf 21 0) { decimals := .finite 0, symbol := "1" } none emptyCache emptyCache := by
  rintro ⟨text, _, hformat, parsed, cache₂, hparse, -⟩
  obtain ⟨text', _, hformat', htext⟩ := formatRoundedAmount_eq (isPrecision_amountOf 21 (Nat.zero_le 18)) (n := 21) rfl
    { decimals := .finite 0, symbol := "1" } emptyCache
  rw [hformat'] at hformat
  cases hformat
  obtain ⟨⟨hplain, -⟩, -⟩ := of_parse_eq_ok hparse Prod.mk.eta.symm
  rw [sanitizeInput, htext] at hplain
  revert hplain
  decide +kernel

end ZkPayroll.Assets
