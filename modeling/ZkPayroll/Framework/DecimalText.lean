import Mathlib.Data.List.Induction
import Mathlib.Data.List.TakeWhile
import Mathlib.Data.Rat.Floor
import ZkPayroll.Framework.BigIntText
import ZkPayroll.Framework.JsonParse

/-!
# Decimal texts and the number of a text

Texts of decimal digits (`isDigits`), with or without a sign
(`isSignedDigits`), and the numbers they stand for (`digitsValue`,
`signedValue`). `BigInt` reads them as these numbers (`bigIntLiteral_signed`),
and `toString` writes one of them for every integer (`bigIntOf_toString`).
Digits of one value and one length are the same (`digits_ext`).

`Number(s)` of a text without spaces around it is a number (`readNumber`) where
the text is the word `Infinity` after a sign or none, digits of another base
after a prefix, or a decimal numeral (`Numeral`): a sign, digits, a point and
more digits, an exponent, of which most may be left out. The number itself is
exact here (`NumberLiteral.value`). An amount of `d` decimals that a numeral
stands for, rounded towards zero, is the quotient of two integers
(`truncate_value`).
-/

namespace ZkPayroll.Framework

/-! ## Digits -/

/-- `/^\d+$/`. -/
def isDigits (cs : List Char) : Bool := !cs.isEmpty && cs.all Char.isDigit

/-- `/^[+-]?\d+$/`. -/
def isSignedDigits : List Char → Bool
  | [] => false
  | c :: cs => if c = '+' ∨ c = '-' then isDigits cs else isDigits (c :: cs)

/-- The number that digits stand for; no digits stand for zero. -/
def digitsValue (cs : List Char) : Nat := Nat.ofDigitChars 10 cs 0

/-- The number that digits after a sign stand for. -/
def signedValue : List Char → Int
  | '+' :: cs => digitsValue cs
  | '-' :: cs => -(digitsValue cs : Int)
  | cs => digitsValue cs

variable {cs : List Char}

theorem isDigits_iff : isDigits cs = true ↔ cs ≠ [] ∧ ∀ c ∈ cs, c.isDigit = true := by
  simp [isDigits]

theorem digitsValue_append (xs ys : List Char) :
    digitsValue (xs ++ ys) = 10 ^ ys.length * digitsValue xs + digitsValue ys := by
  rw [digitsValue, Nat.ofDigitChars_append, Nat.ofDigitChars_eq_ofDigitChars_zero]
  rfl

@[simp] theorem digitsValue_nil : digitsValue [] = 0 := rfl

theorem digitsValue_zeros (k : Nat) : digitsValue (List.replicate k '0') = 0 := by
  rw [digitsValue, Nat.ofDigitChars_replicate_zero, Nat.mul_zero]

theorem digitsValue_toDigits (n : Nat) : digitsValue (Nat.toDigits 10 n) = n := Nat.ofDigitChars_ten_toDigits

variable {c : Char}

theorem isDigit_iff : c.isDigit = true ↔ 48 ≤ c.toNat ∧ c.toNat ≤ 57 := by
  refine ⟨isDigit_toNat, fun h => ?_⟩
  rw [Char.isDigit, Bool.and_eq_true, decide_eq_true_iff, decide_eq_true_iff]
  exact ⟨UInt32.le_iff_toNat_le.mpr h.1, UInt32.le_iff_toNat_le.mpr h.2⟩

theorem digitsValue_lt (h : ∀ c ∈ cs, c.isDigit = true) : digitsValue cs < 10 ^ cs.length := by
  induction cs using List.reverseRecOn with
  | nil => decide
  | append_singleton cs c ih =>
    have hc := isDigit_toNat (h c (by simp))
    have hcs := ih fun d hd => h d (by simp [hd])
    have hdigit : digitsValue [c] = c.toNat - 48 := by
      rw [digitsValue, Nat.ofDigitChars_cons, Nat.ofDigitChars_nil]
      show 10 * 0 + (c.toNat - 48) = c.toNat - 48
      omega
    rw [digitsValue_append, hdigit, List.length_append, pow_add]
    simp only [List.length_singleton, pow_one]
    omega

/-- Digits of one value and one length are the same. -/
theorem digits_ext : ∀ {xs ys : List Char}, (∀ c ∈ xs, c.isDigit = true) → (∀ c ∈ ys, c.isDigit = true) →
    xs.length = ys.length → digitsValue xs = digitsValue ys → xs = ys := by
  intro xs
  induction xs using List.reverseRecOn with
  | nil => exact fun _ _ hlen _ => (List.length_eq_zero_iff.mp hlen.symm).symm
  | append_singleton xs x ih =>
    intro ys hx hy hlen hvalue
    obtain ⟨zs, y, rfl⟩ : ∃ zs y, ys = zs ++ [y] := by
      have hne : ys ≠ [] := by
        rintro rfl
        simp at hlen
      exact ⟨_, _, (List.dropLast_append_getLast hne).symm⟩
    have hone : ∀ c : Char, digitsValue [c] = c.toNat - 48 := by
      intro c
      rw [digitsValue, Nat.ofDigitChars_cons, Nat.ofDigitChars_nil]
      show 10 * 0 + (c.toNat - 48) = c.toNat - 48
      omega
    rw [digitsValue_append, digitsValue_append, hone, hone, List.length_singleton, List.length_singleton] at hvalue
    have hxd := isDigit_toNat (hx x (by simp))
    have hyd := isDigit_toNat (hy y (by simp))
    have hlast : x = y := Char.toNat_inj.mp (by omega)
    have hinit : xs = zs := ih (fun c hc => hx c (by simp [hc])) (fun c hc => hy c (by simp [hc]))
      (by simpa using hlen) (by omega)
    rw [hlast, hinit]

/-! ## Reading -/

theorem digitValue_of_isDigit (h : c.isDigit = true) : digitValue 10 c = some (c.toNat - 48) := by
  have hc := isDigit_toNat h
  rw [digitValue, hexValue, if_pos hc, Option.filter_some, if_pos (by simp; omega)]

theorem digitValue_of_not_isDigit (h : c.isDigit = false) : digitValue 10 c = none := by
  have hc : ¬(48 ≤ c.toNat ∧ c.toNat ≤ 57) := by
    rw [← isDigit_iff, h]
    exact Bool.false_ne_true
  unfold digitValue hexValue
  rw [if_neg hc]
  split
  · simp only [Option.filter_some]
    rw [if_neg (by simp; omega)]
  · split
    · simp only [Option.filter_some]
      rw [if_neg (by simp; omega)]
    · rfl

theorem continueNumber_digits : ∀ {cs : List Char} (n : Nat), (∀ c ∈ cs, c.isDigit = true) →
    continueNumber 10 n cs = some (Nat.ofDigitChars 10 cs n)
  | [], _, _ => rfl
  | c :: cs, n, h => by
    rw [continueNumber_cons (digitValue_of_isDigit (h c List.mem_cons_self)),
      continueNumber_digits _ fun d hd => h d (List.mem_cons_of_mem _ hd), Nat.ofDigitChars_cons]
    rfl

theorem continueNumber_eq_none : ∀ {cs : List Char} (n : Nat), (∃ c ∈ cs, c.isDigit = false) →
    continueNumber 10 n cs = none
  | [], _, h => by simp at h
  | c :: cs, n, h => by
    rw [continueNumber]
    cases hc : c.isDigit with
    | false => rw [digitValue_of_not_isDigit hc]
    | true =>
      rw [digitValue_of_isDigit hc]
      refine continueNumber_eq_none _ ?_
      obtain ⟨d, hd, hfalse⟩ := h
      rcases List.mem_cons.mp hd with rfl | hd
      · rw [hc] at hfalse
        cases hfalse
      · exact ⟨d, hd, hfalse⟩

/-- Decimal digits are read as their value, and nothing else is. -/
theorem readDigits_ten (cs : List Char) : readDigits 10 cs = if isDigits cs then some (digitsValue cs) else none := by
  unfold readDigits
  cases cs with
  | nil => rfl
  | cons c cs =>
    rw [List.isEmpty_cons, if_neg (by decide)]
    by_cases h : isDigits (c :: cs) = true
    · rw [if_pos h, continueNumber_digits 0 (isDigits_iff.mp h).2, digitsValue]
    · rw [if_neg h, continueNumber_eq_none 0]
      have hnot : ¬∀ d ∈ c :: cs, d.isDigit = true := fun hall => h (isDigits_iff.mpr ⟨List.cons_ne_nil _ _, hall⟩)
      simpa only [not_forall, exists_prop, Bool.not_eq_true] using hnot

theorem prefixBase_of_isDigit (h : c.isDigit = true) : prefixBase c = none := by
  have hc := isDigit_toNat h
  have hne : ∀ d : Char, 57 < d.toNat → c ≠ d := by
    rintro d hd rfl
    omega
  unfold prefixBase
  rw [if_neg (not_or.mpr ⟨hne _ (by decide), hne _ (by decide)⟩),
    if_neg (not_or.mpr ⟨hne _ (by decide), hne _ (by decide)⟩),
    if_neg (not_or.mpr ⟨hne _ (by decide), hne _ (by decide)⟩)]

theorem ne_sign_of_isDigit (h : c.isDigit = true) : c ≠ '+' ∧ c ≠ '-' := by
  constructor
  · rintro rfl
    revert h
    decide
  · rintro rfl
    revert h
    decide

theorem readSigned_of_isSignedDigits (h : isSignedDigits cs = true) :
    readSigned cs = some (signedValue cs) := by
  cases cs with
  | nil => cases h
  | cons c cs =>
    rw [isSignedDigits] at h
    rw [readSigned]
    split at h
    · rename_i hsign
      rcases hsign with rfl | rfl
      · rw [if_pos rfl, readDigits_ten, if_pos h]
        rfl
      · rw [if_neg (by decide), if_pos rfl, readDigits_ten, if_pos h]
        rfl
    · rename_i hsign
      rw [if_neg (not_or.mp hsign).1, if_neg (not_or.mp hsign).2, readDigits_ten, if_pos h]
      rw [signedValue.eq_def]
      split
      · rename_i heq
        exact absurd (.inl (List.cons.inj heq).1) hsign
      · rename_i heq
        exact absurd (.inr (List.cons.inj heq).1) hsign
      · rfl

/-- Digits after a sign are read as a number. -/
theorem bigIntLiteral_signed (h : isSignedDigits cs = true) :
    bigIntLiteral cs = some (signedValue cs) := by
  have hread := readSigned_of_isSignedDigits h
  match cs, h with
  | [c], _ => exact hread
  | c :: d :: cs, h =>
    have hd : d.isDigit = true := by
      rw [isSignedDigits] at h
      split at h
      · exact (isDigits_iff.mp h).2 d (by simp)
      · exact (isDigits_iff.mp h).2 d (by simp)
    rw [bigIntLiteral, prefixBase_of_isDigit hd]
    exact hread

theorem readSigned_eq (cs : List Char) :
    readSigned cs = if isSignedDigits cs then some (signedValue cs) else none := by
  by_cases h : isSignedDigits cs = true
  · rw [if_pos h, readSigned_of_isSignedDigits h]
  · rw [if_neg h]
    cases cs with
    | nil => rfl
    | cons c cs =>
      rw [isSignedDigits] at h
      rw [readSigned]
      by_cases hsign : c = '+' ∨ c = '-'
      · rw [if_pos hsign] at h
        rw [readDigits_ten, if_neg h]
        rcases hsign with rfl | rfl
        · rfl
        · rfl
      · rw [if_neg hsign] at h
        rw [if_neg (not_or.mp hsign).1, if_neg (not_or.mp hsign).2, readDigits_ten, if_neg h]
        rfl

/-- Without the letter of a base, what is read is digits after a sign, or
nothing at all. -/
theorem bigIntLiteral_of_no_prefix (h : ∀ c ∈ cs, prefixBase c = none) :
    bigIntLiteral cs = if cs = [] then some 0 else if isSignedDigits cs then some (signedValue cs) else none := by
  match cs, h with
  | [], _ => rfl
  | [c], _ => exact readSigned_eq [c]
  | c :: d :: cs, h =>
    rw [bigIntLiteral, h d (by simp)]
    exact readSigned_eq (c :: d :: cs)

theorem isSignedDigits_of_isDigits (h : isDigits cs = true) :
    isSignedDigits cs = true ∧ signedValue cs = digitsValue cs := by
  obtain ⟨hne, hall⟩ := isDigits_iff.mp h
  cases cs with
  | nil => exact absurd rfl hne
  | cons c cs =>
    obtain ⟨hplus, hminus⟩ := ne_sign_of_isDigit (hall c List.mem_cons_self)
    refine ⟨?_, ?_⟩
    · rw [isSignedDigits, if_neg (not_or.mpr ⟨hplus, hminus⟩), h]
    · rw [signedValue.eq_def]
      split
      · rename_i heq
        exact absurd (List.cons.inj heq).1 hplus
      · rename_i heq
        exact absurd (List.cons.inj heq).1 hminus
      · rfl

/-! ## White space -/

theorem isSpace_of_isDigit (h : c.isDigit = true) : isSpace c = false := by
  have hc := isDigit_toNat h
  simp only [isSpace, Bool.or_eq_false_iff, Bool.and_eq_false_iff, decide_eq_false_iff_not, beq_eq_false_iff_ne]
  omega

theorem trimChars_of_isDigits (h : isDigits cs = true) : trimChars cs = cs :=
  trimChars_of_no_space fun c hc => isSpace_of_isDigit ((isDigits_iff.mp h).2 c hc)

theorem trimChars_of_isSignedDigits (h : isSignedDigits cs = true) : trimChars cs = cs := by
  refine trimChars_of_no_space fun c hc => ?_
  cases cs with
  | nil => cases h
  | cons d cs =>
    rw [isSignedDigits] at h
    split at h
    · rename_i hsign
      rcases List.mem_cons.mp hc with rfl | hc
      · rcases hsign with rfl | rfl <;> decide
      · exact isSpace_of_isDigit ((isDigits_iff.mp h).2 c hc)
    · exact isSpace_of_isDigit ((isDigits_iff.mp h).2 c hc)

/-! ## Written integers -/

theorem isDigits_toDigits (n : Nat) : isDigits (Nat.toDigits 10 n) = true :=
  isDigits_iff.mpr ⟨Nat.toDigits_ne_nil, toDigits_isDigit⟩

theorem toList_toString (n : Int) : (toString n).toList = integerText n := by
  cases n with
  | ofNat n => exact Nat.toList_repr
  | negSucc n =>
    show ("-" ++ toString (n + 1)).toList = _
    rw [String.toList_append]
    exact congrArg ('-' :: ·) Nat.toList_repr

theorem isSignedDigits_integerText (n : Int) :
    isSignedDigits (integerText n) = true ∧ signedValue (integerText n) = n := by
  cases n with
  | ofNat n =>
    obtain ⟨hsigned, hvalue⟩ := isSignedDigits_of_isDigits (isDigits_toDigits n)
    exact ⟨hsigned, hvalue.trans (congrArg Int.ofNat (digitsValue_toDigits n))⟩
  | negSucc n =>
    refine ⟨?_, ?_⟩
    · rw [integerText, isSignedDigits, if_pos (.inr rfl)]
      exact isDigits_toDigits _
    · rw [integerText, signedValue, digitsValue_toDigits]
      rfl

/-- `BigInt(n.toString())` is `n`. -/
theorem bigIntOf_toString (n : Int) : bigIntOf (toString n) = some n := by
  obtain ⟨hsigned, hvalue⟩ := isSignedDigits_integerText n
  rw [bigIntOf, toList_toString, trimChars_of_isSignedDigits hsigned, bigIntLiteral_signed hsigned, hvalue]

/-! ## Numerals -/

/-- The parts of a decimal numeral; the exponent includes its letter. -/
structure Numeral where
  sign : Option Char := none
  whole : List Char
  /-- What follows the point, if there is one. -/
  fraction : Option (List Char) := none
  exponent : List Char := []
  deriving DecidableEq

namespace Numeral

/-- The fraction with its point. -/
def point (n : Numeral) : List Char :=
  match n.fraction with
  | none => []
  | some f => '.' :: f

def text (n : Numeral) : List Char := n.sign.toList ++ n.whole ++ n.point ++ n.exponent

/-- `/^([eE][+-]?\d+)?$/`. -/
def isExponent : List Char → Bool
  | [] => true
  | c :: cs => (c = 'e' || c = 'E') && isSignedDigits cs

/-- The parts are those of a numeral. -/
structure Valid (n : Numeral) : Prop where
  sign : ∀ c ∈ n.sign, c = '+' ∨ c = '-'
  whole : ∀ c ∈ n.whole, c.isDigit = true
  fraction : ∀ c ∈ n.fraction.getD [], c.isDigit = true
  some_digit : n.whole ≠ [] ∨ n.fraction.getD [] ≠ []
  exponent : isExponent n.exponent = true

def signOf : List Char → Option Char
  | [] => none
  | c :: _ => if c = '+' ∨ c = '-' then some c else none

/-- The parts of a text that follows a sign. -/
def ofUnsigned (sign : Option Char) (cs : List Char) : Numeral :=
  match cs.dropWhile Char.isDigit with
  | '.' :: rest =>
    { sign := sign
      whole := cs.takeWhile Char.isDigit
      fraction := some (rest.takeWhile Char.isDigit)
      exponent := rest.dropWhile Char.isDigit }
  | rest => { sign := sign, whole := cs.takeWhile Char.isDigit, exponent := rest }

/-- The parts of a text, where it is a numeral: a sign, as many digits as there
are, and so on. -/
def ofText (cs : List Char) : Numeral := ofUnsigned (signOf cs) (cs.drop (signOf cs).toList.length)

/-- Whether the parts of a text are those of a numeral. -/
def isNumeral (n : Numeral) : Bool := (n.whole != [] || n.fraction.getD [] != []) && isExponent n.exponent

theorem signOf_append (cs : List Char) : (signOf cs).toList ++ cs.drop (signOf cs).toList.length = cs := by
  cases cs with
  | nil => rfl
  | cons c cs =>
    rw [signOf]
    split <;> rfl

theorem text_ofUnsigned (sign : Option Char) (cs : List Char) : (ofUnsigned sign cs).text = sign.toList ++ cs := by
  have hwhole : cs.takeWhile Char.isDigit ++ cs.dropWhile Char.isDigit = cs := List.takeWhile_append_dropWhile
  unfold ofUnsigned
  split
  · rename_i rest hrest
    rw [hrest] at hwhole
    simp only [text, point, List.append_assoc, List.cons_append]
    rw [List.takeWhile_append_dropWhile, hwhole]
  · simp only [text, point, List.append_assoc, List.nil_append]
    rw [hwhole]

theorem text_ofText (cs : List Char) : (ofText cs).text = cs := by
  rw [ofText, text_ofUnsigned, signOf_append]

/-- A text is read as a numeral where its parts are those of one. -/
theorem valid_ofText {cs : List Char} (h : (ofText cs).isNumeral = true) : (ofText cs).Valid := by
  have hparts : ∀ (sign : Option Char) (cs : List Char), (ofUnsigned sign cs).sign = sign ∧
      (∀ c ∈ (ofUnsigned sign cs).whole, c.isDigit = true) ∧
      ∀ c ∈ (ofUnsigned sign cs).fraction.getD [], c.isDigit = true := by
    intro sign cs
    unfold ofUnsigned
    split
    · exact ⟨rfl, fun c hc => List.mem_takeWhile_imp hc, fun c hc => List.mem_takeWhile_imp hc⟩
    · exact ⟨rfl, fun c hc => List.mem_takeWhile_imp hc, nofun⟩
  have hsign : ∀ c ∈ signOf cs, c = '+' ∨ c = '-' := by
    intro c hc
    cases cs with
    | nil => cases hc
    | cons d cs =>
      rw [signOf] at hc
      split at hc
      · rename_i hd
        rwa [← Option.mem_some.mp hc]
      · cases hc
  rw [isNumeral, Bool.and_eq_true, Bool.or_eq_true, bne_iff_ne, bne_iff_ne] at h
  obtain ⟨hs, hwhole, hfraction⟩ := hparts (signOf cs) (cs.drop (signOf cs).toList.length)
  exact ⟨hs.symm ▸ hsign, hwhole, hfraction, h.1, h.2⟩

/-- There is a minus sign. -/
def negative (n : Numeral) : Bool := n.sign = some '-'

/-- The power of ten that the exponent names. -/
def exponentValue (n : Numeral) : Int := signedValue (n.exponent.drop 1)

/-- The digits after the point. -/
def fractionDigits (n : Numeral) : List Char := n.fraction.getD []

/-- All digits, as an integer. -/
def digits (n : Numeral) : Nat := digitsValue (n.whole ++ n.fractionDigits)

/-- The numeral without its sign, in units of which `10 ^ d` are one, rounded
down. -/
def units (n : Numeral) (d : Nat) : Nat :=
  n.digits * 10 ^ (d + n.exponentValue.toNat) / 10 ^ (n.fractionDigits.length + (-n.exponentValue).toNat)

/-- The number that the numeral stands for. -/
def value (n : Numeral) : ℚ :=
  (if n.negative then -1 else 1) * (n.digits / 10 ^ n.fractionDigits.length) * (10 : ℚ) ^ n.exponentValue

end Numeral

/-! ## Numbers -/

/-- A text that `Number` reads. -/
inductive NumberLiteral where
  | infinity (negative : Bool)
  /-- Digits of another base than ten. -/
  | radix (n : Nat)
  | decimal (n : Numeral)

/-- The number of digits after the prefix of their base. -/
def readRadix : List Char → Option Nat
  | '0' :: c :: cs => (prefixBase c).bind fun base => readDigits base cs
  | _ => none

/-- The number of a text without spaces around it, if `Number` makes it one. -/
def readNumber (cs : List Char) : Option NumberLiteral :=
  match readRadix cs with
  | some n => some (.radix n)
  | none =>
    if cs = "Infinity".toList ∨ cs = "+Infinity".toList then some (.infinity false)
    else if cs = "-Infinity".toList then some (.infinity true)
    else if (Numeral.ofText cs).isNumeral then some (.decimal (Numeral.ofText cs))
    else none

/-- The number, if it is finite. -/
def NumberLiteral.value : NumberLiteral → Option ℚ
  | .infinity _ => none
  | .radix n => some n
  | .decimal n => some n.value

example : (readNumber "-1.5e3".toList).bind (·.value) = some (-1500) := by decide +kernel

/-! ## Rounding towards zero -/

/-- A number without its fraction. -/
def truncate (q : ℚ) : Int := if q < 0 then -⌊-q⌋ else ⌊q⌋

theorem truncate_intCast (n : Int) : truncate n = n := by
  unfold truncate
  split
  · rw [← Int.cast_neg, Int.floor_intCast, neg_neg]
  · exact Int.floor_intCast n

/-- The quotient of two natural numbers, of either sign, loses its fraction. -/
theorem truncate_natCast_div (m k : Nat) :
    truncate ((m : ℚ) / k) = (m / k : Nat) ∧ truncate (-((m : ℚ) / k)) = -((m / k : Nat) : Int) := by
  have hfloor : ⌊(m : ℚ) / k⌋ = ((m / k : Nat) : Int) := by
    rw [Rat.floor_natCast_div_natCast]
    rfl
  have hnonneg : (0 : ℚ) ≤ (m : ℚ) / k := by positivity
  constructor
  · rw [truncate, if_neg (not_lt.mpr hnonneg), hfloor]
  · unfold truncate
    split
    · rw [neg_neg, hfloor]
    · rename_i hzero
      have hzero : (m : ℚ) / k = 0 := le_antisymm (by linarith) hnonneg
      rw [hzero, Int.floor_zero] at hfloor
      rw [hzero, neg_zero, Int.floor_zero, ← hfloor]
      rfl

theorem Numeral.truncate_value (n : Numeral) (d : Nat) :
    truncate (n.value * 10 ^ d) = if n.negative then -(n.units d : Int) else n.units d := by
  have hpower : (10 : ℚ) ^ n.exponentValue = 10 ^ n.exponentValue.toNat / 10 ^ (-n.exponentValue).toNat := by
    rcases Int.le_total 0 n.exponentValue with h | h
    · obtain ⟨e, he⟩ := Int.eq_ofNat_of_zero_le h
      rw [he]
      simp
    · obtain ⟨e, he⟩ := Int.eq_ofNat_of_zero_le (Int.neg_nonneg_of_nonpos h)
      have he' : n.exponentValue = -(e : Int) := by omega
      rw [he']
      simp
  have hquotient : (n.digits / 10 ^ n.fractionDigits.length : ℚ) * (10 : ℚ) ^ n.exponentValue * 10 ^ d =
      ((n.digits * 10 ^ (d + n.exponentValue.toNat) : Nat) : ℚ) /
        ((10 ^ (n.fractionDigits.length + (-n.exponentValue).toNat) : Nat) : ℚ) := by
    rw [hpower]
    push_cast
    rw [pow_add, pow_add]
    field_simp
  obtain ⟨hplus, hminus⟩ := truncate_natCast_div (n.digits * 10 ^ (d + n.exponentValue.toNat))
    (10 ^ (n.fractionDigits.length + (-n.exponentValue).toNat))
  unfold value
  by_cases hneg : n.negative = true
  · rw [if_pos hneg, if_pos hneg]
    show _ = -((_ / _ : Nat) : Int)
    rw [← hminus, ← hquotient]
    congr 1
    ring
  · rw [if_neg hneg, if_neg hneg, one_mul, hquotient]
    exact hplus

end ZkPayroll.Framework
