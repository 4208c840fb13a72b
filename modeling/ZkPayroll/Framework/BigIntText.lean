import ZkPayroll.Framework.Encoding
import ZkPayroll.Framework.Text

/-!
# `BigInt` of a text

`bigIntOf s` is `BigInt(s)`, or `none` where that throws: white space at the
ends does not count, no digits at all are `0`, a decimal number can have a
sign, and a hexadecimal, octal or binary one has a prefix and no sign.
-/

namespace ZkPayroll.Framework

/-! ## Reading -/

/-- The value of a digit of a base up to 16. -/
def digitValue (base : Nat) (c : Char) : Option Nat := (hexValue c).filter (· < base)

/-- The number that `n` followed by digits stands for. -/
def continueNumber (base n : Nat) : List Char → Option Nat
  | [] => some n
  | c :: cs =>
    match digitValue base c with
    | some d => continueNumber base (base * n + d) cs
    | none => none

/-- The number that one or more digits stand for. -/
def readDigits (base : Nat) (cs : List Char) : Option Nat := if cs.isEmpty then none else continueNumber base 0 cs

/-- The base that the letter after a zero announces. -/
def prefixBase (c : Char) : Option Nat :=
  if c = 'x' ∨ c = 'X' then some 16
  else if c = 'o' ∨ c = 'O' then some 8
  else if c = 'b' ∨ c = 'B' then some 2
  else none

/-- A decimal number with or without a sign. -/
def readSigned : List Char → Option Int
  | [] => none
  | c :: cs =>
    if c = '+' then (readDigits 10 cs).map Int.ofNat
    else if c = '-' then (readDigits 10 cs).map fun n => -Int.ofNat n
    else (readDigits 10 (c :: cs)).map Int.ofNat

def bigIntLiteral : List Char → Option Int
  | [] => some 0
  | [c] => readSigned [c]
  | c :: d :: cs =>
    match prefixBase d with
    | some base => if c = '0' then (readDigits base cs).map Int.ofNat else none
    | none => readSigned (c :: d :: cs)

/-- `BigInt(s)`. -/
def bigIntOf (s : String) : Option Int := bigIntLiteral (trimChars s.toList)

example : bigIntOf " 0x1F\n" = some 31 ∧ bigIntOf "-12" = some (-12) ∧ bigIntOf "1.5" = none := by decide +kernel

/-! ## Texts that are written -/

theorem continueNumber_cons {base n d : Nat} {c : Char} (h : digitValue base c = some d) (cs : List Char) :
    continueNumber base n (c :: cs) = continueNumber base (base * n + d) cs := by
  rw [continueNumber, h]

theorem continueNumber_append {base : Nat} : ∀ (n : Nat) (cs ds : List Char),
    continueNumber base n (cs ++ ds) = (continueNumber base n cs).bind fun m => continueNumber base m ds
  | _, [], _ => rfl
  | n, c :: cs, ds => by
    rw [List.cons_append, continueNumber, continueNumber]
    cases digitValue base c with
    | none => rfl
    | some d => exact continueNumber_append (base * n + d) cs ds

theorem continueNumber_zeros {base : Nat} (hbase : 1 < base) (k : Nat) :
    continueNumber base 0 (List.replicate k '0') = some 0 := by
  have hzero : digitValue base '0' = some 0 := by
    rw [digitValue, show hexValue '0' = some 0 from rfl, Option.filter_some, if_pos (by simp; omega)]
  induction k with
  | zero => rfl
  | succ k ih => rw [List.replicate_succ, continueNumber_cons hzero, Nat.mul_zero, ih]

theorem hexValue_digitChar : ∀ d < 16, hexValue (Nat.digitChar d) = some d := by decide

/-- The digits that `toString` writes are read back. -/
theorem continueNumber_toDigits {base : Nat} (h₁ : 1 < base) (h₂ : base ≤ 16) (n : Nat) :
    continueNumber base 0 (Nat.toDigits base n) = some n := by
  have hdigit : ∀ d < base, digitValue base (Nat.digitChar d) = some d := by
    intro d hd
    rw [digitValue, hexValue_digitChar d (by omega), Option.filter_some, if_pos (decide_eq_true hd)]
  induction n using Nat.strongRecOn with
  | ind n ih =>
    rw [Nat.toDigits_eq_if h₁]
    split
    · rename_i hn
      rw [continueNumber_cons (hdigit n hn), Nat.mul_zero, Nat.zero_add, continueNumber]
    · rename_i hn
      have hless : n / base < n := Nat.div_lt_self (by omega) h₁
      rw [continueNumber_append, ih _ hless, Option.bind_some,
        continueNumber_cons (hdigit _ (Nat.mod_lt n (by omega))), Nat.div_add_mod, continueNumber]

/-! ## Texts that are read -/

/-- A character of an integer literal. -/
def isLiteralChar (c : Char) : Bool := (hexValue c).isSome || (prefixBase c).isSome || c == '+' || c == '-'

theorem isLiteralChar_of_digitValue {base d : Nat} {c : Char} (h : digitValue base c = some d) :
    isLiteralChar c = true := by
  obtain ⟨hc, -⟩ := Option.filter_eq_some_iff.mp h
  simp [isLiteralChar, hc]

theorem chars_of_continueNumber {base n m : Nat} : ∀ {cs : List Char}, continueNumber base n cs = some m →
    ∀ c ∈ cs, isLiteralChar c = true
  | [], _ => nofun
  | c :: cs, h => by
    rw [continueNumber] at h
    split at h
    · rename_i d hd
      exact List.forall_mem_cons.mpr ⟨isLiteralChar_of_digitValue hd, chars_of_continueNumber h⟩
    · cases h

theorem chars_of_readDigits {base n : Nat} {cs : List Char} (h : readDigits base cs = some n) :
    ∀ c ∈ cs, isLiteralChar c = true := by
  unfold readDigits at h
  split at h
  · cases h
  · exact chars_of_continueNumber h

theorem chars_of_readSigned : ∀ {cs : List Char} {n : Int}, readSigned cs = some n → ∀ c ∈ cs, isLiteralChar c = true
  | [], _, h => by cases h
  | c :: cs, n, h => by
    rw [readSigned] at h
    split at h
    · rename_i hc
      obtain ⟨m, hm, -⟩ := Option.map_eq_some_iff.mp h
      exact List.forall_mem_cons.mpr ⟨by subst hc; rfl, chars_of_readDigits hm⟩
    · split at h
      · rename_i hc
        obtain ⟨m, hm, -⟩ := Option.map_eq_some_iff.mp h
        exact List.forall_mem_cons.mpr ⟨by subst hc; rfl, chars_of_readDigits hm⟩
      · obtain ⟨m, hm, -⟩ := Option.map_eq_some_iff.mp h
        exact chars_of_readDigits hm

theorem chars_of_bigIntLiteral : ∀ {cs : List Char} {n : Int}, bigIntLiteral cs = some n →
    ∀ c ∈ cs, isLiteralChar c = true
  | [], _, _ => nofun
  | [c], n, h => chars_of_readSigned h
  | c :: d :: cs, n, h => by
    rw [bigIntLiteral] at h
    split at h
    · rename_i base hbase
      split at h
      · rename_i hc
        obtain ⟨m, hm, -⟩ := Option.map_eq_some_iff.mp h
        have hd : isLiteralChar d = true := by simp [isLiteralChar, hbase]
        exact List.forall_mem_cons.mpr
          ⟨by subst hc; rfl, List.forall_mem_cons.mpr ⟨hd, chars_of_readDigits hm⟩⟩
      · cases h
    · exact chars_of_readSigned h

theorem mem_dropWhile_or {α : Type} {p : α → Bool} {a : α} : ∀ {xs : List α}, a ∈ xs →
    p a = true ∨ a ∈ xs.dropWhile p
  | x :: xs, h => by
    by_cases hx : p x = true
    · rw [List.dropWhile_cons_of_pos hx]
      rcases List.mem_cons.mp h with rfl | h
      · exact .inl hx
      · exact mem_dropWhile_or h
    · rw [List.dropWhile_cons_of_neg hx]
      exact .inr h

/-- Trimming takes nothing but white space away. -/
theorem isSpace_or_mem_trimChars {c : Char} {cs : List Char} (h : c ∈ cs) : isSpace c = true ∨ c ∈ trimChars cs := by
  rcases mem_dropWhile_or (p := isSpace) h with hc | hc
  · exact .inl hc
  · refine (mem_dropWhile_or (p := isSpace) (List.mem_reverse.mpr hc)).imp_right fun hc => ?_
    exact List.mem_reverse.mpr hc

/-- A text that is read has no other characters than those of a literal and
white space. -/
theorem chars_of_bigIntOf {s : String} {n : Int} (h : bigIntOf s = some n) :
    ∀ c ∈ s.toList, isSpace c = true ∨ isLiteralChar c = true := fun c hc =>
  (isSpace_or_mem_trimChars hc).imp_right fun hc => chars_of_bigIntLiteral h c hc

/-- A text of white space is read as zero. -/
theorem bigIntOf_of_isBlank {s : String} (h : isBlank s = true) : bigIntOf s = some 0 := by
  rw [bigIntOf, List.isEmpty_iff.mp h]
  rfl

end ZkPayroll.Framework
