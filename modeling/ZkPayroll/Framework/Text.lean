import Mathlib.Data.List.Sort
import Mathlib.Data.List.Lex

/-!
# JavaScript strings

What programs read from JavaScript's built-in strings, on Lean's `String`:
the UTF-16 code units (`codeUnits`), by which `Array.prototype.sort` compares
(`sortStrings`), white space and `trim`, and case-insensitive search for an
ASCII pattern (`containsInsensitive`). A `String` has no lone surrogates.
-/

namespace ZkPayroll.Framework

/-! ## Code units -/

variable (c : Char)

/-- The UTF-16 code units of a character. -/
def charUnits : List Nat :=
  if c.toNat < 0x10000 then [c.toNat]
  else [0xD800 + (c.toNat - 0x10000) / 0x400, 0xDC00 + (c.toNat - 0x10000) % 0x400]

variable (s : String)

/-- The UTF-16 code units of a string. -/
def codeUnits : List Nat := s.toList.flatMap charUnits

theorem char_not_surrogate : c.toNat < 0xD800 ∨ 0xDFFF < c.toNat ∧ c.toNat < 0x110000 :=
  c.valid

/-- What holds of all code points below a bound holds of the characters there. -/
theorem of_codePoints {P : Char → Prop} {n : Nat} (h : ∀ m < n, P (Char.ofNat m)) {c : Char} (hc : c.toNat < n) : P c := by
  have hchar := h c.toNat hc
  rwa [Char.ofNat_toNat] at hchar

/-- The first code unit tells whether a character has one unit or two, so the
units of a character are never a proper prefix of those of another. -/
theorem charUnits_append {c d : Char} {us vs : List Nat}
    (h : charUnits c ++ us = charUnits d ++ vs) : c = d ∧ us = vs := by
  have hc := char_not_surrogate c
  have hd := char_not_surrogate d
  unfold charUnits at h
  split at h <;> split at h <;>
    simp only [List.cons_append, List.nil_append, List.cons.injEq] at h
  · exact ⟨Char.toNat_inj.mp h.1, h.2⟩
  · omega
  · omega
  · exact ⟨Char.toNat_inj.mp (by omega), h.2.2⟩

theorem charUnits_ne_nil : charUnits c ≠ [] := by
  unfold charUnits; split <;> simp

theorem flatMap_charUnits_injective :
    ∀ {xs ys : List Char}, xs.flatMap charUnits = ys.flatMap charUnits → xs = ys
  | [], [], _ => rfl
  | [], d :: ys, h => by
    simp only [List.flatMap_nil, List.flatMap_cons] at h
    exact absurd (List.append_eq_nil_iff.mp h.symm).1 (charUnits_ne_nil d)
  | c :: xs, [], h => by
    simp only [List.flatMap_nil, List.flatMap_cons] at h
    exact absurd (List.append_eq_nil_iff.mp h).1 (charUnits_ne_nil c)
  | c :: xs, d :: ys, h => by
    obtain ⟨rfl, h'⟩ := charUnits_append (by simpa using h)
    rw [flatMap_charUnits_injective h']

/-- Distinct strings have distinct code units. -/
theorem codeUnits_injective : Function.Injective codeUnits := fun _ _ h =>
  String.toList_injective (flatMap_charUnits_injective h)

/-! ## Sorting -/

/-- The order of `Array.prototype.sort` on strings: lexicographic on code
units. -/
def leUnits (s t : String) : Prop := codeUnits s ≤ codeUnits t

instance : DecidableRel leUnits := fun s t => inferInstanceAs (Decidable (codeUnits s ≤ codeUnits t))

instance : Std.Total leUnits := ⟨fun s t => le_total (codeUnits s) (codeUnits t)⟩

instance : IsTrans String leUnits := ⟨fun _ _ _ => le_trans (α := List Nat)⟩

theorem leUnits_antisymm {s t : String} (h₁ : leUnits s t) (h₂ : leUnits t s) : s = t :=
  codeUnits_injective (le_antisymm (α := List Nat) h₁ h₂)

/-- `xs.sort()`. -/
def sortStrings (xs : List String) : List String := xs.insertionSort leUnits

theorem sortStrings_perm (xs : List String) : (sortStrings xs).Perm xs := List.perm_insertionSort _ _

theorem sortStrings_pairwise (xs : List String) : (sortStrings xs).Pairwise leUnits :=
  List.pairwise_insertionSort _ _

/-- Sorting forgets the order of the list, and nothing else. -/
theorem sortStrings_eq_iff {xs ys : List String} : sortStrings xs = sortStrings ys ↔ xs.Perm ys := by
  constructor
  · intro h
    exact (sortStrings_perm xs).symm.trans (h ▸ sortStrings_perm ys)
  · intro h
    refine List.Perm.eq_of_pairwise (fun _ _ _ _ => leUnits_antisymm) (sortStrings_pairwise xs)
      (sortStrings_pairwise ys) ?_
    exact (sortStrings_perm xs).trans (h.trans (sortStrings_perm ys).symm)

/-! ## White space -/

/-- White space and line terminators, as `trim` and `\s` have them. -/
def isSpace : Bool :=
  (9 ≤ c.toNat && c.toNat ≤ 13) || c.toNat == 0x20 || c.toNat == 0xA0 || c.toNat == 0x1680 ||
    (0x2000 ≤ c.toNat && c.toNat ≤ 0x200A) || c.toNat == 0x2028 || c.toNat == 0x2029 ||
    c.toNat == 0x202F || c.toNat == 0x205F || c.toNat == 0x3000 || c.toNat == 0xFEFF

/-- `trim` on the characters of a string. -/
def trimChars (cs : List Char) : List Char :=
  ((cs.dropWhile isSpace).reverse.dropWhile isSpace).reverse

/-- `s.trim()`. -/
def trim : String := String.ofList (trimChars s.toList)

variable {cs : List Char}

theorem trimChars_of_no_space (h : ∀ c ∈ cs, isSpace c = false) : trimChars cs = cs := by
  have hd : ∀ {l : List Char}, (∀ c ∈ l, isSpace c = false) → l.dropWhile isSpace = l := by
    intro l hl
    cases l with
    | nil => rfl
    | cons c l => exact List.dropWhile_cons_of_neg (by simp [hl c List.mem_cons_self])
  rw [trimChars, hd h, hd (fun c hc => h c (List.mem_reverse.mp hc)), List.reverse_reverse]

theorem trimChars_eq_self {c d : Char} (hc : isSpace c = false) (hd : isSpace d = false) :
    trimChars (c :: cs ++ [d]) = c :: cs ++ [d] := by
  rw [trimChars, List.cons_append, List.dropWhile_cons_of_neg (by simp [hc]), ← List.cons_append,
    List.reverse_append, List.reverse_singleton, List.singleton_append,
    List.dropWhile_cons_of_neg (by simp [hd]), ← List.singleton_append, List.reverse_append,
    List.reverse_reverse, List.reverse_singleton]

/-- What does not begin with white space has nothing to drop in front. -/
theorem dropWhile_isSpace_of_isPrefix : ∀ {l : List Char}, l <+: cs.dropWhile isSpace →
    l.dropWhile isSpace = l
  | [], _ => rfl
  | c :: l, h => by
    obtain ⟨rest, hrest⟩ := h
    have hhead := List.head?_dropWhile_not isSpace cs
    rw [← hrest] at hhead
    exact List.dropWhile_cons_of_neg (Bool.eq_false_iff.mp hhead)

theorem trimChars_trimChars (cs : List Char) : trimChars (trimChars cs) = trimChars cs := by
  have hprefix : trimChars cs <+: cs.dropWhile isSpace := by
    rw [trimChars, ← List.reverse_suffix, List.reverse_reverse]
    exact List.dropWhile_suffix isSpace
  have hback : (trimChars cs).reverse.dropWhile isSpace = (trimChars cs).reverse := by
    rw [trimChars, List.reverse_reverse]
    exact dropWhile_isSpace_of_isPrefix (List.prefix_refl _)
  show (((trimChars cs).dropWhile isSpace).reverse.dropWhile isSpace).reverse = trimChars cs
  rw [dropWhile_isSpace_of_isPrefix hprefix, hback, List.reverse_reverse]

/-- What is trimmed does not end with white space. -/
theorem getLast?_trimChars_not (cs : List Char) : ∀ c ∈ (trimChars cs).getLast?, isSpace c = false := by
  intro c hc
  rw [trimChars, List.getLast?_reverse] at hc
  have hhead := List.head?_dropWhile_not isSpace (cs.dropWhile isSpace).reverse
  rw [Option.mem_def.mp hc] at hhead
  exact hhead

theorem trim_trim : trim (trim s) = trim s := by
  rw [trim, trim, String.toList_ofList, trimChars_trimChars]

/-- Whether a string is empty or only white space. -/
def isBlank : Bool := (trimChars s.toList).isEmpty

/-! ## Patterns -/

/-- The lower-case form of an ASCII letter; other characters are unchanged. -/
def lowerAscii : Char :=
  if 65 ≤ c.toNat ∧ c.toNat ≤ 90 then Char.ofNat (c.toNat + 32) else c

/-- `s.toLowerCase()`, where no other letters have a lower-case form. -/
def asciiLowerCase : String := String.ofList (s.toList.map lowerAscii)

/-- What follows `pat` (in lower case) at the start of `cs`, letters compared
without case. -/
def dropPrefixInsensitive : (pat cs : List Char) → Option (List Char)
  | [], cs => some cs
  | _ :: _, [] => none
  | p :: pat, c :: cs => if lowerAscii c = p then dropPrefixInsensitive pat cs else none

/-- Whether `pat` (in lower case) occurs in `cs`, letters compared without
case: `/pat/i.test(cs)` for an ASCII pattern of literal characters. -/
def containsInsensitive (pat : List Char) : List Char → Bool
  | [] => pat.isEmpty
  | c :: cs => (dropPrefixInsensitive pat (c :: cs)).isSome || containsInsensitive pat cs

/-- Whether `cs` starts with characters of `gap` and then `post`. -/
def followsGap (gap : Char → Bool) (post : List Char) : List Char → Bool
  | [] => post.isEmpty
  | c :: cs => (dropPrefixInsensitive post (c :: cs)).isSome || gap c && followsGap gap post cs

/-- `/pre[gap]*post/i.test(cs)`. -/
def containsAround (pre : List Char) (gap : Char → Bool) (post : List Char) : List Char → Bool
  | [] => pre.isEmpty && post.isEmpty
  | c :: cs =>
    ((dropPrefixInsensitive pre (c :: cs)).any (followsGap gap post)) || containsAround pre gap post cs

/-- A character that `.` matches. -/
def notLineEnd : Bool :=
  !(c == '\n' || c == '\r' || c.toNat == 0x2028 || c.toNat == 0x2029)

/-! ## Addresses -/

/-- `[A-Z2-7]` -/
def isBase32Char : Bool := ('A' ≤ c && c ≤ 'Z') || ('2' ≤ c && c ≤ '7')

/-- `/^[GC][A-Z2-7]{55}$/.test(s)`. -/
def matchesAddress : Bool :=
  match s.toList with
  | [] => false
  | c :: rest => (c == 'G' || c == 'C') && rest.length == 55 && rest.all isBase32Char

end ZkPayroll.Framework
