import Mathlib.Algebra.Order.Ring.Int
import Mathlib.Algebra.Order.Ring.Nat
import Mathlib.Data.Nat.Cast.Order.Ring
import ZkPayroll.Framework.EditDistance
import ZkPayroll.Framework.JsArithmetic
import ZkPayroll.Framework.Text

/-!
# Fuzzy matching

`import/fuzzyMatch.ts`. A value that is no text is `none`, and `toLowerCase` is
the one of the run time.

The table of `levenshteinDistance` has the edit distances of the prefixes
(`levenshteinRow_eq`, `levenshteinRows_eq`), so its last cell is the edit
distance (`levenshteinDistance_eq`). With it, `namesAreSimilar` is what its
documentation says, also where it does not look for containment
(`namesAreSimilar_iff`).
-/

namespace ZkPayroll.Import

open Framework

variable {ν : Type}

/-! ## Identifiers -/

/-- `s.replace(/\s+/g, " ")`, after a space or not. -/
def collapse (afterSpace : Bool) : List Char → List Char
  | [] => []
  | c :: cs =>
    if isSpace c then (if afterSpace then collapse true cs else ' ' :: collapse true cs)
    else c :: collapse false cs

def normalizeIdentifier (toLowerCase : String → String) : Option String → Option String
  | none => none
  | some value =>
    let normalized := toLowerCase (String.ofList (collapse false (trimChars value.toList)))
    if normalized = "" then none else some normalized

/-! ## Edit distance -/

/-- The row of the table for `x`, from the element after `left`; the row before
goes on with `previous` after `diagonal`. -/
def levenshteinRow (x left diagonal : Nat) : (b previous : List Nat) → List Nat
  | y :: b, above :: previous =>
    let substitutionCost := if x = y then 0 else 1
    let cell := min (min (above + 1) (left + 1)) (diagonal + substitutionCost)
    cell :: levenshteinRow x cell above b previous
  | _, _ => []

/-- The last row of the table; `i` elements have a row already. -/
def levenshteinRows (b : List Nat) : (i : Nat) → (previous a : List Nat) → List Nat
  | _, previous, [] => previous
  | i, previous, x :: a =>
    levenshteinRows b (i + 1) ((i + 1) :: levenshteinRow x (i + 1) (previous.headD 0) b previous.tail) a

/-- `levenshteinDistance` on the code units of two strings. -/
def levenshteinDistance (a b : List Nat) : Nat :=
  if a = b then 0
  else if a = [] then b.length
  else if b = [] then a.length
  else (levenshteinRows b 0 (List.range (b.length + 1)) a).getD b.length 0

/-- `a.includes(b)` on code units. -/
def includes : (a b : List Nat) → Bool
  | [], b => b.isEmpty
  | x :: a, b => b.isPrefixOf (x :: a) || includes a b

section Similar

variable [LE ν] [DecidableLE ν] [NatCast ν]

def namesAreSimilar (toLowerCase : String → String) (a b : Option String) (threshold : JsNumber ν) : Bool :=
  match normalizeIdentifier toLowerCase a, normalizeIdentifier toLowerCase b with
  | some a, some b =>
    let na := codeUnits a
    let nb := codeUnits b
    if na = nb then true
    else if JsNumber.lt threshold (.finite ((max na.length nb.length - min na.length nb.length : Nat) : ν)) then
      includes na nb || includes nb na
    else JsNumber.le (.finite (levenshteinDistance na nb : ν)) threshold
  | _, _ => false

end Similar

example : levenshteinDistance (codeUnits "kitten") (codeUnits "sitting") = 3 := by decide +kernel

/-! ## The table

The prefixes of both texts are written backwards, so that a row or a column
that is added is an element in front. -/

/-- The cells of the row for `a` to the right of the column for `b`. -/
noncomputable def cells (a : List Nat) : (b rest : List Nat) → List Nat
  | _, [] => []
  | b, y :: rest => editDistance a (y :: b) :: cells a (y :: b) rest

theorem levenshteinRow_eq (x : Nat) (a b rest : List Nat) :
    levenshteinRow x (editDistance (x :: a) b) (editDistance a b) rest (cells a b rest) = cells (x :: a) b rest := by
  induction rest generalizing b with
  | nil => rfl
  | cons y rest ih =>
    simp only [cells, levenshteinRow]
    rw [← editDistance_cons_cons, ih]

theorem levenshteinRows_eq (b : List Nat) : ∀ a done : List Nat,
    levenshteinRows b done.length (editDistance done [] :: cells done [] b) a =
      editDistance (a.reverse ++ done) [] :: cells (a.reverse ++ done) [] b
  | [], done => rfl
  | x :: a, done => by
    have hrow := levenshteinRow_eq x done [] b
    have hrest := levenshteinRows_eq b a (x :: done)
    rw [editDistance_nil_right, List.length_cons] at hrow
    rw [editDistance_nil_right, List.length_cons] at hrest
    rw [levenshteinRows, List.headD_cons, List.tail_cons, hrow, hrest, List.reverse_cons, List.append_assoc,
      List.singleton_append]

/-- The row without an element of the first text. -/
theorem cells_nil (b rest : List Nat) : cells [] b rest = List.range' (b.length + 1) rest.length := by
  induction rest generalizing b with
  | nil => rfl
  | cons y rest ih =>
    rw [cells, ih, editDistance_nil_left, List.length_cons, List.length_cons, List.range'_succ]

theorem getD_cells (a b rest : List Nat) :
    (editDistance a b :: cells a b rest).getD rest.length 0 = editDistance a (rest.reverse ++ b) := by
  induction rest generalizing b with
  | nil => rfl
  | cons y rest ih =>
    rw [cells, List.length_cons, List.getD_cons_succ, ih, List.reverse_cons, List.append_assoc, List.singleton_append]

variable (a b : List Nat)

/-- The number that `levenshteinDistance` computes is the edit distance. -/
theorem levenshteinDistance_eq : levenshteinDistance a b = editDistance a b := by
  unfold levenshteinDistance
  split
  · rename_i hab
    rw [hab, editDistance_self]
  · split
    · rename_i ha
      rw [ha, editDistance_nil_left]
    · split
      · rename_i hb
        rw [hb, editDistance_nil_right]
      · have hfirst : List.range (b.length + 1) = editDistance ([] : List Nat) [] :: cells [] [] b := by
          rw [cells_nil, editDistance_self, List.range_eq_range', List.range'_succ]
          rfl
        have hrows := levenshteinRows_eq b a []
        rw [hfirst]
        rw [List.length_nil] at hrows
        rw [hrows, getD_cells, List.append_nil, List.append_nil, editDistance_reverse]

/-- The distance is the least number of edits, and what follows from that. -/
theorem levenshteinDistance_least (a b : List Nat) :
    EditsIn (levenshteinDistance a b) a b ∧ (∀ n, EditsIn n a b → levenshteinDistance a b ≤ n) ∧
      levenshteinDistance a b = levenshteinDistance b a ∧ (levenshteinDistance a b = 0 ↔ a = b) ∧
      (∀ c, levenshteinDistance a c ≤ levenshteinDistance a b + levenshteinDistance b c) ∧
      max a.length b.length - min a.length b.length ≤ levenshteinDistance a b ∧
      levenshteinDistance a b ≤ max a.length b.length := by
  simp only [levenshteinDistance_eq]
  have hgap := length_le_add_editDistance a b
  refine ⟨editsIn_editDistance a b, fun n h => editDistance_le_of_editsIn h, editDistance_comm a b,
    editDistance_eq_zero_iff a b, editDistance_triangle a b, ?_, editDistance_le_max a b⟩
  omega

/-! ## Containment -/

theorem includes_iff : includes a b = true ↔ b <:+: a := by
  induction a with
  | nil => simp [includes]
  | cons x a ih =>
    rw [includes, Bool.or_eq_true, List.isPrefixOf_iff_prefix, ih, List.infix_cons_iff]

/-! ## Names -/

variable [Semiring ν] [LinearOrder ν] [IsStrictOrderedRing ν] {threshold : JsNumber ν}

/-- A number is at most the threshold, or above it. -/
theorem le_threshold_of_le {n m : Nat} (hnm : n ≤ m) (h : JsNumber.le (.finite (m : ν)) threshold = true) :
    JsNumber.le (.finite (n : ν)) threshold = true := by
  have hcast : (n : ν) ≤ m := Nat.cast_le.mpr hnm
  cases threshold with
  | finite t =>
    simp only [JsNumber.le, decide_eq_true_eq] at h ⊢
    exact le_trans hcast h
  | infinity => rfl
  | negInfinity => exact h
  | nan => exact h

omit [IsStrictOrderedRing ν] in
/-- A threshold that is no less than zero is a number, so it is below a length
just where the length is not within it. -/
theorem lt_threshold_iff (hthreshold : JsNumber.le (.finite 0) threshold = true) (n : Nat) :
    JsNumber.lt threshold (.finite (n : ν)) = true ↔ ¬ JsNumber.le (.finite (n : ν)) threshold = true := by
  cases threshold with
  | finite t =>
    simp only [JsNumber.lt, JsNumber.le, Bool.and_eq_true, Bool.not_eq_true', decide_eq_true_eq, decide_eq_false_iff_not,
      not_le]
    exact ⟨fun h => h.2, fun h => ⟨le_of_lt h, h⟩⟩
  | infinity => simp [JsNumber.lt, JsNumber.le]
  | negInfinity => cases hthreshold
  | nan => cases hthreshold

/-- The length that one text has more than the other. -/
theorem gap_le_editDistance : max a.length b.length - min a.length b.length ≤ editDistance a b := by
  have h := length_le_add_editDistance a b
  omega

theorem editDistance_of_contained {a b : List Nat} (h : b <:+: a ∨ a <:+: b) :
    editDistance a b = max a.length b.length - min a.length b.length := by
  rcases h with h | h
  · have hd := editDistance_of_infix h
    omega
  · have hd := editDistance_of_infix h
    rw [editDistance_comm] at hd
    omega

/-- The comparison of two normal forms, on code units. -/
theorem comparison_iff (hthreshold : JsNumber.le (.finite 0) threshold = true) (a b : List Nat) :
    (if a = b then true
      else if JsNumber.lt threshold (.finite ((max a.length b.length - min a.length b.length : Nat) : ν)) then
        includes a b || includes b a
      else JsNumber.le (.finite (levenshteinDistance a b : ν)) threshold) = true ↔
      JsNumber.le (.finite (editDistance a b : ν)) threshold = true ∨ b <:+: a ∨ a <:+: b := by
  split
  · rename_i hab
    subst hab
    exact iff_of_true rfl (.inr (.inl List.infix_rfl))
  · split
    · -- the threshold is below what the lengths demand, so only containment is left
      rename_i hlt
      have hgap := (lt_threshold_iff hthreshold _).mp hlt
      have hfar : ¬ JsNumber.le (.finite (editDistance a b : ν)) threshold = true :=
        fun h => hgap (le_threshold_of_le (gap_le_editDistance a b) h)
      rw [Bool.or_eq_true, includes_iff, includes_iff, or_iff_right hfar]
    · -- a text that contains the other is as close as the lengths allow
      rename_i hlt
      have hgap := not_not.mp (mt (lt_threshold_iff hthreshold _).mpr hlt)
      rw [levenshteinDistance_eq]
      refine ⟨.inl, fun h => h.elim id fun hcontained => ?_⟩
      rw [editDistance_of_contained hcontained]
      exact hgap

theorem ne_empty_of_normalizeIdentifier {toLowerCase : String → String} {a : Option String} {na : String}
    (h : normalizeIdentifier toLowerCase a = some na) : na ≠ "" := by
  cases a with
  | none => cases h
  | some value =>
    simp only [normalizeIdentifier] at h
    split at h
    · cases h
    · rename_i hne
      cases h
      exact hne

/-- Names are similar just where both have a normal form and these are within
the threshold of each other, or one contains the other. -/
theorem namesAreSimilar_iff (toLowerCase : String → String) (a b : Option String)
    (hthreshold : JsNumber.le (.finite 0) threshold = true) :
    namesAreSimilar toLowerCase a b threshold = true ↔
      ∃ na nb, normalizeIdentifier toLowerCase a = some na ∧ normalizeIdentifier toLowerCase b = some nb ∧
        na ≠ "" ∧ nb ≠ "" ∧
        (JsNumber.le (.finite (editDistance (codeUnits na) (codeUnits nb) : ν)) threshold = true ∨
          codeUnits nb <:+: codeUnits na ∨ codeUnits na <:+: codeUnits nb) := by
  unfold namesAreSimilar
  cases hna : normalizeIdentifier toLowerCase a with
  | none => simp
  | some na =>
    cases hnb : normalizeIdentifier toLowerCase b with
    | none => simp
    | some nb =>
      have hne := ne_empty_of_normalizeIdentifier hna
      have hne' := ne_empty_of_normalizeIdentifier hnb
      simp only [Option.some.injEq, exists_and_left, exists_eq_left', ne_eq, hne, hne', not_false_eq_true, true_and]
      exact comparison_iff hthreshold (codeUnits na) (codeUnits nb)

/-- A part of a name is similar to it although most of it is missing. -/
theorem bob_similar : namesAreSimilar (ν := Int) id (some "Bob") (some " Bob  Smith") (.finite 2) = true :=
  (namesAreSimilar_iff id (some "Bob") (some " Bob  Smith") (by decide)).mpr
    ⟨"Bob", "Bob Smith", by decide +kernel, by decide +kernel, by decide, by decide,
      .inr (.inr ⟨[], codeUnits " Smith", by decide +kernel⟩)⟩

end ZkPayroll.Import
