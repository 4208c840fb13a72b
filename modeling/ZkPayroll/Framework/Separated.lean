import Mathlib.Data.List.Count
import Mathlib.Algebra.GroupWithZero.Nat
import ZkPayroll.Framework.Lists
import ZkPayroll.Framework.Text

/-!
# Fields joined by a separator

`separate sep xs` writes each field of `xs` after a separator; it is what
`xs.join(sep)` adds to a text that comes first (`toList_intercalate_cons`).
Fields that do not contain the separator are found again among all lists of
as many fields (`separate_inj`). With a part that may contain the separator at
the end, the fields are found again, or the other list has swallowed the
beginning of that part (`separate_append_cases`).
-/

namespace ZkPayroll.Framework

variable {α : Type} {sep : α}

/-- The fields, each after a separator. -/
def separate (sep : α) (xs : List (List α)) : List α := xs.flatMap (sep :: ·)

@[simp] theorem separate_nil : separate sep [] = [] := rfl

@[simp] theorem separate_cons (x : List α) (xs : List (List α)) :
    separate sep (x :: xs) = sep :: x ++ separate sep xs := rfl

theorem intercalate_cons (x : List α) (xs : List (List α)) :
    [sep].intercalate (x :: xs) = x ++ separate sep xs := by
  induction xs generalizing x with
  | nil => simp
  | cons y xs ih =>
    rw [List.intercalate_cons_cons, ih]
    simp

theorem toList_intercalate_cons (c : Char) (t : String) (ts : List String) :
    ((String.ofList [c]).intercalate (t :: ts)).toList = t.toList ++ separate c (ts.map String.toList) := by
  rw [String.toList_intercalate, List.map_cons, String.toList_ofList, intercalate_cons]

/-- What is left of a text after a field is nothing, or starts with a
separator. -/
theorem separate_head (xs : List (List α)) : ∀ c ∈ (separate sep xs).head?, c = sep := by
  cases xs with
  | nil => simp
  | cons x xs => simp

/-- A field without separators ends where the text has one. -/
theorem eq_of_append_eq {x y s t : List α} (hx : sep ∉ x) (hy : sep ∉ y) (hs : ∀ c ∈ s.head?, c = sep)
    (ht : ∀ c ∈ t.head?, c = sep) (h : x ++ s = y ++ t) : x = y ∧ s = t := by
  rcases List.append_eq_append_iff.mp h with ⟨a, rfl, rfl⟩ | ⟨a, rfl, rfl⟩
  · cases a with
    | nil => simp
    | cons c a =>
      obtain rfl := hs c (by simp)
      exact absurd (by simp) hy
  · cases a with
    | nil => simp
    | cons c a =>
      obtain rfl := ht c (by simp)
      exact absurd (by simp) hx

theorem separate_inj_of_free : ∀ {xs ys : List (List α)}, xs.length = ys.length → (∀ x ∈ xs, sep ∉ x) →
    (∀ y ∈ ys, sep ∉ y) → separate sep xs = separate sep ys → xs = ys
  | [], [], _, _, _, _ => rfl
  | x :: xs, y :: ys, hlen, hx, hy, h => by
    rw [separate_cons, separate_cons, List.cons_append, List.cons_append] at h
    have htail := (List.cons.inj h).2
    obtain ⟨rfl, hrest⟩ := eq_of_append_eq (hx x List.mem_cons_self) (hy y List.mem_cons_self)
      (separate_head xs) (separate_head ys) htail
    rw [separate_inj_of_free (by simpa using hlen) (fun x h => hx x (List.mem_cons_of_mem _ h))
      (fun y h => hy y (List.mem_cons_of_mem _ h)) hrest]

section Count

variable [DecidableEq α]

theorem count_separate (xs : List (List α)) :
    (separate sep xs).count sep = xs.length + (xs.map (List.count sep)).sum := by
  induction xs with
  | nil => rfl
  | cons x xs ih =>
    rw [separate_cons, List.cons_append, List.count_cons_self, List.count_append, ih]
    simp only [List.length_cons, List.map_cons, List.sum_cons]
    omega

/-- There are as many separators as fields exactly when no field has one. -/
theorem count_separate_eq_length_iff {xs : List (List α)} :
    (separate sep xs).count sep = xs.length ↔ ∀ x ∈ xs, sep ∉ x := by
  have hzero : (separate sep xs).count sep = xs.length ↔ (xs.map (List.count sep)).sum = 0 := by
    rw [count_separate]
    omega
  rw [hzero, List.sum_eq_zero_iff_forall_eq_nat]
  simp [List.count_eq_zero]

variable {xs ys : List (List α)}

/-- Fields without separators are found again. -/
theorem separate_inj (hlen : xs.length = ys.length) (hx : ∀ x ∈ xs, sep ∉ x)
    (h : separate sep xs = separate sep ys) : xs = ys := by
  have hcount := count_separate_eq_length_iff.mpr hx
  rw [h, hlen] at hcount
  exact separate_inj_of_free hlen hx (count_separate_eq_length_iff.mp hcount) h

/-- A separator that starts a field which is never empty does no harm. -/
theorem separate_inj_of_ne_nil {x y : List α} (hlen : xs.length = ys.length)
    (hx : x ≠ []) (hy : y ≠ []) (hfree : sep ∉ x.tail) (hxs : ∀ z ∈ xs, sep ∉ z)
    (h : separate sep (x :: xs) = separate sep (y :: ys)) : x :: xs = y :: ys := by
  obtain ⟨a, x, rfl⟩ := List.exists_cons_of_ne_nil hx
  obtain ⟨b, y, rfl⟩ := List.exists_cons_of_ne_nil hy
  rw [separate_cons, separate_cons, List.cons_append, List.cons_append] at h
  obtain ⟨rfl, hrest⟩ := List.cons.inj (List.cons.inj h).2
  have hall : ∀ z ∈ x :: xs, sep ∉ z := List.forall_mem_cons.mpr ⟨hfree, hxs⟩
  have hlen' : (x :: xs).length = (y :: ys).length := by simpa using hlen
  have heq := separate_inj hlen' hall (congrArg (sep :: ·) hrest)
  rw [(List.cons.inj heq).1, (List.cons.inj heq).2]

/-- Fields without separators before a part that may have some are found again
unless the other fields reach into that part. -/
theorem separate_append_cases {r s : List α} (hlen : xs.length = ys.length)
    (hx : ∀ x ∈ xs, sep ∉ x) (h : separate sep xs ++ sep :: r = separate sep ys ++ sep :: s) :
    (xs = ys ∧ r = s) ∨ ∃ mid, separate sep ys = separate sep xs ++ sep :: mid ∧ r = mid ++ sep :: s := by
  rcases append_cons_eq_cases h with ⟨heq, hrest⟩ | ⟨mid, hlong, -⟩ | ⟨mid, hmid, hrest⟩
  · exact .inl ⟨separate_inj hlen hx heq, hrest⟩
  · have hcount := count_separate_eq_length_iff.mpr hx
    rw [hlong, List.count_append, List.count_cons_self, count_separate] at hcount
    omega
  · exact .inr ⟨mid, hmid, hrest⟩

end Count

/-! ## Parts between separators -/

section Parts

variable [BEq α] [LawfulBEq α]

/-- The parts of fields that are joined are the parts of the fields. -/
theorem splitOn_intercalate_eq_flatMap {xs : List (List α)} (h : xs ≠ []) :
    ([sep].intercalate xs).splitOn sep = xs.flatMap (List.splitOn sep) := by
  induction xs with
  | nil => exact absurd rfl h
  | cons x xs ih =>
    cases xs with
    | nil => simp
    | cons y xs =>
      rw [List.intercalate_cons_cons, List.append_assoc, List.singleton_append, List.splitOn_append_cons_self,
        ih (by simp)]
      rfl

/-- Joined fields are told apart by their parts, and by nothing else. -/
theorem intercalate_eq_iff {xs ys : List (List α)} (hx : xs ≠ []) (hy : ys ≠ []) :
    [sep].intercalate xs = [sep].intercalate ys ↔
      xs.flatMap (List.splitOn sep) = ys.flatMap (List.splitOn sep) := by
  rw [← splitOn_intercalate_eq_flatMap hx, ← splitOn_intercalate_eq_flatMap hy]
  constructor
  · exact congrArg _
  · intro h
    have hback : [sep].intercalate (([sep].intercalate xs).splitOn sep) = [sep].intercalate xs :=
      List.intercalate_splitOn sep
    rw [← hback, h, List.intercalate_splitOn]

theorem flatMap_splitOn_of_free {xs : List (List α)} (h : ∀ x ∈ xs, sep ∉ x) :
    xs.flatMap (List.splitOn sep) = xs := by
  induction xs with
  | nil => rfl
  | cons x xs ih =>
    rw [List.flatMap_cons, List.splitOn_eq_singleton (h x List.mem_cons_self),
      ih fun y hy => h y (List.mem_cons_of_mem _ hy), List.singleton_append]

/-- A part has no separator. -/
theorem notMem_of_mem_splitOn {xs part : List α} (h : part ∈ xs.splitOn sep) : sep ∉ part := by
  induction xs generalizing part with
  | nil =>
    rw [List.splitOn_nil, List.mem_singleton] at h
    rw [h]
    exact List.not_mem_nil
  | cons x xs ih =>
    rw [List.splitOn_cons_eq_if_modifyHead] at h
    split at h
    next =>
      rcases List.mem_cons.mp h with rfl | h
      · exact List.not_mem_nil
      · exact ih h
    next hne =>
      cases hparts : xs.splitOn sep with
      | nil => exact absurd hparts (List.splitOn_ne_nil sep xs)
      | cons first rest =>
        rw [hparts] at h ih
        rcases List.mem_cons.mp h with rfl | h
        · rw [List.mem_cons, not_or]
          refine ⟨fun heq => hne ?_, ih List.mem_cons_self⟩
          rw [heq]
          exact BEq.rfl
        · exact ih (List.mem_cons_of_mem _ h)

/-- A text is its parts with the separator between them. -/
theorem parts_of_splitOn {xs : List α} {parts : List (List α)} (h : xs.splitOn sep = parts) :
    xs = [sep].intercalate parts ∧ ∀ part ∈ parts, sep ∉ part := by
  subst h
  exact ⟨(List.intercalate_splitOn sep).symm, fun part => notMem_of_mem_splitOn⟩

/-- A text has two parts just if it has one separator. -/
theorem splitOn_eq_pair_iff {xs a b : List α} :
    xs.splitOn sep = [a, b] ↔ xs = a ++ sep :: b ∧ sep ∉ a ∧ sep ∉ b := by
  constructor
  · intro h
    obtain ⟨hjoin, hfree⟩ := parts_of_splitOn h
    rw [hjoin, intercalate_cons, separate_cons, separate_nil, List.append_nil]
    exact ⟨rfl, hfree a (by simp), hfree b (by simp)⟩
  · intro ⟨hxs, ha, hb⟩
    rw [hxs, List.splitOn_append_cons_self, List.splitOn_eq_singleton ha, List.splitOn_eq_singleton hb]
    rfl

theorem splitOn_eq_singleton_iff {xs a : List α} : xs.splitOn sep = [a] ↔ xs = a ∧ sep ∉ a := by
  constructor
  · intro h
    obtain ⟨hjoin, hfree⟩ := parts_of_splitOn h
    rw [hjoin, List.intercalate_singleton]
    exact ⟨rfl, hfree a (by simp)⟩
  · intro ⟨hxs, ha⟩
    rw [hxs, List.splitOn_eq_singleton ha]

end Parts

/-- Three texts without dots, joined by dots, are split again. -/
theorem splitOn_three {a b c : List Char} (ha : ∀ x ∈ a, (x == '.') = false)
    (hb : ∀ x ∈ b, (x == '.') = false) (hc : ∀ x ∈ c, (x == '.') = false) :
    (a ++ '.' :: (b ++ '.' :: c)).splitOn '.' = [a, b, c] := by
  rw [List.splitOn_eq_splitOnP, List.splitOnP_append_cons_of_forall_mem ha _ (by decide),
    List.splitOnP_append_cons_of_forall_mem hb _ (by decide), List.splitOnP_eq_singleton hc]

/-- The list of parts of a text of white space only. -/
theorem splitOn_of_isBlank {s : String} (h : isBlank s = true) :
    (trimChars s.toList).splitOn '.' = [[]] := by
  rw [List.isEmpty_iff.mp h]
  rfl

end ZkPayroll.Framework
