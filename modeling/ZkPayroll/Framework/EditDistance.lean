import Mathlib.Data.List.Infix
import Mathlib.Order.Lattice
import Mathlib.Order.Nat

/-!
# Edit distance

The least number of single edits that lead from one list to another
(`editDistance`): an element is replaced, deleted or inserted. An alignment of
two lists (`Align`) goes through both from the front; the cheapest alignment
costs as many edits as are needed (`align_editDistance`, `editDistance_le`), and
from alignments come

* `editDistance_cons_cons`: the recurrence on the first elements;
* `editDistance_reverse`: the same recurrence on the last elements;
* `editDistance_of_infix`: the distance of a list from a part of it, which is
  no more than what `length_le_add_editDistance` demands.

The distance is one (`editDistance_comm`, `editDistance_eq_zero_iff`,
`editDistance_triangle`), and at most the longer length (`editDistance_le_max`).
-/

namespace ZkPayroll.Framework

variable {α : Type} {a b c d : List α} {n m : Nat}

/-! ## Edits -/

/-- One edit. -/
inductive Edit : List α → List α → Prop
  | replace (x y : α) (l : List α) : Edit (x :: l) (y :: l)
  | delete (x : α) (l : List α) : Edit (x :: l) l
  | insert (y : α) (l : List α) : Edit l (y :: l)
  | later (x : α) {a b : List α} (h : Edit a b) : Edit (x :: a) (x :: b)

/-- A number of edits, one after the other. -/
inductive EditsIn : Nat → List α → List α → Prop
  | refl (a : List α) : EditsIn 0 a a
  | step {n : Nat} {a b c : List α} (h : EditsIn n a b) (e : Edit b c) : EditsIn (n + 1) a c

theorem EditsIn.later (x : α) (h : EditsIn n a b) : EditsIn n (x :: a) (x :: b) := by
  induction h with
  | refl a => exact .refl _
  | step h e ih => exact .step ih (.later x e)

theorem EditsIn.trans (h : EditsIn n a b) (h' : EditsIn m b c) : EditsIn (n + m) a c := by
  induction h' with
  | refl b => exact h
  | step _ e ih => exact .step (ih h) e

/-! ## Alignments -/

/-- Both lists from the front, with the edits that this takes. -/
inductive Align : Nat → List α → List α → Prop
  | nil : Align 0 [] []
  | keep (x : α) {n : Nat} {a b : List α} (h : Align n a b) : Align n (x :: a) (x :: b)
  | replace (x y : α) {n : Nat} {a b : List α} (h : Align n a b) : Align (n + 1) (x :: a) (y :: b)
  | delete (x : α) {n : Nat} {a b : List α} (h : Align n a b) : Align (n + 1) (x :: a) b
  | insert (y : α) {n : Nat} {a b : List α} (h : Align n a b) : Align (n + 1) a (y :: b)

theorem Align.refl : ∀ a : List α, Align 0 a a
  | [] => .nil
  | x :: a => .keep x (Align.refl a)

theorem Align.inserts : ∀ b : List α, Align b.length [] b
  | [] => .nil
  | y :: b => .insert y (Align.inserts b)

theorem Align.deletes : ∀ a : List α, Align a.length a []
  | [] => .nil
  | x :: a => .delete x (Align.deletes a)

theorem Align.append (h : Align n a b) (h' : Align m c d) : Align (n + m) (a ++ c) (b ++ d) := by
  induction h with
  | nil => rwa [Nat.zero_add]
  | keep x _ ih => exact .keep x ih
  | replace x y _ ih =>
    rw [Nat.add_right_comm]
    exact .replace x y ih
  | delete x _ ih =>
    rw [Nat.add_right_comm]
    exact .delete x ih
  | insert y _ ih =>
    rw [Nat.add_right_comm]
    exact .insert y ih

theorem Align.reverse (h : Align n a b) : Align n a.reverse b.reverse := by
  induction h with
  | nil => exact .nil
  | keep x _ ih =>
    rw [List.reverse_cons, List.reverse_cons]
    exact ih.append (Align.refl [x])
  | replace x y _ ih =>
    rw [List.reverse_cons, List.reverse_cons]
    exact ih.append (.replace x y .nil)
  | delete x h ih =>
    have := ih.append (Align.deletes [x])
    rwa [List.append_nil, ← List.reverse_cons] at this
  | insert y h ih =>
    have := ih.append (Align.inserts [y])
    rwa [List.append_nil, ← List.reverse_cons] at this

theorem Align.symm (h : Align n a b) : Align n b a := by
  induction h with
  | nil => exact .nil
  | keep x _ ih => exact .keep x ih
  | replace x y _ ih => exact .replace y x ih
  | delete x _ ih => exact .insert x ih
  | insert y _ ih => exact .delete y ih

theorem Align.length_le (h : Align n a b) : a.length ≤ b.length + n ∧ b.length ≤ a.length + n := by
  induction h with
  | nil => exact ⟨Nat.le_refl _, Nat.le_refl _⟩
  | keep x _ ih =>
    simp only [List.length_cons]
    omega
  | replace x y _ ih =>
    simp only [List.length_cons]
    omega
  | delete x _ ih =>
    simp only [List.length_cons]
    omega
  | insert y _ ih =>
    simp only [List.length_cons]
    omega

/-! ## Alignments are sequences of edits -/

theorem Align.editsIn (h : Align n a b) : EditsIn n a b := by
  induction h with
  | nil => exact .refl []
  | keep x _ ih => exact ih.later x
  | replace x y _ ih => exact .step (ih.later x) (.replace x y _)
  | delete x _ ih => exact .step (ih.later x) (.delete x _)
  | insert y _ ih => exact .step ih (.insert y _)

/-- An alignment takes in one more edit of its second list. -/
theorem Align.edit (h : Align n a b) (e : Edit b c) : ∃ m ≤ n + 1, Align m a c := by
  induction h generalizing c with
  | nil =>
    cases e with
    | insert y l => exact ⟨1, Nat.le_refl _, .insert y .nil⟩
  | keep x h ih =>
    cases e with
    | replace _ y _ => exact ⟨_, Nat.le_refl _, .replace x y h⟩
    | delete => exact ⟨_, Nat.le_refl _, .delete x h⟩
    | insert y _ => exact ⟨_, Nat.le_refl _, .insert y (.keep x h)⟩
    | later _ e =>
      obtain ⟨m, hm, h'⟩ := ih e
      exact ⟨m, hm, .keep x h'⟩
  | replace x y h ih =>
    cases e with
    | replace _ z _ => exact ⟨_, Nat.le_succ _, .replace x z h⟩
    | delete => exact ⟨_, Nat.le_succ _, .delete x h⟩
    | insert z _ => exact ⟨_, Nat.le_refl _, .insert z (.replace x y h)⟩
    | later _ e =>
      obtain ⟨m, hm, h'⟩ := ih e
      exact ⟨m + 1, by omega, .replace x y h'⟩
  | delete x h ih =>
    obtain ⟨m, hm, h'⟩ := ih e
    exact ⟨m + 1, by omega, .delete x h'⟩
  | insert y h ih =>
    cases e with
    | replace _ z _ => exact ⟨_, Nat.le_succ _, .insert z h⟩
    | delete => exact ⟨_, by omega, h⟩
    | insert z _ => exact ⟨_, Nat.le_refl _, .insert z (.insert y h)⟩
    | later _ e =>
      obtain ⟨m, hm, h'⟩ := ih e
      exact ⟨m + 1, by omega, .insert y h'⟩

theorem EditsIn.align (h : EditsIn n a b) : ∃ m ≤ n, Align m a b := by
  induction h with
  | refl a => exact ⟨0, Nat.le_refl _, Align.refl a⟩
  | step h e ih =>
    obtain ⟨m, hm, h'⟩ := ih
    obtain ⟨k, hk, h''⟩ := h'.edit e
    exact ⟨k, by omega, h''⟩

/-! ## The distance -/

theorem exists_editsIn (a b : List α) : ∃ n, EditsIn n a b := by
  have h := (Align.deletes a).append (Align.inserts b)
  rw [List.append_nil, List.nil_append] at h
  exact ⟨_, h.editsIn⟩

open Classical in
/-- The least number of edits from one list to the other. -/
noncomputable def editDistance (a b : List α) : Nat := Nat.find (exists_editsIn a b)

theorem editsIn_editDistance (a b : List α) : EditsIn (editDistance a b) a b := by
  classical
  exact Nat.find_spec (exists_editsIn a b)

theorem editDistance_le_of_editsIn (h : EditsIn n a b) : editDistance a b ≤ n := by
  classical
  exact Nat.find_min' (exists_editsIn a b) h

theorem editDistance_le (h : Align n a b) : editDistance a b ≤ n := editDistance_le_of_editsIn h.editsIn

theorem align_editDistance (a b : List α) : Align (editDistance a b) a b := by
  obtain ⟨m, hm, h⟩ := (editsIn_editDistance a b).align
  rw [show editDistance a b = m from Nat.le_antisymm (editDistance_le h) hm]
  exact h

theorem editDistance_self (a : List α) : editDistance a a = 0 :=
  Nat.le_zero.mp (editDistance_le (Align.refl a))

theorem editDistance_nil_left (b : List α) : editDistance [] b = b.length := by
  have hlength := (align_editDistance [] b).length_le.2
  rw [List.length_nil, Nat.zero_add] at hlength
  exact Nat.le_antisymm (editDistance_le (Align.inserts b)) hlength

theorem editDistance_nil_right (a : List α) : editDistance a [] = a.length := by
  have hlength := (align_editDistance a []).length_le.1
  rw [List.length_nil, Nat.zero_add] at hlength
  exact Nat.le_antisymm (editDistance_le (Align.deletes a)) hlength

/-- The cheapest way to begin. -/
theorem editDistance_cons_cons [DecidableEq α] (x y : α) (a b : List α) :
    editDistance (x :: a) (y :: b) = min (min (editDistance a (y :: b) + 1) (editDistance (x :: a) b + 1))
      (editDistance a b + if x = y then 0 else 1) := by
  apply Nat.le_antisymm
  · refine Nat.le_min.mpr ⟨Nat.le_min.mpr ⟨?_, ?_⟩, ?_⟩
    · exact editDistance_le (.delete x (align_editDistance a (y :: b)))
    · exact editDistance_le (.insert y (align_editDistance (x :: a) b))
    · split
      · rename_i hxy
        subst hxy
        exact editDistance_le (.keep x (align_editDistance a b))
      · exact editDistance_le (.replace x y (align_editDistance a b))
  · generalize hd : editDistance (x :: a) (y :: b) = k
    have h := align_editDistance (x :: a) (y :: b)
    rw [hd] at h
    cases h with
    | keep _ h =>
      have := editDistance_le h
      rw [if_pos rfl]
      omega
    | replace _ _ h =>
      have := editDistance_le h
      split <;> omega
    | delete _ h =>
      have := editDistance_le h
      omega
    | insert _ h =>
      have := editDistance_le h
      omega

theorem editDistance_reverse (a b : List α) : editDistance a.reverse b.reverse = editDistance a b := by
  apply Nat.le_antisymm
  · exact editDistance_le (align_editDistance a b).reverse
  · have h := (align_editDistance a.reverse b.reverse).reverse
    rw [List.reverse_reverse, List.reverse_reverse] at h
    exact editDistance_le h

theorem editDistance_comm (a b : List α) : editDistance a b = editDistance b a :=
  Nat.le_antisymm (editDistance_le (align_editDistance b a).symm) (editDistance_le (align_editDistance a b).symm)

theorem length_le_add_editDistance (a b : List α) :
    a.length ≤ b.length + editDistance a b ∧ b.length ≤ a.length + editDistance a b :=
  (align_editDistance a b).length_le

/-- A part is reached from the whole by deletions alone. -/
theorem editDistance_of_infix (h : b <:+: a) : editDistance a b + b.length = a.length := by
  obtain ⟨s, t, rfl⟩ := h
  have halign := ((Align.deletes s).append (Align.refl b)).append (Align.deletes t)
  rw [List.nil_append, List.append_nil] at halign
  have hle := editDistance_le halign
  have hge := (length_le_add_editDistance (s ++ b ++ t) b).1
  simp only [List.length_append] at hge ⊢
  omega

theorem editDistance_eq_zero_iff (a b : List α) : editDistance a b = 0 ↔ a = b := by
  constructor
  · intro h
    have hnone := editsIn_editDistance a b
    rw [h] at hnone
    cases hnone
    rfl
  · rintro rfl
    exact editDistance_self a

theorem editDistance_triangle (a b c : List α) : editDistance a c ≤ editDistance a b + editDistance b c :=
  editDistance_le_of_editsIn ((editsIn_editDistance a b).trans (editsIn_editDistance b c))

/-- Elements are replaced as long as there are some in both lists. -/
theorem editDistance_le_max : ∀ a b : List α, editDistance a b ≤ max a.length b.length
  | [], b => by
    rw [editDistance_nil_left]
    exact Nat.le_max_right _ _
  | a, [] => by
    rw [editDistance_nil_right]
    exact Nat.le_max_left _ _
  | x :: a, y :: b => by
    have hrest := editDistance_le_max a b
    have hreplace := editDistance_le (.replace x y (align_editDistance a b))
    rw [List.length_cons, List.length_cons]
    omega

end ZkPayroll.Framework
