import Mathlib.Algebra.Order.Group.Nat
import Mathlib.Data.List.Basic
import Mathlib.Data.List.Induction
import Mathlib.Logic.Function.Basic
import Mathlib.Logic.Relation
import Mathlib.Order.MinMax

/-!
# Disjoint sets

Union-find in which no element has a parent above it, so that the search for a
root comes to an end and finds the least element that is known to be in the set
(`root`). Path halving changes no root (`root_find`), and after any unions two
elements have one root exactly when the united pairs connect them
(`same_unionAll`).
-/

namespace ZkPayroll.Framework

open Relation

/-- The array of parents; what is not in the array is its own parent. -/
structure UnionFind where
  parent : Nat → Nat
  parent_le (i : Nat) : parent i ≤ i

namespace UnionFind

/-- Every element is a set of its own. -/
def init : UnionFind where
  parent i := i
  parent_le i := Nat.le_refl i

variable (u : UnionFind)

/-- `parent[i] = v`. -/
def setParent (i v : Nat) (h : v ≤ i) : UnionFind where
  parent := Function.update u.parent i v
  parent_le j := by
    by_cases hj : j = i
    · rw [hj, Function.update_self]
      exact h
    · rw [Function.update_of_ne hj]
      exact u.parent_le j

@[simp] theorem setParent_self (i v : Nat) (h : v ≤ i) : (u.setParent i v h).parent i = v :=
  Function.update_self ..

theorem setParent_of_ne {i v j : Nat} (h : v ≤ i) (hj : j ≠ i) : (u.setParent i v h).parent j = u.parent j :=
  Function.update_of_ne hj ..

variable {u}

theorem parent_lt {i : Nat} (h : u.parent i ≠ i) : u.parent i < i := lt_of_le_of_ne (u.parent_le i) h

/-! ## Roots -/

variable (u) in
/-- The root above an element. -/
def root (i : Nat) : Nat := if _h : u.parent i = i then i else root (u.parent i)
termination_by i
decreasing_by exact parent_lt _h

theorem root_of_parent {i : Nat} (h : u.parent i = i) : u.root i = i := by
  rw [root, dif_pos h]

variable (i : Nat)

@[simp] theorem root_parent : u.root (u.parent i) = u.root i := by
  by_cases h : u.parent i = i
  · rw [h]
  · rw [root.eq_1 u i, dif_neg h]

theorem parent_root : u.parent (u.root i) = u.root i := by
  induction i using Nat.strongRecOn with
  | ind i ih =>
    by_cases h : u.parent i = i
    · rw [root_of_parent h, h]
    · rw [← root_parent]
      exact ih _ (parent_lt h)

@[simp] theorem root_root : u.root (u.root i) = u.root i := root_of_parent (parent_root i)

/-- A function that is constant along parents and fixes those without a parent
gives the roots. -/
theorem root_eq_of {f : Nat → Nat} (htop : ∀ i, u.parent i = i → f i = i) (hstep : ∀ i, f (u.parent i) = f i)
    (i : Nat) : u.root i = f i := by
  induction i using Nat.strongRecOn with
  | ind i ih =>
    by_cases h : u.parent i = i
    · rw [root_of_parent h, htop i h]
    · rw [← root_parent, ih _ (parent_lt h), hstep]

/-! ## Finding a root -/

variable (u) in
/-- `parent[i] = parent[parent[i]]`. -/
def halve (i : Nat) : UnionFind :=
  u.setParent i (u.parent (u.parent i)) ((u.parent_le _).trans (u.parent_le i))

theorem halve_parent_lt {i : Nat} (h : u.parent i ≠ i) : (u.halve i).parent i < i := by
  rw [halve, setParent_self]
  exact (u.parent_le _).trans_lt (parent_lt h)

theorem root_halve (i j : Nat) : (u.halve i).root j = u.root j := by
  refine root_eq_of (fun j hj => ?_) (fun j => ?_) j
  · by_cases h : j = i
    · subst h
      rw [halve, setParent_self] at hj
      have hle := u.parent_le (u.parent j)
      rw [hj] at hle
      exact root_of_parent (le_antisymm (u.parent_le j) hle)
    · rw [halve, setParent_of_ne _ _ h] at hj
      exact root_of_parent hj
  · by_cases h : j = i
    · rw [h, halve, setParent_self, root_parent, root_parent]
    · rw [halve, setParent_of_ne _ _ h, root_parent]

/-- `find(i)`: the root, and the structure after the path to it was halved. -/
def find (u : UnionFind) (i : Nat) : Nat × UnionFind :=
  if _h : u.parent i = i then (i, u) else (u.halve i).find ((u.halve i).parent i)
termination_by i
decreasing_by exact halve_parent_lt _h

theorem find_spec : ∀ u : UnionFind, (u.find i).1 = u.root i ∧ ∀ j, (u.find i).2.root j = u.root j := by
  induction i using Nat.strongRecOn with
  | ind i ih =>
    intro u
    rw [find]
    by_cases h : u.parent i = i
    · rw [dif_pos h]
      exact ⟨(root_of_parent h).symm, fun j => rfl⟩
    · rw [dif_neg h]
      obtain ⟨hroot, hsame⟩ := ih _ (halve_parent_lt h) (u.halve i)
      refine ⟨?_, fun j => ?_⟩
      · rw [hroot, root_parent, root_halve]
      · rw [hsame, root_halve]

@[simp] theorem find_fst : (u.find i).1 = u.root i := (find_spec i u).1

@[simp] theorem root_find (i j : Nat) : (u.find i).2.root j = u.root j := (find_spec i u).2 j

/-! ## Uniting two sets -/

variable (u) in
/-- The elements are in one set. -/
def Same (i j : Nat) : Prop := u.root i = u.root j

/-- A root is attached to a root below it. -/
theorem root_setParent {r v : Nat} (hr : u.parent r = r) (hv : u.parent v = v) (h : v < r) (i : Nat) :
    (u.setParent r v h.le).root i = if u.root i = r then v else u.root i := by
  refine root_eq_of (f := fun i => if u.root i = r then v else u.root i) (fun i hi => ?_) (fun i => ?_) i
  · by_cases hir : i = r
    · subst hir
      rw [setParent_self] at hi
      exact absurd hi h.ne
    · rw [setParent_of_ne _ _ hir] at hi
      rw [root_of_parent hi, if_neg hir]
  · by_cases hir : i = r
    · subst hir
      simp only [setParent_self, root_of_parent hv, root_of_parent hr, if_neg h.ne, if_true]
    · simp only [setParent_of_ne _ h.le hir, root_parent]

/-- `union(a, b)`. -/
def union (u : UnionFind) (a b : Nat) : UnionFind :=
  let rootA := (u.find a).1
  let u := (u.find a).2
  let rootB := (u.find b).1
  let u := (u.find b).2
  if rootA = rootB then u
  else if h : rootA < rootB then u.setParent rootB rootA h.le
  else u.setParent rootA rootB (Nat.le_of_not_lt h)

/-- The set of the higher root gets the lower root. -/
theorem root_union (a b i : Nat) :
    (u.union a b).root i =
      if u.root i = max (u.root a) (u.root b) then min (u.root a) (u.root b) else u.root i := by
  have hroot : ∀ j, ((u.find a).2.find b).2.root j = u.root j := fun j => by rw [root_find, root_find]
  have hparent : ∀ j, ((u.find a).2.find b).2.parent (u.root j) = u.root j := fun j => by
    rw [← hroot j]
    exact parent_root j
  simp only [union, find_fst, root_find]
  split
  · rename_i heq
    rw [hroot, heq, max_self, min_self]
    split
    · assumption
    · rfl
  · rename_i hne
    split
    · rename_i hlt
      rw [root_setParent (hparent b) (hparent a) hlt, hroot, max_eq_right hlt.le, min_eq_left hlt.le]
    · rename_i hlt
      have hlt' : u.root b < u.root a := by omega
      rw [root_setParent (hparent a) (hparent b) hlt', hroot, max_eq_left hlt'.le, min_eq_right hlt'.le]

theorem same_union_self (a b : Nat) : (u.union a b).Same a b := by
  rw [Same, root_union, root_union]
  rcases le_total (u.root a) (u.root b) with h | h
  · rw [max_eq_right h, min_eq_left h, if_pos rfl]
    split <;> rfl
  · rw [max_eq_left h, min_eq_right h, if_pos rfl]
    split <;> rfl

theorem Same.union {i j : Nat} (h : u.Same i j) (a b : Nat) : (u.union a b).Same i j := by
  rw [Same, root_union, root_union, h]

theorem same_of_same_union {a b i j : Nat} (h : (u.union a b).Same i j) :
    u.Same i j ∨ u.Same i a ∧ u.Same j b ∨ u.Same i b ∧ u.Same j a := by
  rw [Same, root_union, root_union] at h
  simp only [Same]
  rcases le_total (u.root a) (u.root b) with hab | hab
  · rw [max_eq_right hab, min_eq_left hab] at h
    split at h <;> split at h <;> omega
  · rw [max_eq_left hab, min_eq_right hab] at h
    split at h <;> split at h <;> omega

/-! ## Any unions -/

/-- The union of each pair, one after the other. -/
def unionAll (edges : List (Nat × Nat)) : UnionFind := edges.foldl (fun u e => u.union e.1 e.2) init

/-- Two elements are in one set exactly when the pairs connect them. -/
theorem same_unionAll {edges : List (Nat × Nat)} {i j : Nat} :
    (unionAll edges).Same i j ↔ EqvGen (fun x y => (x, y) ∈ edges) i j := by
  induction edges using List.reverseRecOn generalizing i j with
  | nil =>
    have hroot : ∀ k, init.root k = k := fun k => root_of_parent rfl
    constructor
    · intro h
      have hij : i = j := by simpa only [unionAll, List.foldl_nil, Same, hroot] using h
      rw [hij]
      exact .refl j
    · intro h
      induction h with
      | rel x y h => cases h
      | refl x => rfl
      | symm x y _ ih => exact ih.symm
      | trans x y z _ _ ih₁ ih₂ => exact ih₁.trans ih₂
  | append_singleton edges e ih =>
    rw [unionAll, List.foldl_concat, ← unionAll]
    constructor
    · intro h
      have hmono : ∀ {x y}, (unionAll edges).Same x y → EqvGen (fun x y => (x, y) ∈ edges ++ [e]) x y :=
        fun hs => (ih.mp hs).mono fun _ _ h => List.mem_append_left _ h
      have he : EqvGen (fun x y => (x, y) ∈ edges ++ [e]) e.1 e.2 := .rel _ _ (by simp)
      rcases same_of_same_union h with h | ⟨h₁, h₂⟩ | ⟨h₁, h₂⟩
      · exact hmono h
      · exact .trans _ _ _ (hmono h₁) (.trans _ _ _ he (.symm _ _ (hmono h₂)))
      · exact .trans _ _ _ (hmono h₁) (.trans _ _ _ (.symm _ _ he) (.symm _ _ (hmono h₂)))
    · intro h
      induction h with
      | rel x y h =>
        rcases List.mem_append.mp h with h | h
        · exact (ih.mpr (.rel _ _ h)).union _ _
        · have hxy : e = (x, y) := (List.mem_singleton.mp h).symm
          rw [hxy]
          exact same_union_self x y
      | refl x => rfl
      | symm x y _ ih => exact ih.symm
      | trans x y z _ _ ih₁ ih₂ => exact ih₁.trans ih₂

end UnionFind

/-! ## Linking a list -/

/-- Each element of a list with the one after it. -/
def consecutive {α : Type} (l : List α) : List (α × α) := l.zip l.tail

/-- Linking consecutive elements connects all elements. -/
theorem eqvGen_consecutive {α : Type} : ∀ {l : List α} {a b : α}, a ∈ l → b ∈ l →
    EqvGen (fun x y => (x, y) ∈ consecutive l) a b
  | [x], a, b, ha, hb => by
    rw [List.mem_singleton.mp ha, List.mem_singleton.mp hb]
    exact .refl x
  | x :: y :: l, a, b, ha, hb => by
    have htail : ∀ c ∈ y :: l, EqvGen (fun p q => (p, q) ∈ consecutive (x :: y :: l)) y c := fun c hc =>
      (eqvGen_consecutive List.mem_cons_self hc).mono fun p q h => List.mem_cons_of_mem _ h
    have hhead : EqvGen (fun p q => (p, q) ∈ consecutive (x :: y :: l)) x y := .rel _ _ List.mem_cons_self
    have hall : ∀ c ∈ x :: y :: l, EqvGen (fun p q => (p, q) ∈ consecutive (x :: y :: l)) y c := fun c hc => by
      rcases List.mem_cons.mp hc with rfl | hc
      · exact .symm _ _ hhead
      · exact htail c hc
    exact .trans _ _ _ (.symm _ _ (hall a ha)) (hall b hb)

theorem mem_of_mem_consecutive {α : Type} {l : List α} {a b : α} (h : (a, b) ∈ consecutive l) : a ∈ l ∧ b ∈ l :=
  ⟨(List.of_mem_zip h).1, List.mem_of_mem_tail (List.of_mem_zip h).2⟩

/-- Of an ascending list, two elements are consecutive when no other is between
them. -/
theorem mem_consecutive_iff {α : Type} [LinearOrder α] {a b : α} : ∀ {l : List α}, l.Pairwise (· < ·) →
    ((a, b) ∈ consecutive l ↔ a ∈ l ∧ b ∈ l ∧ a < b ∧ ∀ c ∈ l, a < c → b ≤ c)
  | [], _ => by simp [consecutive]
  | [x], _ => by
    refine iff_of_false List.not_mem_nil fun h => ?_
    rw [List.mem_singleton, List.mem_singleton] at h
    exact absurd (h.1.trans h.2.1.symm) h.2.2.1.ne
  | x :: y :: l, hl => by
    have hcons : consecutive (x :: y :: l) = (x, y) :: consecutive (y :: l) := rfl
    obtain ⟨hx, hl⟩ := List.pairwise_cons.mp hl
    have hy := (List.pairwise_cons.mp hl).1
    rw [hcons, List.mem_cons, Prod.mk.injEq, mem_consecutive_iff hl]
    constructor
    · rintro (⟨rfl, rfl⟩ | ⟨ha, hb, hab, hmin⟩)
      · refine ⟨List.mem_cons_self, by simp, hx _ List.mem_cons_self, fun c hc hac => ?_⟩
        rcases List.mem_cons.mp ((List.mem_cons.mp hc).resolve_left hac.ne') with rfl | hc
        · exact le_rfl
        · exact (hy c hc).le
      · refine ⟨List.mem_cons_of_mem _ ha, List.mem_cons_of_mem _ hb, hab, fun c hc hac => ?_⟩
        rcases List.mem_cons.mp hc with rfl | hc
        · exact absurd hac (hx a ha).asymm
        · exact hmin c hc hac
    · rintro ⟨ha, hb, hab, hmin⟩
      rcases List.mem_cons.mp ha with rfl | ha
      · refine .inl ⟨rfl, ?_⟩
        have hb' := (List.mem_cons.mp hb).resolve_left hab.ne'
        have hle := hmin y (by simp) (hx y List.mem_cons_self)
        rcases List.mem_cons.mp hb' with rfl | hb'
        · rfl
        · exact absurd hle (hy b hb').not_ge
      · have hb' : b ∈ y :: l := (List.mem_cons.mp hb).resolve_left fun h => absurd (hx a ha) (h ▸ hab).asymm
        exact .inr ⟨ha, hb', hab, fun c hc => hmin c (List.mem_cons_of_mem _ hc)⟩

end ZkPayroll.Framework
