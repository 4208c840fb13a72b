import Mathlib.Algebra.Order.BigOperators.Group.List
import Mathlib.Algebra.Order.Ring.Int
import ZkPayroll.Framework.Maps

/-!
# Totals by key

A map of totals, filled by adding each item of a list to the total of its key
(`accumulateBy`), where the totals may just be sums (`sumByKey`).
-/

namespace ZkPayroll.Framework

variable {ι κ α : Type} [DecidableEq κ]

/-! ## Any totals -/

section Accumulate

variable {key : ι → κ} {start : κ → α} {add : α → ι → α}

/-- The total of the key of `x`, with `x` added to it. -/
def accumulate (key : ι → κ) (start : κ → α) (add : α → ι → α) (m : List (κ × α)) (x : ι) : List (κ × α) :=
  setKey (key x) (add ((m.lookup (key x)).getD (start (key x))) x) m

/-- The totals of `xs`, where `start` is a total to which nothing is added. -/
def accumulateBy (key : ι → κ) (start : κ → α) (add : α → ι → α) (xs : List ι) : List (κ × α) :=
  xs.foldl (accumulate key start add) []

theorem nodup_accumulateBy (xs : List ι) : ((accumulateBy key start add xs).map Prod.fst).Nodup := by
  induction xs using List.reverseRecOn with
  | nil => exact List.nodup_nil
  | append_singleton xs x ih =>
    rw [accumulateBy, List.foldl_concat, accumulate]
    exact nodup_setKey ih

/-- The total of a key is that of its items. -/
theorem lookup_accumulateBy (k : κ) (xs : List ι) :
    (accumulateBy key start add xs).lookup k =
      if ∃ x ∈ xs, key x = k then some ((xs.filter fun x => key x = k).foldl add (start k)) else none := by
  induction xs using List.reverseRecOn with
  | nil => simp [accumulateBy]
  | append_singleton xs x ih =>
    have hstep : accumulateBy key start add (xs ++ [x]) =
        accumulate key start add (accumulateBy key start add xs) x := List.foldl_concat _ _ _ _
    rw [hstep, accumulate, lookup_setKey, List.filter_append]
    by_cases hk : key x = k
    · subst hk
      rw [if_pos rfl, if_pos ⟨x, by simp, rfl⟩, ih]
      split
      · simp [List.foldl_append]
      · rename_i hno
        have hnil : xs.filter (fun y => key y = key x) = [] := by
          simpa using hno
        simp [hnil]
    · rw [if_neg (Ne.symm hk), ih]
      simp [hk]

end Accumulate

/-! ## Groups -/

section Groups

variable {β : Type} {key : ι → κ} {val : ι → β}

/-- The value is put at the end of the group of its key. -/
def pushToGroup (m : List (κ × List β)) (k : κ) (b : β) : List (κ × List β) :=
  setKey k ((m.lookup k).getD [] ++ [b]) m

/-- The values of the items, by their keys. -/
def groupBy (key : ι → κ) (val : ι → β) (xs : List ι) : List (κ × List β) :=
  xs.foldl (fun m x => pushToGroup m (key x) (val x)) []

theorem groupBy_eq_accumulateBy (xs : List ι) :
    groupBy key val xs = accumulateBy key (fun _ => []) (fun g x => g ++ [val x]) xs := rfl

theorem nodup_groupBy (xs : List ι) : ((groupBy key val xs).map Prod.fst).Nodup := by
  rw [groupBy_eq_accumulateBy]
  exact nodup_accumulateBy xs

variable {xs : List ι}

/-- A group has the values of its key, in their order. -/
theorem mem_groupBy {f : κ × List β} :
    f ∈ groupBy key val xs ↔ (∃ x ∈ xs, key x = f.1) ∧ f.2 = (xs.filter fun x => key x = f.1).map val := by
  have hfold : ∀ (ys : List ι) (g : List β), ys.foldl (fun g x => g ++ [val x]) g = g ++ ys.map val := by
    intro ys
    induction ys with
    | nil => simp
    | cons y ys ih => simp [ih]
  rw [mem_iff_lookup (nodup_groupBy xs), groupBy_eq_accumulateBy, lookup_accumulateBy, hfold, List.nil_append]
  split
  · rename_i h
    rw [Option.some.injEq, eq_comm]
    exact ⟨fun hf => ⟨h, hf⟩, fun hf => hf.2⟩
  · rename_i h
    exact iff_of_false nofun fun hf => h hf.1

theorem exists_mem_groupBy {x : ι} (hx : x ∈ xs) : ∃ f ∈ groupBy key val xs, f.1 = key x :=
  ⟨(key x, (xs.filter fun y => key y = key x).map val), mem_groupBy.mpr ⟨⟨x, hx, rfl⟩, rfl⟩, rfl⟩

theorem mem_group {f : κ × List β} (hf : f ∈ groupBy key val xs) {b : β} :
    b ∈ f.2 ↔ ∃ x ∈ xs, key x = f.1 ∧ val x = b := by
  rw [(mem_groupBy.mp hf).2]
  simp only [List.mem_map, List.mem_filter, decide_eq_true_eq, and_assoc]

/-- An item after all others does not change the order of the groups by their
first items. -/
theorem pairwise_pushToGroup [LinearOrder ι] {m : List (κ × List ι)} {k : κ} {x : ι}
    (hless : ∀ f ∈ m, f.2 ≠ [] ∧ ∀ y ∈ f.2, y < x)
    (hm : m.Pairwise fun f g => ∃ x ∈ f.2, ∀ y ∈ g.2, x < y) :
    (pushToGroup m k x).Pairwise fun f g => ∃ x ∈ f.2, ∀ y ∈ g.2, x < y := by
  unfold pushToGroup
  induction m with
  | nil => exact List.pairwise_singleton _ _
  | cons f m ih =>
    obtain ⟨l, w⟩ := f
    obtain ⟨⟨hne, hw⟩, hless⟩ := List.forall_mem_cons.mp hless
    obtain ⟨hf, hm⟩ := List.pairwise_cons.mp hm
    rw [setKey, lookup_cons_eq]
    by_cases hl : l = k
    · rw [if_pos hl, if_pos hl.symm, Option.getD_some]
      refine List.pairwise_cons.mpr ⟨fun g hg => ?_, hm⟩
      obtain ⟨y, hy, hlt⟩ := hf g hg
      exact ⟨y, List.mem_append_left _ hy, hlt⟩
    · rw [if_neg hl, if_neg (Ne.symm hl)]
      refine List.pairwise_cons.mpr ⟨fun g hg => ?_, ih hless hm⟩
      rcases eq_or_mem_of_mem_setKey hg with rfl | hg
      · cases hold : m.lookup k with
        | none =>
          obtain ⟨y, hy⟩ := List.exists_mem_of_ne_nil w hne
          exact ⟨y, hy, by simpa using hw y hy⟩
        | some old =>
          obtain ⟨y, hy, hlt⟩ := hf (k, old) (lookup_mem hold)
          refine ⟨y, hy, fun z hz => ?_⟩
          rcases List.mem_append.mp hz with hz | hz
          · exact hlt z hz
          · rw [List.mem_singleton.mp hz]
            exact hw y hy
      · exact hf g hg

/-- The groups of ascending items are in the order of their first items. -/
theorem pairwise_groupBy [LinearOrder ι] (h : xs.Pairwise (· < ·)) :
    (groupBy key id xs).Pairwise fun f g => ∃ x ∈ f.2, ∀ y ∈ g.2, x < y := by
  induction xs using List.reverseRecOn with
  | nil => exact List.Pairwise.nil
  | append_singleton xs x ih =>
    obtain ⟨hxs, -, hlast⟩ := List.pairwise_append.mp h
    have hstep : groupBy key id (xs ++ [x]) = pushToGroup (groupBy key id xs) (key x) x := List.foldl_concat _ _ _ _
    rw [hstep]
    refine pairwise_pushToGroup (fun f hf => ⟨?_, fun y hy => ?_⟩) (ih hxs)
    · obtain ⟨⟨y, hy, hkey⟩, -⟩ := mem_groupBy.mp hf
      exact List.ne_nil_of_mem ((mem_group hf).mpr ⟨y, hy, hkey, rfl⟩)
    · obtain ⟨z, hz, -, rfl⟩ := (mem_group hf).mp hy
      exact hlast z hz x (List.mem_singleton.mpr rfl)

end Groups

/-! ## Sums -/

variable [AddMonoid α] {key : ι → κ} {val : ι → α}

/-- `map.set(k, (map.get(k) ?? 0) + v)`. -/
def addKey (k : κ) (v : α) (m : List (κ × α)) : List (κ × α) := setKey k ((m.lookup k).getD 0 + v) m

/-- The totals of `xs`, added to those of `m`. -/
def sumByKey (key : ι → κ) (val : ι → α) (xs : List ι) (m : List (κ × α)) : List (κ × α) :=
  xs.foldl (fun m x => addKey (key x) (val x) m) m

theorem nodup_sumByKey {m : List (κ × α)} (h : (m.map Prod.fst).Nodup) (xs : List ι) :
    ((sumByKey key val xs m).map Prod.fst).Nodup := by
  induction xs generalizing m with
  | nil => exact h
  | cons x xs ih => exact ih (nodup_setKey h)

/-- The keys are those of the items. -/
theorem mem_keys_sumByKey {k : κ} {xs : List ι} {m : List (κ × α)} :
    k ∈ (sumByKey key val xs m).map Prod.fst ↔ k ∈ m.map Prod.fst ∨ ∃ x ∈ xs, key x = k := by
  induction xs generalizing m with
  | nil => simp [sumByKey]
  | cons x xs ih =>
    rw [sumByKey, List.foldl_cons, ← sumByKey, ih, addKey, mem_keys_setKey]
    simp only [List.mem_cons, exists_eq_or_imp]
    rw [or_assoc, or_left_comm, eq_comm (a := k)]

/-- The total of a key is the sum of the values of its items. -/
theorem lookup_sumByKey (k : κ) (xs : List ι) (m : List (κ × α)) :
    ((sumByKey key val xs m).lookup k).getD 0 =
      (m.lookup k).getD 0 + ((xs.filter fun x => key x = k).map val).sum := by
  induction xs generalizing m with
  | nil => simp [sumByKey]
  | cons x xs ih =>
    rw [sumByKey, List.foldl_cons, ← sumByKey, ih, addKey, lookup_setKey]
    by_cases hk : key x = k
    · subst hk
      simp [add_assoc]
    · simp [hk, Ne.symm hk]

/-- Counts by key add up to the number of items. -/
theorem sum_counts (key : ι → κ) (xs : List ι) (m : List (κ × Nat)) :
    ((sumByKey key (fun _ => 1) xs m).map Prod.snd).sum = (m.map Prod.snd).sum + xs.length := by
  induction xs generalizing m with
  | nil => rfl
  | cons x xs ih =>
    have hset : ((addKey (key x) 1 m).map Prod.snd).sum + (Option.map id (m.lookup (key x))).getD 0 =
        (m.map Prod.snd).sum + ((m.lookup (key x)).getD 0 + 1) := sum_map_setKey id (key x) _ m
    rw [Option.map_id, id_eq] at hset
    rw [sumByKey, List.foldl_cons, ← sumByKey, ih, List.length_cons]
    omega

/-- Distinct items of a list amount to no more than the list, where no value is
negative. -/
theorem sum_map_le_of_subset {f : ι → Int} {l l' : List ι} (hn : l.Nodup) (hs : l ⊆ l') (h0 : ∀ x ∈ l', 0 ≤ f x) :
    (l.map f).sum ≤ (l'.map f).sum := by
  obtain ⟨l₁, hperm, hsub⟩ := List.subperm_of_subset hn hs
  rw [← (hperm.map f).sum_eq]
  refine (hsub.map f).sum_le_sum fun n hmem => ?_
  obtain ⟨x, hx, rfl⟩ := List.mem_map.mp hmem
  exact h0 x hx

end ZkPayroll.Framework
