import Mathlib.Algebra.GroupWithZero.Nat
import Mathlib.Data.List.Induction
import ZkPayroll.Framework.Lists

/-!
# Maps in insertion order

A JavaScript `Map`, or an object used as one, is the list of its entries in the
order in which their keys were first set. Reading is `List.lookup`.
-/

namespace ZkPayroll.Framework

variable {κ α : Type} [DecidableEq κ]

/-- `map.set(k, v)`: in place where the key is there, else at the end. -/
def setKey (k : κ) (v : α) : List (κ × α) → List (κ × α)
  | [] => [(k, v)]
  | (l, w) :: m => if l = k then (k, v) :: m else (l, w) :: setKey k v m

/-- `map.delete(k)`. -/
def eraseKey (k : κ) (m : List (κ × α)) : List (κ × α) := m.filter fun f => f.1 ≠ k

@[simp] theorem lookup_setKey (k l : κ) (v : α) : ∀ m : List (κ × α),
    (setKey k v m).lookup l = if l = k then some v else m.lookup l
  | [] => by rw [setKey, lookup_cons_eq]
  | (j, w) :: m => by
    rw [setKey, lookup_cons_eq j]
    by_cases hj : j = k
    · rw [if_pos hj, lookup_cons_eq, hj]
      by_cases h : l = k <;> simp [h]
    · rw [if_neg hj, lookup_cons_eq, lookup_setKey k l v m]
      by_cases h : l = j
      · simp [h, hj]
      · simp [h]

@[simp] theorem lookup_eraseKey (k l : κ) : ∀ m : List (κ × α),
    (eraseKey k m).lookup l = if l = k then none else m.lookup l
  | [] => by simp [eraseKey]
  | (j, w) :: m => by
    have ih := lookup_eraseKey k l m
    rw [eraseKey] at ih ⊢
    by_cases hj : j = k
    · rw [List.filter_cons_of_neg (by simpa using hj), ih, lookup_cons_eq, hj]
      by_cases h : l = k <;> simp [h]
    · rw [List.filter_cons_of_pos (by simpa using hj), lookup_cons_eq, ih, lookup_cons_eq]
      by_cases h : l = j
      · simp [h, hj]
      · simp [h]

theorem setKey_of_notMem {k : κ} {v : α} : ∀ {m : List (κ × α)}, k ∉ m.map Prod.fst →
    setKey k v m = m ++ [(k, v)]
  | [], _ => rfl
  | (l, w) :: m, h => by
    simp only [List.map_cons, List.mem_cons, not_or] at h
    rw [setKey, if_neg (Ne.symm h.1), setKey_of_notMem h.2, List.cons_append]

theorem map_fst_setKey_of_mem {k : κ} {v : α} : ∀ {m : List (κ × α)}, k ∈ m.map Prod.fst →
    (setKey k v m).map Prod.fst = m.map Prod.fst
  | (l, w) :: m, h => by
    rw [setKey]
    split
    · rename_i hl
      simp [hl]
    · rename_i hl
      have hm : k ∈ m.map Prod.fst := by simpa [Ne.symm hl] using h
      simp [map_fst_setKey_of_mem hm]

variable {m : List (κ × α)}

theorem nodup_setKey {k : κ} {v : α} (h : (m.map Prod.fst).Nodup) :
    ((setKey k v m).map Prod.fst).Nodup := by
  by_cases hk : k ∈ m.map Prod.fst
  · rwa [map_fst_setKey_of_mem hk]
  · rw [setKey_of_notMem hk, List.map_append, List.nodup_append]
    refine ⟨h, by simp, ?_⟩
    intro a ha b hb hab
    obtain rfl : b = k := List.mem_singleton.mp hb
    exact hk (hab ▸ ha)

theorem mem_keys_setKey {k l : κ} {v : α} :
    l ∈ (setKey k v m).map Prod.fst ↔ l = k ∨ l ∈ m.map Prod.fst := by
  by_cases hk : k ∈ m.map Prod.fst
  · rw [map_fst_setKey_of_mem hk]
    exact ⟨.inr, fun h => h.elim (fun h => h ▸ hk) id⟩
  · rw [setKey_of_notMem hk, List.map_append, List.mem_append, or_comm]
    simp

/-- The entries of a map after `set`: the new one, and those of other keys. -/
theorem mem_setKey {k : κ} {v : α} (h : (m.map Prod.fst).Nodup) {f : κ × α} :
    f ∈ setKey k v m ↔ f = (k, v) ∨ f ∈ m ∧ f.1 ≠ k := by
  rw [mem_iff_lookup (nodup_setKey h), lookup_setKey, mem_iff_lookup h]
  by_cases hk : f.1 = k
  · simp [hk, Prod.ext_iff, eq_comm]
  · simp [hk, Prod.ext_iff]

theorem eq_or_mem_of_mem_setKey {k : κ} {v : α} {f : κ × α} : ∀ {m : List (κ × α)}, f ∈ setKey k v m →
    f = (k, v) ∨ f ∈ m
  | [], h => .inl (List.mem_singleton.mp h)
  | (l, w) :: m, h => by
    rw [setKey] at h
    split at h
    · exact (List.mem_cons.mp h).imp id (List.mem_cons_of_mem _)
    · rcases List.mem_cons.mp h with rfl | h
      · exact .inr List.mem_cons_self
      · exact (eq_or_mem_of_mem_setKey h).imp id (List.mem_cons_of_mem _)

theorem nodup_eraseKey {k : κ} (h : (m.map Prod.fst).Nodup) : ((eraseKey k m).map Prod.fst).Nodup :=
  h.sublist (List.filter_sublist.map _)

/-- Reading what a filter of the values leaves. -/
theorem lookup_filter {p : α → Bool} (k : κ) : ∀ {m : List (κ × α)}, (m.map Prod.fst).Nodup →
    (m.filter fun f => p f.2).lookup k = (m.lookup k).filter p
  | [], _ => rfl
  | (j, v) :: m, h => by
    obtain ⟨hj, hn⟩ := List.nodup_cons.mp h
    have ih := lookup_filter (p := p) k hn
    rw [lookup_cons_eq]
    by_cases hp : p v = true
    · rw [List.filter_cons_of_pos (by exact hp), lookup_cons_eq, ih]
      by_cases hk : k = j
      · simp [hk, hp, Option.filter_some]
      · simp [hk]
    · rw [List.filter_cons_of_neg (by exact hp), ih]
      by_cases hk : k = j
      · have hnone : m.lookup k = none := by
          cases hl : m.lookup k with
          | none => rfl
          | some w => exact absurd (List.mem_map_of_mem (f := Prod.fst) (lookup_mem hl)) (hk ▸ hj)
        simp [hk, hp, hk ▸ hnone, Option.filter_some]
      · simp [hk]

theorem setKey_setKey {k : κ} {v w : α} : ∀ m : List (κ × α), setKey k v (setKey k w m) = setKey k v m
  | [] => by simp [setKey]
  | (j, u) :: m => by
    have ih : setKey k v (setKey k w m) = setKey k v m := setKey_setKey m
    by_cases hj : j = k
    · simp [setKey, hj]
    · simp [setKey, hj, ih]

/-- Setting an entry to what it is. -/
theorem setKey_lookup {k : κ} {v : α} : ∀ {m : List (κ × α)}, m.lookup k = some v → setKey k v m = m
  | (j, w) :: m, h => by
    rw [lookup_cons_eq] at h
    by_cases hj : k = j
    · rw [if_pos hj] at h
      rw [setKey, if_pos hj.symm, Option.some.inj h, hj]
    · rw [if_neg hj] at h
      rw [setKey, if_neg (Ne.symm hj), setKey_lookup h]

/-- A value that is replaced later leaves no trace. -/
theorem setKey_replaced {k l : κ} (hne : k ≠ l) {v w w' u : α} : ∀ m : List (κ × α),
    setKey k v (setKey l u (setKey k w m)) = setKey k v (setKey l u (setKey k w' m))
  | [] => by simp [setKey, hne]
  | (j, x) :: m => by
    have ih : setKey k v (setKey l u (setKey k w m)) = setKey k v (setKey l u (setKey k w' m)) := setKey_replaced hne m
    by_cases hj : j = k
    · simp [setKey, hj, hne]
    · by_cases hl : j = l
      · simp [setKey, hl, hne.symm, setKey_setKey]
      · simp [setKey, hj, hl, ih]

/-- What setting an entry adds to a sum over the entries. -/
theorem sum_map_setKey (f : α → Nat) (k : κ) (v : α) : ∀ m : List (κ × α),
    ((setKey k v m).map fun g => f g.2).sum + ((m.lookup k).map f).getD 0 = (m.map fun g => f g.2).sum + f v
  | [] => by simp [setKey]
  | (l, w) :: m => by
    have ih := sum_map_setKey f k v m
    rw [setKey, lookup_cons_eq]
    by_cases hl : l = k
    · rw [if_pos hl, if_pos hl.symm]
      simp only [List.map_cons, List.sum_cons, Option.map_some, Option.getD_some]
      omega
    · rw [if_neg hl, if_neg (Ne.symm hl)]
      simp only [List.map_cons, List.sum_cons]
      omega

/-- Entries set one after the other: of those with one key, the last counts. -/
theorem lookup_foldl_setKey {ι : Type} (key : ι → κ) (value : ι → α) (xs : List ι) (m : List (κ × α)) (k : κ) :
    (xs.foldl (fun m x => setKey (key x) (value x) m) m).lookup k =
      ((xs.reverse.find? fun x => key x = k).map value).or (m.lookup k) := by
  induction xs using List.reverseRecOn with
  | nil => rfl
  | append_singleton xs x ih =>
    rw [List.foldl_concat, lookup_setKey, ih, List.reverse_concat, List.find?_cons]
    by_cases hk : k = key x
    · simp [hk]
    · simp [hk, Ne.symm hk]

end ZkPayroll.Framework
