import Mathlib.Data.List.Induction
import Mathlib.Data.List.Sort
import Mathlib.Order.Basic
import Mathlib.Order.Lattice
import ZkPayroll.Framework.Maps

/-!
# Items with keys

A map that keeps of the items of a list the newest of each key, the first one
where several are as new (`newestByKey`). An item without a key is passed over.

A list is sorted by a key in one way only where no two of its items have the
same key. So a filter may be taken before or after the sorting
(`filter_sortByKey`), and two keys sort a list alike just when they order any
two of its items alike (`sortByKey_eq_iff`).
-/

namespace ZkPayroll.Framework

/-! ## The newest of each key -/

section Newest

variable {ι κ τ : Type} [DecidableEq κ] [LinearOrder τ] {key : ι → Option κ} {time : ι → τ}

/-- `if (!existing || time(x) > time(existing)) map.set(key(x), x)`. -/
def keepNewest (key : ι → Option κ) (time : ι → τ) (m : List (κ × ι)) (x : ι) : List (κ × ι) :=
  match key x with
  | none => m
  | some k =>
    match m.lookup k with
    | none => setKey k x m
    | some y => if time x > time y then setKey k x m else m

/-- For each key, the newest. -/
def newestByKey (key : ι → Option κ) (time : ι → τ) (xs : List ι) : List (κ × ι) :=
  xs.foldl (keepNewest key time) []

/-- Of the items with its key, the one at the place `i` is the first of the
newest. -/
def IsNewest (key : ι → Option κ) (time : ι → τ) (xs : List ι) (i : Nat) : Prop :=
  ∃ x, xs[i]? = some x ∧ ∀ j y, xs[j]? = some y → key y = key x → time y ≤ time x ∧ (j < i → time y < time x)

omit [DecidableEq κ] in
theorem IsNewest.unique {xs : List ι} {i j : Nat} {x y : ι} (hi : IsNewest key time xs i)
    (hj : IsNewest key time xs j) (hx : xs[i]? = some x) (hy : xs[j]? = some y) (hkey : key x = key y) : i = j := by
  obtain ⟨x', hx', hnew⟩ := hi
  obtain ⟨y', hy', hnew'⟩ := hj
  obtain rfl : x = x' := Option.some.inj (hx.symm.trans hx')
  obtain rfl : y = y' := Option.some.inj (hy.symm.trans hy')
  rcases Nat.lt_trichotomy i j with h | h | h
  · exact absurd ((hnew' i x hx hkey).2 h) (not_lt.mpr (hnew j y hy hkey.symm).1)
  · exact h
  · exact absurd ((hnew j y hy hkey.symm).2 h) (not_lt.mpr (hnew' i x hx hkey).1)

variable (time) in
theorem lookup_keepNewest {m : List (κ × ι)} {x : ι} {k : κ} (hx : key x = some k) :
    (keepNewest key time m x).lookup k = some x ∧ (∀ y, m.lookup k = some y → time y < time x) ∨
      ∃ y, (keepNewest key time m x).lookup k = some y ∧ m.lookup k = some y ∧ time x ≤ time y := by
  simp only [keepNewest, hx]
  split
  · rename_i hl
    left
    rw [lookup_setKey, if_pos rfl, hl]
    exact ⟨rfl, nofun⟩
  · rename_i y hl
    split
    · rename_i ht
      left
      rw [lookup_setKey, if_pos rfl, hl]
      exact ⟨rfl, fun z hz => Option.some.inj hz ▸ ht⟩
    · rename_i ht
      exact .inr ⟨y, hl, hl, not_lt.mp ht⟩

theorem lookup_keepNewest_of_ne {m : List (κ × ι)} {x : ι} {k : κ} (hx : key x ≠ some k) :
    (keepNewest key time m x).lookup k = m.lookup k := by
  unfold keepNewest
  split
  · rfl
  · rename_i l hl
    have hne : k ≠ l := fun h => hx (h ▸ hl)
    split
    · rw [lookup_setKey, if_neg hne]
    · split
      · rw [lookup_setKey, if_neg hne]
      · rfl

variable (time) in
theorem lookup_newestByKey_isSome {xs : List ι} {k : κ} {x : ι} (hx : x ∈ xs) (hk : key x = some k) :
    ∃ y, (newestByKey key time xs).lookup k = some y := by
  induction xs using List.reverseRecOn with
  | nil => exact nomatch hx
  | append_singleton xs z ih =>
    rw [newestByKey, List.foldl_append, List.foldl_cons, List.foldl_nil, ← newestByKey]
    by_cases hz : key z = some k
    · rcases lookup_keepNewest time hz with ⟨h, -⟩ | ⟨y, h, -⟩
      · exact ⟨z, h⟩
      · exact ⟨y, h⟩
    · rw [lookup_keepNewest_of_ne hz]
      refine ih ?_
      rcases List.mem_append.mp hx with hx | hx
      · exact hx
      · exact absurd (List.mem_singleton.mp hx ▸ hk) hz

theorem newest_of_lookup {xs : List ι} {k : κ} {x : ι} (h : (newestByKey key time xs).lookup k = some x) :
    ∃ i, xs[i]? = some x ∧ key x = some k ∧ IsNewest key time xs i := by
  induction xs using List.reverseRecOn generalizing x with
  | nil => exact nomatch h
  | append_singleton xs z ih =>
    rw [newestByKey, List.foldl_append, List.foldl_cons, List.foldl_nil, ← newestByKey] at h
    -- an older item keeps its place
    have hold {y : ι} (hl : (newestByKey key time xs).lookup k = some y) (hz : key z = some k → time z ≤ time y) :
        ∃ i, (xs ++ [z])[i]? = some y ∧ key y = some k ∧ IsNewest key time (xs ++ [z]) i := by
      obtain ⟨i, hi, hk, y', hy', hnew⟩ := ih hl
      obtain rfl : y = y' := Option.some.inj (hi.symm.trans hy')
      have hlt : i < xs.length := (List.getElem?_eq_some_iff.mp hi).1
      have hi' : (xs ++ [z])[i]? = some y := (getElem?_concat_iff xs z i y).mpr (.inl hi)
      refine ⟨i, hi', hk, y, hi', fun j u hu hkey => ?_⟩
      rcases (getElem?_concat_iff xs z j u).mp hu with hu | ⟨rfl, rfl⟩
      · exact hnew j u hu hkey
      · exact ⟨hz (hkey.trans hk), fun hj => absurd hj (by omega)⟩
    by_cases hz : key z = some k
    · rcases lookup_keepNewest time hz with ⟨hl, hnew⟩ | ⟨y, hl, hm, ht⟩
      · obtain rfl : z = x := Option.some.inj (hl.symm.trans h)
        have hself : (xs ++ [z])[xs.length]? = some z := (getElem?_concat_iff xs z _ z).mpr (.inr ⟨rfl, rfl⟩)
        refine ⟨xs.length, hself, hz, z, hself, fun j u hu hkey => ?_⟩
        rcases (getElem?_concat_iff xs z j u).mp hu with hu | ⟨rfl, rfl⟩
        · obtain ⟨y, hy⟩ := lookup_newestByKey_isSome time (List.mem_of_getElem? hu) (hkey.trans hz)
          obtain ⟨i, hi, hk, y', hy', hmax⟩ := ih hy
          obtain rfl : y = y' := Option.some.inj (hi.symm.trans hy')
          have hlt : time u < time z := lt_of_le_of_lt (hmax j u hu ((hkey.trans hz).trans hk.symm)).1 (hnew y hy)
          exact ⟨hlt.le, fun _ => hlt⟩
        · exact ⟨le_rfl, fun hj => absurd hj (Nat.lt_irrefl _)⟩
      · obtain rfl : y = x := Option.some.inj (hl.symm.trans h)
        exact hold hm fun _ => ht
    · rw [lookup_keepNewest_of_ne hz] at h
      exact hold h fun hk => absurd hk hz

/-- The map keeps the newest item of each key. -/
theorem lookup_newestByKey {xs : List ι} {i : Nat} {x : ι} {k : κ} (hx : xs[i]? = some x) (hk : key x = some k)
    (hnew : IsNewest key time xs i) : (newestByKey key time xs).lookup k = some x := by
  obtain ⟨y, hy⟩ := lookup_newestByKey_isSome time (List.mem_of_getElem? hx) hk
  obtain ⟨j, hj, hk', hnew'⟩ := newest_of_lookup hy
  obtain rfl : i = j := hnew.unique hnew' hx hj (hk.trans hk'.symm)
  rw [hy, ← hj, hx]

end Newest

/-! ## Sorting by a key -/

section Sorted

variable {α κ : Type} [LinearOrder κ]

/-- The items are told apart by the key. -/
def Apart (key : α → κ) (l : List α) : Prop := ∀ a ∈ l, ∀ b ∈ l, key a = key b → a = b

/-- Sorted by a key, and stably. -/
def sortByKey (key : α → κ) (l : List α) : List α := l.insertionSort fun a b => key a ≤ key b

theorem sortByKey_perm (key : α → κ) (l : List α) : (sortByKey key l).Perm l := List.perm_insertionSort _ l

theorem sortByKey_sorted (key : α → κ) (l : List α) : (sortByKey key l).Pairwise fun a b => key a ≤ key b := by
  have htotal : Std.Total fun a b => key a ≤ key b := ⟨fun a b => le_total (key a) (key b)⟩
  have htrans : IsTrans α fun a b => key a ≤ key b := ⟨fun _ _ _ => le_trans⟩
  exact List.pairwise_insertionSort _ l

/-- A list that is sorted is the one that sorting makes. -/
theorem eq_sortByKey {key : α → κ} {l m : List α} (hapart : Apart key m) (hperm : l.Perm m)
    (hsorted : l.Pairwise fun a b => key a ≤ key b) : l = sortByKey key m := by
  refine List.Perm.eq_of_pairwise (fun a b ha hb hab hba => ?_) hsorted (sortByKey_sorted key m)
    (hperm.trans (sortByKey_perm key m).symm)
  exact hapart a (hperm.mem_iff.mp ha) b ((sortByKey_perm key m).mem_iff.mp hb) (le_antisymm hab hba)

theorem filter_sortByKey {key : α → κ} {l : List α} (hapart : Apart key l) (p : α → Bool) :
    (sortByKey key l).filter p = sortByKey key (l.filter p) := by
  refine eq_sortByKey (fun a ha b hb => ?_) ((sortByKey_perm key l).filter p) ((sortByKey_sorted key l).filter p)
  exact hapart a (List.mem_of_mem_filter ha) b (List.mem_of_mem_filter hb)

theorem map_sortByKey {β : Type} (f : α → β) (key : β → κ) (l : List α) :
    sortByKey key (l.map f) = (sortByKey (fun a => key (f a)) l).map f :=
  (List.map_insertionSort _ _ f l fun _ _ _ _ => Iff.rfl).symm

/-- A function that tells the items of two lists apart tells the lists apart. -/
theorem eq_of_map_eq {β : Type} {f : α → β} : ∀ {l m : List α}, (∀ a ∈ l, ∀ b ∈ m, f a = f b → a = b) →
    l.map f = m.map f → l = m
  | [], [], _, _ => rfl
  | a :: l, b :: m, hinj, h => by
    obtain ⟨hhead, htail⟩ := List.cons.inj h
    have hab : a = b := hinj a List.mem_cons_self b List.mem_cons_self hhead
    have hlm : l = m := eq_of_map_eq
      (fun c hc d hd => hinj c (List.mem_cons_of_mem a hc) d (List.mem_cons_of_mem b hd)) htail
    rw [hab, hlm]
  | [], _ :: _, _, h => by cases h
  | _ :: _, [], _, h => by cases h

/-- Items in the order of both keys are never ordered by one against the other. -/
theorem le_of_sorted_both {f g : α → κ} {l : List α} (hf : l.Pairwise fun a b => f a ≤ f b)
    (hg : l.Pairwise fun a b => g a ≤ g b) (hapart : Apart f l) {a b : α} (ha : a ∈ l) (hb : b ∈ l) (h : f a ≤ f b) :
    g a ≤ g b := by
  obtain ⟨i, hi, rfl⟩ := List.mem_iff_getElem.mp ha
  obtain ⟨j, hj, rfl⟩ := List.mem_iff_getElem.mp hb
  rcases Nat.lt_trichotomy i j with hij | rfl | hij
  · exact List.pairwise_iff_getElem.mp hg i j hi hj hij
  · exact le_rfl
  · have hback := List.pairwise_iff_getElem.mp hf j i hj hi hij
    rw [hapart _ ha _ hb (le_antisymm h hback)]

theorem sortByKey_eq_iff {f g : α → κ} {l : List α} (hf : Apart f l) (hg : Apart g l) :
    sortByKey f l = sortByKey g l ↔ ∀ a ∈ l, ∀ b ∈ l, f a ≤ f b ↔ g a ≤ g b := by
  constructor
  · intro h a ha b hb
    have hsorted := sortByKey_sorted g l
    rw [← h] at hsorted
    have hperm := sortByKey_perm f l
    have hapart : ∀ {key : α → κ}, Apart key l → Apart key (sortByKey f l) := fun hkey a ha b hb =>
      hkey a (hperm.mem_iff.mp ha) b (hperm.mem_iff.mp hb)
    exact ⟨le_of_sorted_both (sortByKey_sorted f l) hsorted (hapart hf) (hperm.mem_iff.mpr ha) (hperm.mem_iff.mpr hb),
      le_of_sorted_both hsorted (sortByKey_sorted f l) (hapart hg) (hperm.mem_iff.mpr ha) (hperm.mem_iff.mpr hb)⟩
  · intro h
    have hperm := sortByKey_perm f l
    refine eq_sortByKey hg hperm ((sortByKey_sorted f l).imp_of_mem fun {a b} ha hb hab => ?_)
    exact (h a (hperm.mem_iff.mp ha) b (hperm.mem_iff.mp hb)).mp hab

/-- Two keys that order two items alike one way do so the other way. -/
theorem sameOrder_symm {f g : α → κ} {a b : α} (hf : f a ≠ f b) (hg : g a ≠ g b) (h : f a ≤ f b ↔ g a ≤ g b) :
    f b ≤ f a ↔ g b ≤ g a := by
  rw [← not_lt, ← not_lt, ← hf.le_iff_lt, ← hg.le_iff_lt, h]

end Sorted

end ZkPayroll.Framework
