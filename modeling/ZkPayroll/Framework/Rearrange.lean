import Mathlib.Data.List.Perm.Subperm
import ZkPayroll.Framework.JsonKeys

/-!
# Rearranged objects

A serialiser may drop fields of an object by their keys and put the others in
an order of its own, at every depth. Such a `Rearrangement` does not look at
the values of the fields, so `rearrange` composes (`rearrange_comp`), keeps
keys distinct (`distinctKeys_rearrange`), and is the same for rearrangements
that do the same to fields with distinct keys (`rearrange_congr`). Sorting the
keys is one (`sortKeys_eq_rearrange`), and after it nothing is left of an
order that came before (`sorted_run_of_perm`).
-/

namespace ZkPayroll.Framework

variable {ν : Type}

/-- Induction over a value, with a hypothesis for every item and every
field. -/
@[elab_as_elim] theorem Json.induct {motive : Json ν → Prop} (null : motive .null)
    (bool : ∀ b, motive (.bool b)) (num : ∀ n, motive (.num n)) (str : ∀ s, motive (.str s))
    (arr : ∀ items, (∀ v ∈ items, motive v) → motive (.arr items))
    (obj : ∀ fields : List (String × Json ν), (∀ f ∈ fields, motive f.2) → motive (.obj fields))
    (v : Json ν) : motive v :=
  @Json.rec ν motive (fun items => ∀ v ∈ items, motive v) (fun fields => ∀ f ∈ fields, motive f.2)
    (fun f => motive f.2) null bool num str arr obj (by simp)
    (fun _ _ hv hs => List.forall_mem_cons.mpr ⟨hv, hs⟩) (by simp)
    (fun _ _ hf hs => List.forall_mem_cons.mpr ⟨hf, hs⟩) (fun _ _ hv => hv) v

/-- The fields with a function of their values. -/
def mapValues {β γ : Type} (g : β → γ) (fields : List (String × β)) : List (String × γ) :=
  fields.map fun f => (f.1, g f.2)

theorem mapValues_mapValues {β γ δ : Type} (g : β → γ) (h : γ → δ) (fields : List (String × β)) :
    mapValues h (mapValues g fields) = mapValues (fun v => h (g v)) fields := by
  simp [mapValues]

theorem keys_mapValues {β γ : Type} (g : β → γ) (fields : List (String × β)) :
    (mapValues g fields).map Prod.fst = fields.map Prod.fst := by
  simp [mapValues]

theorem mapValues_congr {β γ : Type} {g h : β → γ} {fields : List (String × β)}
    (heq : ∀ f ∈ fields, g f.2 = h f.2) : mapValues g fields = mapValues h fields :=
  List.map_congr_left fun f hf => congrArg (Prod.mk f.1) (heq f hf)

theorem lookup_mapValues {β γ : Type} (g : β → γ) (fields : List (String × β)) (key : String) :
    (mapValues g fields).lookup key = (fields.lookup key).map g := by
  induction fields with
  | nil => rfl
  | cons f fields ih =>
    obtain ⟨k, v⟩ := f
    simp only [mapValues, List.map_cons, lookup_cons_eq] at ih ⊢
    split
    · rfl
    · exact ih

/-- The order of fields by their keys. -/
def leField {β : Type} (f g : String × β) : Prop := leUnits f.1 g.1

instance {β : Type} : DecidableRel (leField (β := β)) := fun f g => inferInstanceAs (Decidable (leUnits f.1 g.1))

instance {β : Type} : Std.Total (leField (β := β)) := ⟨fun f g => Std.Total.total f.1 g.1⟩

instance {β : Type} : IsTrans (String × β) leField := ⟨fun f g h => IsTrans.trans f.1 g.1 h.1⟩

/-- What can be done to the fields of an object by their keys alone. -/
structure Rearrangement where
  run : {β : Type} → List (String × β) → List (String × β)
  natural {β γ : Type} (g : β → γ) (fields : List (String × β)) :
    run (mapValues g fields) = mapValues g (run fields)
  subperm {β : Type} (fields : List (String × β)) : (run fields).Subperm fields

namespace Rearrangement

/-- First `ψ`, then `φ`. -/
def comp (φ ψ : Rearrangement) : Rearrangement where
  run fields := φ.run (ψ.run fields)
  natural g fields := by rw [ψ.natural, φ.natural]
  subperm fields := (φ.subperm _).trans (ψ.subperm fields)

/-- The fields whose keys satisfy `p`. -/
def keep (p : String → Bool) : Rearrangement where
  run fields := fields.filter fun f => p f.1
  natural g fields := by
    rw [mapValues, mapValues, List.filter_map]
    rfl
  subperm _ := List.filter_sublist.subperm

/-- The fields in the order of their keys. -/
def sorted : Rearrangement where
  run fields := fields.insertionSort leField
  natural g fields :=
    (List.map_insertionSort leField leField (fun f => (f.1, g f.2)) fields fun _ _ _ _ => Iff.rfl).symm
  subperm _ := (List.perm_insertionSort _ _).subperm

variable {β : Type} {fields : List (String × β)}

theorem nodup_run (φ : Rearrangement) (h : (fields.map Prod.fst).Nodup) :
    ((φ.run fields).map Prod.fst).Nodup := by
  obtain ⟨l, hperm, hsub⟩ := φ.subperm fields
  exact ((hperm.map Prod.fst).nodup_iff).mp ((hsub.map Prod.fst).nodup h)

theorem mem_run (φ : Rearrangement) {f : String × β}
    (h : f ∈ φ.run fields) : f ∈ fields := (φ.subperm fields).subset h

/-- Fields with distinct keys have one order. -/
theorem sorted_run_of_perm {fields fields' : List (String × β)} (h : fields.Perm fields')
    (hn : (fields.map Prod.fst).Nodup) : sorted.run fields = sorted.run fields' := by
  have hfields := List.perm_insertionSort leField fields
  have hfields' := List.perm_insertionSort leField fields'
  refine List.Perm.eq_of_pairwise (fun f g hf hg hfg hgf => ?_) (List.pairwise_insertionSort _ _)
    (List.pairwise_insertionSort _ _) (hfields.trans (h.trans hfields'.symm))
  have hf' : f ∈ fields := hfields.mem_iff.mp hf
  have hg' : g ∈ fields := h.mem_iff.mpr (hfields'.mem_iff.mp hg)
  exact List.inj_on_of_nodup_map hn hf' hg' (leUnits_antisymm hfg hgf)

theorem sorted_run_perm (fields : List (String × β)) : (sorted.run fields).Perm fields :=
  List.perm_insertionSort _ _

/-- Fields can be dropped before they are sorted or after. -/
theorem keep_sorted (p : String → Bool) (hn : (fields.map Prod.fst).Nodup) :
    (keep p).run (sorted.run fields) = sorted.run ((keep p).run fields) := by
  have hpair : ((keep p).run (sorted.run fields)).Pairwise leField :=
    (List.pairwise_insertionSort leField fields).sublist List.filter_sublist
  have hfix : sorted.run ((keep p).run (sorted.run fields)) = (keep p).run (sorted.run fields) :=
    List.Pairwise.insertionSort_eq hpair
  rw [← hfix]
  exact sorted_run_of_perm ((sorted_run_perm fields).filter _) ((keep p).nodup_run (sorted.nodup_run hn))

end Rearrangement

mutual

/-- The value with the fields of every object, at every depth, rearranged. -/
def rearrange (φ : Rearrangement) : Json ν → Json ν
  | .arr items => .arr (rearrangeItems φ items)
  | .obj fields => .obj (φ.run (rearrangeFields φ fields))
  | v => v

/-- Item by item. -/
def rearrangeItems (φ : Rearrangement) : List (Json ν) → List (Json ν)
  | [] => []
  | v :: items => rearrange φ v :: rearrangeItems φ items

/-- Field by field. -/
def rearrangeFields (φ : Rearrangement) : List (String × Json ν) → List (String × Json ν)
  | [] => []
  | (k, v) :: fields => (k, rearrange φ v) :: rearrangeFields φ fields

end

variable (φ : Rearrangement)

theorem rearrangeItems_eq_map (items : List (Json ν)) :
    rearrangeItems φ items = items.map (rearrange φ) := by
  induction items with
  | nil => rfl
  | cons v items ih => rw [rearrangeItems, ih, List.map_cons]

theorem rearrangeFields_eq_mapValues (fields : List (String × Json ν)) :
    rearrangeFields φ fields = mapValues (rearrange φ) fields := by
  induction fields with
  | nil => rfl
  | cons f fields ih =>
    obtain ⟨k, v⟩ := f
    rw [rearrangeFields, ih]
    rfl

theorem rearrange_arr (items : List (Json ν)) :
    rearrange φ (.arr items) = .arr (items.map (rearrange φ)) := by
  rw [rearrange, rearrangeItems_eq_map]

theorem rearrange_obj (fields : List (String × Json ν)) :
    rearrange φ (.obj fields) = .obj (φ.run (mapValues (rearrange φ) fields)) := by
  rw [rearrange, rearrangeFields_eq_mapValues]

theorem rearrange_comp (φ ψ : Rearrangement) (v : Json ν) :
    rearrange φ (rearrange ψ v) = rearrange (φ.comp ψ) v := by
  induction v using Json.induct with
  | null => rfl
  | bool b => rfl
  | num n => rfl
  | str s => rfl
  | arr items ih =>
    rw [rearrange_arr, rearrange_arr, rearrange_arr, List.map_map]
    exact congrArg Json.arr (List.map_congr_left ih)
  | obj fields ih =>
    rw [rearrange_obj, rearrange_obj, rearrange_obj, ← ψ.natural, mapValues_mapValues, mapValues_congr ih]
    rfl

theorem distinctItems_iff {items : List (Json ν)} : DistinctItems items ↔ ∀ v ∈ items, DistinctKeys v := by
  induction items with
  | nil => simp [DistinctItems]
  | cons v items ih => simp [DistinctItems, ih]

variable {v : Json ν}

theorem distinctKeys_rearrange (h : DistinctKeys v) : DistinctKeys (rearrange φ v) := by
  induction v using Json.induct with
  | null => trivial
  | bool b => trivial
  | num n => trivial
  | str s => trivial
  | arr items ih =>
    rw [rearrange_arr, DistinctKeys, distinctItems_iff, List.forall_mem_map]
    rw [DistinctKeys, distinctItems_iff] at h
    exact fun v hv => ih v hv (h v hv)
  | obj fields ih =>
    rw [rearrange_obj, DistinctKeys, distinctFields_iff]
    rw [DistinctKeys, distinctFields_iff] at h
    refine ⟨φ.nodup_run (by rw [keys_mapValues]; exact h.1), fun f hf => ?_⟩
    obtain ⟨g, hg, rfl⟩ := List.mem_map.mp (φ.mem_run hf)
    exact ih g hg (h.2 g hg)

/-- Rearrangements that agree on distinct keys do the same to a value. -/
theorem rearrange_congr {φ ψ : Rearrangement} (hv : DistinctKeys v)
    (h : ∀ fields : List (String × Json ν), (fields.map Prod.fst).Nodup → φ.run fields = ψ.run fields) :
    rearrange φ v = rearrange ψ v := by
  induction v using Json.induct with
  | null => rfl
  | bool b => rfl
  | num n => rfl
  | str s => rfl
  | arr items ih =>
    rw [DistinctKeys, distinctItems_iff] at hv
    rw [rearrange_arr, rearrange_arr]
    exact congrArg Json.arr (List.map_congr_left fun v hv' => ih v hv' (hv v hv'))
  | obj fields ih =>
    rw [DistinctKeys, distinctFields_iff] at hv
    rw [rearrange_obj, rearrange_obj, mapValues_congr fun f hf => ih f hf (hv.2 f hf),
      h _ (by rw [keys_mapValues]; exact hv.1)]

theorem sortKeys_eq_rearrange (v : Json ν) : sortKeys v = rearrange .sorted v := by
  induction v using Json.induct with
  | null => rfl
  | bool b => rfl
  | num n => rfl
  | str s => rfl
  | arr items ih =>
    have hitems : ∀ items : List (Json ν), sortKeysItems items = items.map sortKeys := by
      intro items
      induction items with
      | nil => rfl
      | cons v items ih => rw [sortKeysItems, ih, List.map_cons]
    rw [sortKeys, hitems, rearrange_arr]
    exact congrArg Json.arr (List.map_congr_left ih)
  | obj fields ih =>
    rw [sortKeys, sortKeysFields_eq_map, rearrange_obj, ← mapValues_congr ih]
    rfl

theorem sameJson_iff {v w : Json ν} : SameJson v w ↔ rearrange .sorted v = rearrange .sorted w := by
  rw [SameJson, sortKeys_eq_rearrange, sortKeys_eq_rearrange]

/-! ## Keys -/

mutual

/-- The keys of all objects in a value. -/
def keysOf : Json ν → List String
  | .arr items => keysOfItems items
  | .obj fields => fields.map Prod.fst ++ keysOfFields fields
  | _ => []

/-- Item by item. -/
def keysOfItems : List (Json ν) → List String
  | [] => []
  | v :: items => keysOf v ++ keysOfItems items

/-- Field by field. -/
def keysOfFields : List (String × Json ν) → List String
  | [] => []
  | (_, v) :: fields => keysOf v ++ keysOfFields fields

end

variable {k : String}

theorem mem_keysOf_arr {items : List (Json ν)} :
    k ∈ keysOf (.arr items) ↔ ∃ v ∈ items, k ∈ keysOf v := by
  rw [keysOf]
  induction items with
  | nil => simp [keysOfItems]
  | cons v items ih => simp [keysOfItems, ih]

theorem mem_keysOf_obj {fields : List (String × Json ν)} :
    k ∈ keysOf (.obj fields) ↔ ∃ f ∈ fields, k = f.1 ∨ k ∈ keysOf f.2 := by
  have hfields : ∀ fields : List (String × Json ν), k ∈ keysOfFields fields ↔ ∃ f ∈ fields, k ∈ keysOf f.2 := by
    intro fields
    induction fields with
    | nil => simp [keysOfFields]
    | cons f fields ih => simp [keysOfFields, ih]
  rw [keysOf, List.mem_append, hfields, List.mem_map]
  constructor
  · rintro (⟨f, hf, rfl⟩ | ⟨f, hf, hk⟩)
    · exact ⟨f, hf, .inl rfl⟩
    · exact ⟨f, hf, .inr hk⟩
  · rintro ⟨f, hf, rfl | hk⟩
    · exact .inl ⟨f, hf, rfl⟩
    · exact .inr ⟨f, hf, hk⟩

/-- Reordering keeps the keys. -/
theorem mem_keysOf_rearrange {φ : Rearrangement} (hφ : ∀ fields : List (String × Json ν), (φ.run fields).Perm fields)
    : k ∈ keysOf (rearrange φ v) ↔ k ∈ keysOf v := by
  induction v using Json.induct with
  | null => rfl
  | bool b => rfl
  | num n => rfl
  | str s => rfl
  | arr items ih =>
    rw [rearrange_arr, mem_keysOf_arr, mem_keysOf_arr]
    constructor
    · rintro ⟨_, hmem, hk⟩
      obtain ⟨v, hv, rfl⟩ := List.mem_map.mp hmem
      exact ⟨v, hv, (ih v hv).mp hk⟩
    · rintro ⟨v, hv, hk⟩
      exact ⟨_, List.mem_map_of_mem hv, (ih v hv).mpr hk⟩
  | obj fields ih =>
    simp only [rearrange_obj, mem_keysOf_obj, (hφ _).mem_iff]
    constructor
    · rintro ⟨_, hmem, hk⟩
      obtain ⟨f, hf, rfl⟩ := List.mem_map.mp hmem
      exact ⟨f, hf, hk.imp id (ih f hf).mp⟩
    · rintro ⟨f, hf, hk⟩
      exact ⟨_, List.mem_map.mpr ⟨f, hf, rfl⟩, hk.imp id (ih f hf).mpr⟩

theorem pass_of_mem_keysOf_keep {p : String → Bool}
    (h : k ∈ keysOf (rearrange (.keep p) v)) : p k = true := by
  induction v using Json.induct with
  | null => simp [rearrange, keysOf] at h
  | bool b => simp [rearrange, keysOf] at h
  | num n => simp [rearrange, keysOf] at h
  | str s => simp [rearrange, keysOf] at h
  | arr items ih =>
    rw [rearrange_arr, mem_keysOf_arr] at h
    obtain ⟨_, hmem, hk⟩ := h
    obtain ⟨v, hv, rfl⟩ := List.mem_map.mp hmem
    exact ih v hv hk
  | obj fields ih =>
    rw [rearrange_obj, mem_keysOf_obj] at h
    obtain ⟨_, hmem, hk⟩ := h
    obtain ⟨hmem, hp⟩ := List.mem_filter.mp hmem
    obtain ⟨f, hf, rfl⟩ := List.mem_map.mp hmem
    rcases hk with rfl | hk
    · exact hp
    · exact ih f hf hk

/-- A value all of whose keys are kept is left as it is. -/
theorem rearrange_keep_eq_self {p : String → Bool} (h : ∀ k ∈ keysOf v, p k = true) :
    rearrange (.keep p) v = v := by
  induction v using Json.induct with
  | null => rfl
  | bool b => rfl
  | num n => rfl
  | str s => rfl
  | arr items ih =>
    rw [rearrange_arr]
    refine congrArg Json.arr ((List.map_congr_left fun v hv => ?_).trans (List.map_id items))
    exact ih v hv fun k hk => h k (mem_keysOf_arr.mpr ⟨v, hv, hk⟩)
  | obj fields ih =>
    have hvalues : mapValues (rearrange (.keep p)) fields = fields := by
      refine (mapValues_congr (h := id) fun f hf => ?_).trans (List.map_id fields)
      exact ih f hf fun k hk => h k (mem_keysOf_obj.mpr ⟨f, hf, .inr hk⟩)
    rw [rearrange_obj, hvalues]
    refine congrArg Json.obj (List.filter_eq_self.mpr fun f hf => ?_)
    exact h f.1 (mem_keysOf_obj.mpr ⟨f, hf, .inl rfl⟩)

end ZkPayroll.Framework
