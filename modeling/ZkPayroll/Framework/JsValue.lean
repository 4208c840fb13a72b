import ZkPayroll.Framework.Rearrange

/-!
# Values in memory and what JSON keeps of them

A number in memory may be `NaN` or infinite (`JsNumber`), and JSON writes such
a number as `null` (`written`). So a value is determined by what is written
exactly when it has neither a `null` nor such a number (`Writable`,
`sameJson_of_written`, `exists_written_eq_of_not_writable`). Both are facts
about the atoms of a value, its nulls and numbers (`atoms`, `mapAtoms`).
A property whose value is `undefined` counts as absent.
-/

namespace ZkPayroll.Framework

variable {ν μ : Type}

/-! ## Atoms -/

/-- A null or a number. -/
def ofAtom : Option ν → Json ν
  | none => .null
  | some n => .num n

mutual

/-- The value with each null and each number replaced. -/
def mapAtoms (f : Option ν → Option μ) : Json ν → Json μ
  | .null => ofAtom (f none)
  | .num n => ofAtom (f (some n))
  | .bool b => .bool b
  | .str s => .str s
  | .arr items => .arr (mapAtomsItems f items)
  | .obj fields => .obj (mapAtomsFields f fields)

/-- Item by item. -/
def mapAtomsItems (f : Option ν → Option μ) : List (Json ν) → List (Json μ)
  | [] => []
  | v :: items => mapAtoms f v :: mapAtomsItems f items

/-- Field by field. -/
def mapAtomsFields (f : Option ν → Option μ) : List (String × Json ν) → List (String × Json μ)
  | [] => []
  | (k, v) :: fields => (k, mapAtoms f v) :: mapAtomsFields f fields

end

mutual

/-- The nulls (`none`) and the numbers of a value. -/
def atoms : Json ν → List (Option ν)
  | .null => [none]
  | .num n => [some n]
  | .bool _ => []
  | .str _ => []
  | .arr items => atomsItems items
  | .obj fields => atomsFields fields

/-- Item by item. -/
def atomsItems : List (Json ν) → List (Option ν)
  | [] => []
  | v :: items => atoms v ++ atomsItems items

/-- Field by field. -/
def atomsFields : List (String × Json ν) → List (Option ν)
  | [] => []
  | (_, v) :: fields => atoms v ++ atomsFields fields

end

theorem ofAtom_injective : Function.Injective (ofAtom (ν := ν)) := by
  intro a b h
  cases a <;> cases b <;> simp_all [ofAtom]

variable (f : Option ν → Option μ)

theorem mapAtomsItems_eq_map (items : List (Json ν)) :
    mapAtomsItems f items = items.map (mapAtoms f) := by
  induction items with
  | nil => rfl
  | cons v items ih => rw [mapAtomsItems, ih, List.map_cons]

theorem mapAtomsFields_eq_map (fields : List (String × Json ν)) :
    mapAtomsFields f fields = mapValues (mapAtoms f) fields := by
  induction fields with
  | nil => rfl
  | cons p fields ih =>
    obtain ⟨k, v⟩ := p
    rw [mapAtomsFields, ih]
    rfl

variable {a : Option ν}

theorem mem_atomsItems {items : List (Json ν)} :
    a ∈ atomsItems items ↔ ∃ v ∈ items, a ∈ atoms v := by
  induction items with
  | nil => simp [atomsItems]
  | cons v items ih => simp [atomsItems, ih]

theorem mem_atomsFields {fields : List (String × Json ν)} :
    a ∈ atomsFields fields ↔ ∃ f ∈ fields, a ∈ atoms f.2 := by
  induction fields with
  | nil => simp [atomsFields]
  | cons f fields ih => simp [atomsFields, ih]

/-- Whether the value is a null or a number. -/
def isAtom : Json ν → Bool
  | .null => true
  | .num _ => true
  | _ => false

theorem isAtom_mapAtoms (v : Json ν) : isAtom (mapAtoms f v) = isAtom v := by
  have hatom : ∀ a : Option μ, isAtom (ofAtom a) = true := by
    intro a
    cases a <;> rfl
  cases v with
  | null => exact hatom _
  | num n => exact hatom _
  | _ => rfl

theorem isAtom_eq_of_mapAtoms_eq {f : Option ν → Option μ} {v w : Json ν}
    (h : mapAtoms f v = mapAtoms f w) : isAtom v = isAtom w := by
  rw [← isAtom_mapAtoms f v, h, isAtom_mapAtoms]

/-- Rearranging does not look at the atoms. -/
theorem rearrange_mapAtoms (φ : Rearrangement) (f : Option ν → Option μ) (v : Json ν) :
    rearrange φ (mapAtoms f v) = mapAtoms f (rearrange φ v) := by
  have hatom : ∀ a : Option μ, rearrange φ (ofAtom a) = ofAtom a := by
    intro a
    cases a <;> rfl
  induction v using Json.induct with
  | null => exact hatom _
  | num n => exact hatom _
  | bool b => rfl
  | str s => rfl
  | arr items ih =>
    simp only [mapAtoms, rearrange_arr, mapAtomsItems_eq_map, List.map_map]
    exact congrArg Json.arr (List.map_congr_left ih)
  | obj fields ih =>
    simp only [mapAtoms, rearrange_obj, mapAtomsFields_eq_map]
    rw [← φ.natural, mapValues_mapValues, mapValues_mapValues,
      mapValues_congr (h := fun v => mapAtoms f (rearrange φ v)) ih]

theorem sortKeys_mapAtoms (v : Json ν) : sortKeys (mapAtoms f v) = mapAtoms f (sortKeys v) := by
  rw [sortKeys_eq_rearrange, sortKeys_eq_rearrange, rearrange_mapAtoms]

variable {v : Json ν}

/-- Rearranging makes no new atoms. -/
theorem mem_atoms_of_rearrange {φ : Rearrangement} (h : a ∈ atoms (rearrange φ v)) :
    a ∈ atoms v := by
  induction v using Json.induct with
  | null => exact h
  | num n => exact h
  | bool b => exact h
  | str s => exact h
  | arr items ih =>
    rw [rearrange_arr, atoms, mem_atomsItems] at h
    obtain ⟨_, hmem, ha⟩ := h
    obtain ⟨v, hv, rfl⟩ := List.mem_map.mp hmem
    exact mem_atomsItems.mpr ⟨v, hv, ih v hv ha⟩
  | obj fields ih =>
    rw [rearrange_obj, atoms, mem_atomsFields] at h
    obtain ⟨_, hmem, ha⟩ := h
    obtain ⟨f, hf, rfl⟩ := List.mem_map.mp (φ.mem_run hmem)
    exact mem_atomsFields.mpr ⟨f, hf, ih f hf ha⟩

/-- Reordering keeps the atoms. -/
theorem mem_atoms_rearrange {φ : Rearrangement} (hφ : ∀ fields : List (String × Json ν), (φ.run fields).Perm fields)
    : a ∈ atoms (rearrange φ v) ↔ a ∈ atoms v := by
  refine ⟨mem_atoms_of_rearrange, fun h => ?_⟩
  induction v using Json.induct with
  | null => exact h
  | num n => exact h
  | bool b => exact h
  | str s => exact h
  | arr items ih =>
    obtain ⟨v, hv, ha⟩ := mem_atomsItems.mp h
    rw [rearrange_arr]
    exact mem_atomsItems.mpr ⟨_, List.mem_map_of_mem hv, ih v hv ha⟩
  | obj fields ih =>
    obtain ⟨f, hf, ha⟩ := mem_atomsFields.mp h
    rw [rearrange_obj]
    exact mem_atomsFields.mpr ⟨_, (hφ _).mem_iff.mpr (List.mem_map.mpr ⟨f, hf, rfl⟩), ih f hf ha⟩

theorem mem_atoms_sortKeys : a ∈ atoms (sortKeys v) ↔ a ∈ atoms v := by
  rw [sortKeys_eq_rearrange]
  exact mem_atoms_rearrange Rearrangement.sorted_run_perm

theorem distinctKeys_mapAtoms (h : DistinctKeys v) : DistinctKeys (mapAtoms f v) := by
  have hatom : ∀ a : Option μ, DistinctKeys (ofAtom a) := by
    intro a
    cases a <;> trivial
  induction v using Json.induct with
  | null => exact hatom _
  | num n => exact hatom _
  | bool b => trivial
  | str s => trivial
  | arr items ih =>
    simp only [mapAtoms, DistinctKeys, distinctItems_iff, mapAtomsItems_eq_map, List.forall_mem_map] at h ⊢
    exact fun v hv => ih v hv (h v hv)
  | obj fields ih =>
    rw [DistinctKeys, distinctFields_iff] at h
    rw [mapAtoms, mapAtomsFields_eq_map, DistinctKeys, distinctFields_iff, keys_mapValues]
    exact ⟨h.1, List.forall_mem_map.mpr fun p hp => ih p hp (h.2 p hp)⟩

theorem distinctKeys_sortKeys (h : DistinctKeys v) : DistinctKeys (sortKeys v) := by
  rw [sortKeys_eq_rearrange]
  exact distinctKeys_rearrange _ h

/-- A map that no other atom of a value shares an image under gives back the
value. -/
theorem mapAtoms_inj {f : Option ν → Option μ} {v w : Json ν} (hf : ∀ a ∈ atoms w, ∀ b, f b = f a → b = a)
    (h : mapAtoms f v = mapAtoms f w) : v = w := by
  have hlist : ∀ {α β : Type} {g : α → β} {xs ys : List α}, (∀ y ∈ ys, ∀ x, g x = g y → x = y) →
      xs.map g = ys.map g → xs = ys := by
    intro α β g xs ys hg
    induction ys generalizing xs with
    | nil => simp
    | cons y ys ih =>
      intro h
      obtain ⟨x, xs, rfl, hx, hxs⟩ := List.map_eq_cons_iff.mp h
      rw [hg y List.mem_cons_self x hx, ih (fun y hy => hg y (List.mem_cons_of_mem _ hy)) hxs]
  induction w using Json.induct generalizing v with
  | null =>
    have hnull := hf none (by simp [atoms])
    cases v with
    | null => rfl
    | num n => exact absurd (hnull _ (ofAtom_injective h)) (by simp)
    | _ => cases isAtom_eq_of_mapAtoms_eq h
  | num n =>
    have hnum := hf (some n) (by simp [atoms])
    cases v with
    | null => exact absurd (hnum _ (ofAtom_injective h)) (by simp)
    | num m => exact congrArg Json.num (Option.some.inj (hnum _ (ofAtom_injective h)))
    | _ => cases isAtom_eq_of_mapAtoms_eq h
  | bool b =>
    cases v with
    | bool c => simpa [mapAtoms] using h
    | null => cases isAtom_eq_of_mapAtoms_eq h
    | num m => cases isAtom_eq_of_mapAtoms_eq h
    | _ => simp [mapAtoms] at h
  | str s =>
    cases v with
    | str t => simpa [mapAtoms] using h
    | null => cases isAtom_eq_of_mapAtoms_eq h
    | num m => cases isAtom_eq_of_mapAtoms_eq h
    | _ => simp [mapAtoms] at h
  | arr items ih =>
    cases v with
    | arr items' =>
      simp only [mapAtoms, mapAtomsItems_eq_map, Json.arr.injEq] at h
      refine congrArg Json.arr (hlist (fun w hw v hvw => ih w hw (fun a ha => hf a ?_) hvw) h)
      exact mem_atomsItems.mpr ⟨w, hw, ha⟩
    | null => cases isAtom_eq_of_mapAtoms_eq h
    | num m => cases isAtom_eq_of_mapAtoms_eq h
    | _ => simp [mapAtoms] at h
  | obj fields ih =>
    cases v with
    | obj fields' =>
      simp only [mapAtoms, mapAtomsFields_eq_map, Json.obj.injEq] at h
      refine congrArg Json.obj (hlist (fun p hp q hqp => ?_) h)
      obtain ⟨hk, hv⟩ := Prod.mk.inj hqp
      exact Prod.ext hk (ih p hp (fun a ha => hf a (mem_atomsFields.mpr ⟨p, hp, ha⟩)) hv)
    | null => cases isAtom_eq_of_mapAtoms_eq h
    | num m => cases isAtom_eq_of_mapAtoms_eq h
    | _ => simp [mapAtoms] at h

/-- A map leaves a value as it is exactly when it changes none of its atoms. -/
theorem mapAtoms_eq_self_iff {f : Option ν → Option ν} :
    mapAtoms f v = v ↔ ∀ a ∈ atoms v, f a = a := by
  induction v using Json.induct with
  | null =>
    simp only [atoms, List.forall_mem_singleton]
    exact ofAtom_injective.eq_iff (b := none)
  | num n =>
    simp only [atoms, List.forall_mem_singleton]
    exact ofAtom_injective.eq_iff (b := some n)
  | bool b => simp [atoms, mapAtoms]
  | str s => simp [atoms, mapAtoms]
  | arr items ih =>
    have hitems : mapAtoms f (.arr items) = .arr items ↔ ∀ v ∈ items, mapAtoms f v = v := by
      rw [mapAtoms, mapAtomsItems_eq_map, Json.arr.injEq]
      exact ⟨fun h v hv => List.map_inj_left.mp (h.trans (List.map_id items).symm) v hv,
        fun h => (List.map_congr_left h).trans (List.map_id items)⟩
    rw [hitems, atoms]
    constructor
    · intro h a ha
      obtain ⟨v, hv, ha⟩ := mem_atomsItems.mp ha
      exact (ih v hv).mp (h v hv) a ha
    · exact fun h v hv => (ih v hv).mpr fun a ha => h a (mem_atomsItems.mpr ⟨v, hv, ha⟩)
  | obj fields ih =>
    have hfields : mapAtoms f (.obj fields) = .obj fields ↔ ∀ p ∈ fields, mapAtoms f p.2 = p.2 := by
      rw [mapAtoms, mapAtomsFields_eq_map, Json.obj.injEq]
      refine ⟨fun h p hp => ?_, fun h => (mapValues_congr (h := id) h).trans (List.map_id fields)⟩
      exact congrArg Prod.snd (List.map_inj_left.mp (h.trans (List.map_id fields).symm) p hp)
    rw [hfields, atoms]
    constructor
    · intro h a ha
      obtain ⟨p, hp, ha⟩ := mem_atomsFields.mp ha
      exact (ih p hp).mp (h p hp) a ha
    · exact fun h p hp => (ih p hp).mpr fun a ha => h a (mem_atomsFields.mpr ⟨p, hp, ha⟩)

theorem mapAtoms_mapAtoms {ρ : Type} (g : Option μ → Option ρ) (v : Json ν) :
    mapAtoms g (mapAtoms f v) = mapAtoms (g ∘ f) v := by
  have hatom : ∀ a : Option μ, mapAtoms g (ofAtom a) = ofAtom (g a) := by
    intro a
    cases a <;> rfl
  induction v using Json.induct with
  | null => exact hatom _
  | num n => exact hatom _
  | bool b => rfl
  | str s => rfl
  | arr items ih =>
    simp only [mapAtoms, mapAtomsItems_eq_map, List.map_map]
    exact congrArg Json.arr (List.map_congr_left ih)
  | obj fields ih =>
    simp only [mapAtoms, mapAtomsFields_eq_map]
    rw [mapValues_mapValues, mapValues_congr (h := mapAtoms (g ∘ f)) ih]

theorem mem_keysOf_mapAtoms {f : Option ν → Option μ} {k : String} :
    k ∈ keysOf (mapAtoms f v) ↔ k ∈ keysOf v := by
  have hatom : ∀ a : Option μ, keysOf (ofAtom a) = [] := by
    intro a
    cases a <;> rfl
  induction v using Json.induct with
  | null => simp [mapAtoms, hatom, keysOf]
  | num n => simp [mapAtoms, hatom, keysOf]
  | bool b => rfl
  | str s => rfl
  | arr items ih =>
    rw [mapAtoms, mapAtomsItems_eq_map, mem_keysOf_arr, mem_keysOf_arr]
    constructor
    · rintro ⟨_, hmem, hk⟩
      obtain ⟨v, hv, rfl⟩ := List.mem_map.mp hmem
      exact ⟨v, hv, (ih v hv).mp hk⟩
    · rintro ⟨v, hv, hk⟩
      exact ⟨_, List.mem_map_of_mem hv, (ih v hv).mpr hk⟩
  | obj fields ih =>
    rw [mapAtoms, mapAtomsFields_eq_map, mem_keysOf_obj, mem_keysOf_obj]
    constructor
    · rintro ⟨_, hmem, hk⟩
      obtain ⟨p, hp, rfl⟩ := List.mem_map.mp hmem
      exact ⟨p, hp, hk.imp id (ih p hp).mp⟩
    · rintro ⟨p, hp, hk⟩
      exact ⟨_, List.mem_map.mpr ⟨p, hp, rfl⟩, hk.imp id (ih p hp).mpr⟩

theorem mem_atoms_mapAtoms {f : Option ν → Option μ} {a : Option μ}
    (h : a ∈ atoms (mapAtoms f v)) : ∃ b ∈ atoms v, f b = a := by
  have hatom : ∀ b : Option μ, atoms (ofAtom b) = [b] := by
    intro b
    cases b <;> rfl
  induction v using Json.induct with
  | null =>
    rw [mapAtoms, hatom, List.mem_singleton] at h
    exact ⟨none, by simp [atoms], h.symm⟩
  | num n =>
    rw [mapAtoms, hatom, List.mem_singleton] at h
    exact ⟨some n, by simp [atoms], h.symm⟩
  | bool b => simp [mapAtoms, atoms] at h
  | str s => simp [mapAtoms, atoms] at h
  | arr items ih =>
    rw [mapAtoms, mapAtomsItems_eq_map, atoms, mem_atomsItems] at h
    obtain ⟨_, hmem, ha⟩ := h
    obtain ⟨v, hv, rfl⟩ := List.mem_map.mp hmem
    obtain ⟨b, hb, rfl⟩ := ih v hv ha
    exact ⟨b, mem_atomsItems.mpr ⟨v, hv, hb⟩, rfl⟩
  | obj fields ih =>
    rw [mapAtoms, mapAtomsFields_eq_map, atoms, mem_atomsFields] at h
    obtain ⟨_, hmem, ha⟩ := h
    obtain ⟨p, hp, rfl⟩ := List.mem_map.mp hmem
    obtain ⟨b, hb, rfl⟩ := ih p hp ha
    exact ⟨b, mem_atomsFields.mpr ⟨p, hp, hb⟩, rfl⟩

/-! ## Numbers -/

/-- A number in memory, by what JSON makes of it. -/
inductive JsNumber (ν : Type) where
  | finite (n : ν)
  | nan
  | infinity
  | negInfinity
  deriving DecidableEq

/-- `a <= b`. -/
def JsNumber.le [LE ν] [DecidableLE ν] : JsNumber ν → JsNumber ν → Bool
  | .nan, _ | _, .nan => false
  | .negInfinity, _ | _, .infinity => true
  | .finite a, .finite b => decide (a ≤ b)
  | .infinity, _ | _, .negInfinity => false

/-- `JSON.stringify` writes a number that is not finite as `null`. -/
def writtenAtom : Option (JsNumber ν) → Option ν
  | some (.finite n) => some n
  | _ => none

/-- The JSON value that is written for a value in memory. -/
def written (v : Json (JsNumber ν)) : Json ν := mapAtoms writtenAtom v

/-- A JSON value in memory. -/
def loaded (v : Json ν) : Json (JsNumber ν) := mapAtoms (Option.map .finite) v

/-- The value has neither a `null` nor a number that is written as `null`. -/
def Writable (v : Json (JsNumber ν)) : Prop := ∀ a ∈ atoms v, writtenAtom a ≠ none

instance (v : Json (JsNumber ν)) : Decidable (Writable v) :=
  inferInstanceAs (Decidable (∀ a ∈ atoms v, writtenAtom a ≠ none))

theorem sortKeys_written (v : Json (JsNumber ν)) : sortKeys (written v) = written (sortKeys v) :=
  sortKeys_mapAtoms _ _

/-- What is written determines a writable value up to the order of keys. -/
theorem sameJson_of_written {v w : Json (JsNumber ν)} (hw : Writable w)
    (h : SameJson (written v) (written w)) : SameJson v w := by
  rw [SameJson, sortKeys_written, sortKeys_written] at h
  refine mapAtoms_inj (fun a ha b hb => ?_) h
  have hne := hw a (mem_atoms_sortKeys.mp ha)
  rcases a with _ | (n | _ | _ | _)
  case some.finite =>
    rcases b with _ | (m | _ | _ | _)
    case some.finite => simpa [writtenAtom] using hb
    all_goals simp [writtenAtom] at hb
  all_goals simp [writtenAtom] at hne

/-- Exchanges `null` with the numbers that are written as `null`. -/
def swapAtom : Option (JsNumber ν) → Option (JsNumber ν)
  | some (.finite n) => some (.finite n)
  | some _ => none
  | none => some .nan

/-- Where a value has a `null` or a number that is written as `null`, another
value is written the same. -/
theorem exists_written_eq_of_not_writable {w : Json (JsNumber ν)} (hw : ¬Writable w) :
    ∃ v, written v = written w ∧ ¬SameJson v w ∧ (DistinctKeys w → DistinctKeys v) := by
  have hcomp : writtenAtom ∘ swapAtom = (writtenAtom : Option (JsNumber ν) → Option ν) := by
    funext a
    rcases a with _ | _ | _ | _ | _ <;> rfl
  refine ⟨mapAtoms swapAtom w, ?_, fun hsame => hw fun a ha hnone => ?_, distinctKeys_mapAtoms _⟩
  · rw [written, mapAtoms_mapAtoms, hcomp, written]
  · rw [SameJson, sortKeys_mapAtoms] at hsame
    have hfix := mapAtoms_eq_self_iff.mp hsame a (mem_atoms_sortKeys.mpr ha)
    rcases a with _ | _ | _ | _ | _ <;> simp [swapAtom, writtenAtom] at hfix hnone

end ZkPayroll.Framework
