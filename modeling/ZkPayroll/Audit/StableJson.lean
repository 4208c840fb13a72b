import ZkPayroll.Framework.JsValue
import ZkPayroll.Framework.Maps

/-!
# The stable text of a value

`stableStringify` of `audit/auditPackage.ts` writes a copy of a value whose
fields were put into new objects in the order of their keys
(`sortForStableJson`). Assigning to the key `__proto__` of an object makes no
field, so the copy has none of that name, and an object lists the fields whose
keys are array indices before the others (`propertyOrder`). Two values have
one text exactly when what is left of them without `__proto__`, as JSON writes
it, is the same but for the order of keys (`stableStringify_eq_iff`).
-/

namespace ZkPayroll.Audit

open Framework

variable {ν : Type}

/-! ## The order of properties -/

/-- The number that a key is, if it is an array index. -/
def arrayIndex? (key : String) : Option Nat :=
  let n := Nat.ofDigitChars 10 key.toList 0
  if Nat.toDigits 10 n = key.toList ∧ n < 4294967295 then some n else none

def isArrayIndex (key : String) : Bool := (arrayIndex? key).isSome

/-- The order of fields whose keys are array indices. -/
def leIndex {β : Type} (f g : String × β) : Prop := (arrayIndex? f.1).getD 0 ≤ (arrayIndex? g.1).getD 0

instance {β : Type} : DecidableRel (leIndex (β := β)) := fun f g =>
  inferInstanceAs (Decidable ((arrayIndex? f.1).getD 0 ≤ (arrayIndex? g.1).getD 0))

/-- The fields of an object to which they were assigned in the order given, as
`Object.keys` lists them. -/
def propertyOrder {β : Type} (fields : List (String × β)) : List (String × β) :=
  (fields.filter fun f => isArrayIndex f.1).insertionSort leIndex ++ fields.filter fun f => !isArrayIndex f.1

theorem propertyOrder_perm {β : Type} (fields : List (String × β)) : (propertyOrder fields).Perm fields :=
  ((List.perm_insertionSort leIndex _).append_right _).trans (List.filter_append_perm _ _)

/-- A new object with the given fields. -/
def assigned : Rearrangement where
  run := propertyOrder
  natural g fields := by
    have hsort := List.map_insertionSort leIndex leIndex (fun f => (f.1, g f.2))
      (fields.filter fun f => isArrayIndex f.1) fun _ _ _ _ => Iff.rfl
    simp only [propertyOrder, mapValues, List.filter_map, List.map_append, hsort]
    rfl
  subperm fields := (propertyOrder_perm fields).subperm

/-! ## The text -/

/-- Whether assigning to the key makes a field. -/
def notProto (key : String) : Bool := key ≠ "__proto__"

mutual

/-- `sortForStableJson(value)`. -/
def sortForStableJson : Json (JsNumber ν) → Json (JsNumber ν)
  | .arr items => .arr (sortForStableItems items)
  | .obj fields =>
    let sorted := (sortForStableFields fields).insertionSort leKey
    -- an assignment to `__proto__` sets the prototype
    .obj (propertyOrder (sorted.filter fun f => notProto f.1))
  | v => v

/-- Item by item. -/
def sortForStableItems : List (Json (JsNumber ν)) → List (Json (JsNumber ν))
  | [] => []
  | v :: items => sortForStableJson v :: sortForStableItems items

/-- Field by field. -/
def sortForStableFields : List (String × Json (JsNumber ν)) → List (String × Json (JsNumber ν))
  | [] => []
  | (k, v) :: fields => (k, sortForStableJson v) :: sortForStableFields fields

end

/-- What `sortForStableJson` does to the fields of an object. -/
def stableOrder : Rearrangement := assigned.comp ((Rearrangement.keep notProto).comp .sorted)

theorem sortForStableJson_eq (v : Json (JsNumber ν)) : sortForStableJson v = rearrange stableOrder v := by
  induction v using Json.induct with
  | null => rfl
  | bool b => rfl
  | num n => rfl
  | str s => rfl
  | arr items ih =>
    have hitems : ∀ items : List (Json (JsNumber ν)), sortForStableItems items = items.map sortForStableJson := by
      intro items
      induction items with
      | nil => rfl
      | cons v items ih => rw [sortForStableItems, ih, List.map_cons]
    rw [sortForStableJson, hitems, rearrange_arr]
    exact congrArg Json.arr (List.map_congr_left ih)
  | obj fields ih =>
    have hfields : ∀ fields : List (String × Json (JsNumber ν)),
        sortForStableFields fields = mapValues sortForStableJson fields := by
      intro fields
      induction fields with
      | nil => rfl
      | cons f fields ih =>
        obtain ⟨k, v⟩ := f
        rw [sortForStableFields, ih]
        rfl
    rw [sortForStableJson, hfields, rearrange_obj, mapValues_congr ih]
    rfl

/-- `stableStringify(value)`. -/
def stableStringify [NumberFormat ν] (v : Json (JsNumber ν)) : String := stringify (written (sortForStableJson v))

/-- What is written of a value: it without the fields named `__proto__`, with
`null` for the numbers that are not finite. -/
def plainPart (v : Json (JsNumber ν)) : Json ν := written (rearrange (.keep notProto) v)

theorem written_rearrange (φ : Rearrangement) (v : Json (JsNumber ν)) :
    rearrange φ (written v) = written (rearrange φ v) := rearrange_mapAtoms φ writtenAtom v

variable {v : Json (JsNumber ν)}

/-- In the order of keys, the copy is what is written. -/
theorem sorted_written_sortForStableJson (hv : DistinctKeys v) :
    rearrange .sorted (written (sortForStableJson v)) = rearrange .sorted (plainPart v) := by
  rw [plainPart, sortForStableJson_eq, written_rearrange, written_rearrange, rearrange_comp, rearrange_comp]
  refine congrArg written (rearrange_congr hv fun fields hn => ?_)
  have hkept := (Rearrangement.sorted_run_perm fields).filter fun f => notProto f.1
  exact Rearrangement.sorted_run_of_perm ((propertyOrder_perm _).trans hkept) (stableOrder.nodup_run hn)

/-- The copy is determined by what is written in the order of keys. -/
theorem written_sortForStableJson (hv : DistinctKeys v) :
    written (sortForStableJson v) = rearrange assigned (rearrange .sorted (plainPart v)) := by
  rw [plainPart, sortForStableJson_eq, written_rearrange, written_rearrange, rearrange_comp, rearrange_comp]
  refine congrArg written (rearrange_congr hv fun fields hn => ?_)
  exact congrArg propertyOrder (Rearrangement.keep_sorted notProto hn)

theorem distinctKeys_sortForStableJson (hv : DistinctKeys v) :
    DistinctKeys (sortForStableJson v) := by
  rw [sortForStableJson_eq]
  exact distinctKeys_rearrange _ hv

variable {v w : Json (JsNumber ν)}

/-- The text forgets the order of keys, the fields named `__proto__` and which
number it was that JSON cannot write, and nothing else. -/
theorem stableStringify_eq_iff [NumberFormat ν] (hv : DistinctKeys v)
    (hw : DistinctKeys w) : stableStringify v = stableStringify w ↔ SameJson (plainPart v) (plainPart w) := by
  have hkeys : ∀ {u : Json (JsNumber ν)}, DistinctKeys u → DistinctKeys (written (sortForStableJson u)) :=
    fun hu => distinctKeys_mapAtoms _ (distinctKeys_sortForStableJson hu)
  rw [sameJson_iff]
  constructor
  · intro h
    rw [← sorted_written_sortForStableJson hv, ← sorted_written_sortForStableJson hw,
      stringify_injective (hkeys hv) (hkeys hw) h]
  · intro h
    rw [stableStringify, stableStringify, written_sortForStableJson hv, written_sortForStableJson hw, h]

/-! ## Values that JSON keeps -/

/-- The atom is a null or a finite number. -/
def isKept : Option (JsNumber ν) → Bool
  | none => true
  | some (.finite _) => true
  | _ => false

/-- No object of the value has a property `__proto__`, and all its numbers are
finite. -/
structure Plain (v : Json (JsNumber ν)) : Prop where
  keys : "__proto__" ∉ keysOf v
  atoms : ∀ a ∈ atoms v, isKept a = true

theorem Plain.of_sameJson (hw : Plain w) (h : SameJson v w) : Plain v := by
  rw [sameJson_iff] at h
  have hkeys : ∀ {k u}, k ∈ keysOf (rearrange .sorted u) ↔ k ∈ keysOf (ν := JsNumber ν) u :=
    mem_keysOf_rearrange Rearrangement.sorted_run_perm
  have hatoms : ∀ {a u}, a ∈ Framework.atoms (rearrange .sorted u) ↔ a ∈ Framework.atoms (ν := JsNumber ν) u :=
    mem_atoms_rearrange Rearrangement.sorted_run_perm
  refine ⟨fun hk => hw.keys ?_, fun a ha => hw.atoms a ?_⟩
  · rwa [← hkeys, ← h, hkeys]
  · rwa [← hatoms, ← h, hatoms]

/-- What is written, read again, is plain. -/
theorem plain_loaded_plainPart (v : Json (JsNumber ν)) : Plain (loaded (plainPart v)) := by
  refine ⟨fun hk => ?_, fun a ha => ?_⟩
  · rw [loaded, mem_keysOf_mapAtoms, plainPart, written, mem_keysOf_mapAtoms] at hk
    have := pass_of_mem_keysOf_keep hk
    revert this
    decide
  · obtain ⟨b, -, rfl⟩ := mem_atoms_mapAtoms ha
    cases b <;> rfl

/-- JSON keeps a value with finite numbers. -/
theorem loaded_written (h : ∀ a ∈ atoms v, isKept a = true) : loaded (written v) = v := by
  rw [loaded, written, mapAtoms_mapAtoms, mapAtoms_eq_self_iff]
  intro a ha
  have hkept := h a ha
  rcases a with _ | (n | _ | _ | _)
  case none | some.finite => rfl
  all_goals cases hkept

theorem Plain.loaded_plainPart (hv : Plain v) : loaded (plainPart v) = v := by
  have hkeep : rearrange (.keep notProto) v = v := by
    refine rearrange_keep_eq_self fun k hk => ?_
    have hne : k ≠ "__proto__" := by
      rintro rfl
      exact hv.keys hk
    simp [notProto, hne]
  rw [plainPart, hkeep, loaded_written hv.atoms]

/-- Sorting a plain value, writing it and reading it again is sorting it. -/
theorem Plain.loaded_written_sort (hv : Plain v) :
    loaded (written (sortForStableJson v)) = sortForStableJson v := by
  rw [sortForStableJson_eq]
  exact loaded_written fun a ha => hv.atoms a (mem_atoms_of_rearrange ha)

/-- A value is plain exactly when JSON keeps it but for the order of keys. -/
theorem sameJson_loaded_iff (hv : DistinctKeys v) :
    SameJson (loaded (written (sortForStableJson v))) v ↔ Plain v := by
  have hsame : SameJson (loaded (written (sortForStableJson v))) (loaded (plainPart v)) := by
    rw [sameJson_iff, loaded, loaded, rearrange_mapAtoms, rearrange_mapAtoms,
      sorted_written_sortForStableJson hv]
  constructor
  · intro h
    exact (plain_loaded_plainPart v).of_sameJson (h.symm.trans hsame)
  · intro h
    rw [h.loaded_plainPart] at hsame
    exact hsame

/-- What is written depends on a value only up to the order of keys. -/
theorem plainPart_congr (hv : DistinctKeys v) (hw : DistinctKeys w) (h : SameJson v w) :
    SameJson (plainPart v) (plainPart w) := by
  have hcomm : ∀ {u : Json (JsNumber ν)}, DistinctKeys u →
      rearrange .sorted (plainPart u) = written (rearrange (.keep notProto) (rearrange .sorted u)) := by
    intro u hu
    rw [plainPart, written_rearrange, rearrange_comp, rearrange_comp]
    exact congrArg written (rearrange_congr hu fun fields hn => (Rearrangement.keep_sorted notProto hn).symm)
  rw [sameJson_iff] at h ⊢
  rw [hcomm hv, hcomm hw, h]

/-! ## Reading from the copy -/

theorem lookup_stableOrder {β : Type} {fields : List (String × β)} (hn : (fields.map Prod.fst).Nodup) {key : String}
    (hkey : notProto key = true) : (stableOrder.run fields).lookup key = fields.lookup key := by
  have hmem : ∀ v, (key, v) ∈ stableOrder.run fields ↔ (key, v) ∈ fields := by
    intro v
    have hperm := propertyOrder_perm ((Rearrangement.keep notProto).run (Rearrangement.sorted.run fields))
    have hrun : stableOrder.run fields =
        propertyOrder ((Rearrangement.keep notProto).run (Rearrangement.sorted.run fields)) :=
      rfl
    rw [hrun, hperm.mem_iff]
    simp only [Rearrangement.keep, List.mem_filter, (Rearrangement.sorted_run_perm fields).mem_iff, hkey, and_true]
  refine Option.ext fun v => ?_
  have hrun := mem_iff_lookup (stableOrder.nodup_run hn) (key, v)
  have hfields := mem_iff_lookup hn (key, v)
  rw [← hrun, ← hfields]
  exact hmem v

end ZkPayroll.Audit
