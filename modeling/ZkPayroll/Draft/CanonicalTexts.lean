import Mathlib.Algebra.Order.Ring.Int
import ZkPayroll.Receipts.ReceiptVerifier

/-!
# The checksum of a draft and canonical texts

`canonicalizeDraft` of `draft/draftChecksum.ts`: the text of which the checksum
of a draft is taken, written by `JSON.stringify` with a replacer. No object has
a function `toJSON`. The checksum is the one that Node's crypto computes.

The text that `canonicalizeMetadata` gives of an object and the one that
`canonicalizeDraft` gives are the stable text of an audit package
(`canonicalizeMetadata_eq`, `canonicalizeDraft_eq`). So both forget the order
of keys, and with it the properties named `__proto__` and which number it was
that JSON cannot write: they tell two objects apart exactly when these are
told apart by more than that (`canonical_texts_iff`).
-/

namespace ZkPayroll.Draft

open Framework Audit Receipts

variable {ν : Type}

mutual

/-- The JSON value that is written for what the replacer makes of a value,
where there is one. -/
def draftJson : Value ν → Option (Json ν)
  | .bigint n => some (.str (toString n))
  | .function | .undefined => none
  | .null => some .null
  | .bool b => some (.bool b)
  | .num (.finite n) => some (.num n)
  | .num _ => some .null
  | .str s => some (.str s)
  | .arr items => some (.arr (draftItems items))
  | .obj fields =>
    let sortedObj := (draftFields fields).insertionSort leField
    -- an assignment to `__proto__` sets the prototype
    some (.obj (keepSome (propertyOrder (sortedObj.filter fun f => notProto f.1))))

/-- Item by item. -/
def draftItems : List (Value ν) → List (Json ν)
  | [] => []
  | v :: items => (draftJson v).getD .null :: draftItems items

/-- The fields that the replacer takes over, each with what is written for it. -/
def draftFields : List (String × Value ν) → List (String × Option (Json ν))
  | [] => []
  | (_, .undefined) :: fields => draftFields fields
  | (k, v) :: fields => (k, draftJson v) :: draftFields fields

end

/-- The empty text stands for `undefined`, which is no text. -/
def canonicalizeDraft [NumberFormat ν] (draft : Value ν) : String := ((draftJson draft).map stringify).getD ""

/-- The hash gives the hexadecimal digest of a text. -/
def computeDraftChecksum [NumberFormat ν] (sha256 : String → String) (draft : Value ν) : String :=
  sha256 (canonicalizeDraft draft)

/-! ## Objects in memory -/

mutual

/-- A JSON value in memory. -/
def ofMemory : Json (JsNumber ν) → Value ν
  | .null => .null
  | .bool b => .bool b
  | .num n => .num n
  | .str s => .str s
  | .arr items => .arr (ofMemoryItems items)
  | .obj fields => .obj (ofMemoryFields fields)

/-- Item by item. -/
def ofMemoryItems : List (Json (JsNumber ν)) → List (Value ν)
  | [] => []
  | v :: items => ofMemory v :: ofMemoryItems items

/-- Field by field. -/
def ofMemoryFields : List (String × Json (JsNumber ν)) → List (String × Value ν)
  | [] => []
  | (k, v) :: fields => (k, ofMemory v) :: ofMemoryFields fields

end

/-- An object; no object in it has a key twice. -/
structure JsonObject (ν : Type) where
  fields : List (String × Json (JsNumber ν))
  distinct : DistinctKeys (.obj fields)

def JsonObject.json (o : JsonObject ν) : Json (JsNumber ν) := .obj o.fields

theorem JsonObject.distinctKeys (o : JsonObject ν) : DistinctKeys o.json := o.distinct

/-- The object as the code sees it. -/
def JsonObject.value (o : JsonObject ν) : Value ν := ofMemory o.json

/-- The objects, if they differ, differ in more than key order, properties
named `__proto__`, and numbers that are not finite in place of each other or of
a `null`. -/
def Distinguished (v w : JsonObject ν) : Prop :=
  SameJson (plainPart v.json) (plainPart w.json) → SameJson v.json w.json

/-! ## What is written -/

/-- Fields of which each is written. -/
theorem keepSome_mapValues {β γ : Type} {g : β → Option γ} {h : β → γ} {fields : List (String × β)}
    (heq : ∀ f ∈ fields, g f.2 = some (h f.2)) : keepSome (mapValues g fields) = mapValues h fields := by
  induction fields with
  | nil => rfl
  | cons f fields ih =>
    have hf : g f.2 = some (h f.2) := heq f List.mem_cons_self
    have hrest := ih fun f hf => heq f (List.mem_cons_of_mem _ hf)
    simp only [mapValues, keepSome] at hrest ⊢
    rw [List.map_cons, List.filterMap_cons, hf, Option.map_some, hrest, List.map_cons]

/-- What is written of the stable copy of an object. -/
theorem written_sort_obj (fields : List (String × Json (JsNumber ν))) :
    written (sortForStableJson (.obj fields)) =
      .obj (mapValues (fun v => written (sortForStableJson v)) (stableOrder.run fields)) := by
  have hsort : sortForStableJson (.obj fields) = .obj (mapValues sortForStableJson (stableOrder.run fields)) := by
    rw [sortForStableJson_eq, rearrange_obj, stableOrder.natural]
    exact congrArg Json.obj (mapValues_congr fun f _ => (sortForStableJson_eq f.2).symm)
  rw [hsort, written, mapAtoms, mapAtomsFields_eq_map, mapValues_mapValues]
  rfl

theorem written_sort_arr (items : List (Json (JsNumber ν))) :
    written (sortForStableJson (.arr items)) = .arr (items.map fun v => written (sortForStableJson v)) := by
  have hsort : sortForStableJson (.arr items) = .arr (items.map sortForStableJson) := by
    rw [sortForStableJson_eq, rearrange_arr]
    exact congrArg Json.arr (List.map_congr_left fun v _ => (sortForStableJson_eq v).symm)
  rw [hsort, written, mapAtoms, mapAtomsItems_eq_map, List.map_map]
  rfl

/-- The fields that the sorted copy has. -/
theorem sortFields_ofMemory (fields : List (String × Json (JsNumber ν))) :
    sortFields (ofMemoryFields fields) = mapValues (fun v => sortValueForCanonicalJson (ofMemory v)) fields := by
  have hkept : ∀ v : Json (JsNumber ν), (ofMemory v).isKept = true := by
    intro v
    cases v <;> rfl
  induction fields with
  | nil => rfl
  | cons f fields ih =>
    obtain ⟨k, v⟩ := f
    rw [ofMemoryFields, sortFields, if_pos (hkept v), ih]
    rfl

/-- What is written of the sorted copy of a value. -/
theorem toJson_sortValue (v : Json (JsNumber ν)) :
    (sortValueForCanonicalJson (ofMemory v)).toJson = some (written (sortForStableJson v)) := by
  induction v using Json.induct with
  | null => rfl
  | bool b => rfl
  | num n => cases n <;> rfl
  | str s => rfl
  | arr items ih =>
    have hitems : toJsonItems (sortItems (ofMemoryItems items)) =
        items.map fun v => written (sortForStableJson v) := by
      induction items with
      | nil => rfl
      | cons v items ihs =>
        rw [ofMemoryItems, sortItems, toJsonItems, ih v List.mem_cons_self, Option.getD_some,
          ihs fun w hw => ih w (List.mem_cons_of_mem _ hw), List.map_cons]
    rw [ofMemory, sortValueForCanonicalJson, Value.toJson, hitems, written_sort_arr]
  | obj fields ih =>
    have hfields : ∀ fs : List (String × Value ν), toJsonFields fs = mapValues Value.toJson fs := by
      intro fs
      induction fs with
      | nil => rfl
      | cons f fs ih =>
        obtain ⟨k, v⟩ := f
        rw [toJsonFields, ih]
        rfl
    have hrun : sortValueForCanonicalJson (ofMemory (.obj fields)) =
        .obj (stableOrder.run (sortFields (ofMemoryFields fields))) :=
      rfl
    rw [hrun, sortFields_ofMemory, stableOrder.natural, Value.toJson, hfields, mapValues_mapValues,
      keepSome_mapValues (h := fun v => written (sortForStableJson v)) fun f hf => ih f (stableOrder.mem_run hf),
      written_sort_obj]

/-- What is written of a draft. -/
theorem draftJson_ofMemory (v : Json (JsNumber ν)) :
    draftJson (ofMemory v) = some (written (sortForStableJson v)) := by
  induction v using Json.induct with
  | null => rfl
  | bool b => rfl
  | num n => cases n <;> rfl
  | str s => rfl
  | arr items ih =>
    have hitems : draftItems (ofMemoryItems items) = items.map fun v => written (sortForStableJson v) := by
      induction items with
      | nil => rfl
      | cons v items ihs =>
        rw [ofMemoryItems, draftItems, ih v List.mem_cons_self, Option.getD_some,
          ihs fun w hw => ih w (List.mem_cons_of_mem _ hw), List.map_cons]
    rw [ofMemory, draftJson, hitems, written_sort_arr]
  | obj fields ih =>
    have hfields : draftFields (ofMemoryFields fields) = mapValues (fun v => draftJson (ofMemory v)) fields := by
      clear ih
      induction fields with
      | nil => rfl
      | cons f fields ih =>
        obtain ⟨k, v⟩ := f
        have hcons : draftFields (ofMemoryFields ((k, v) :: fields)) =
            (k, draftJson (ofMemory v)) :: draftFields (ofMemoryFields fields) := by
          cases v <;> rfl
        rw [hcons, ih]
        rfl
    have hrun : draftJson (ofMemory (.obj fields)) =
        some (.obj (keepSome (stableOrder.run (draftFields (ofMemoryFields fields))))) :=
      rfl
    rw [hrun, hfields, stableOrder.natural,
      keepSome_mapValues (h := fun v => written (sortForStableJson v)) fun f hf => ih f (stableOrder.mem_run hf),
      written_sort_obj]

section Texts

variable [NumberFormat ν]

/-- The canonical text of an object is its stable text. -/
theorem canonicalizeMetadata_eq (o : JsonObject ν) : canonicalizeMetadata o.value = stableStringify o.json := by
  have hvalue : canonicalizeMetadata o.value = canonicalValue o.value := rfl
  rw [hvalue, canonicalValue, JsonObject.value, toJson_sortValue]
  rfl

theorem canonicalizeDraft_eq (o : JsonObject ν) : canonicalizeDraft o.value = stableStringify o.json := by
  rw [canonicalizeDraft, JsonObject.value, draftJson_ofMemory]
  rfl

/-- The stable text tells two objects apart exactly when they are
distinguished. -/
theorem stable_text_iff (v w : JsonObject ν) :
    (stableStringify v.json = stableStringify w.json ↔ SameJson v.json w.json) ↔ Distinguished v w := by
  rw [stableStringify_eq_iff v.distinctKeys w.distinctKeys, Distinguished]
  exact ⟨fun h => h.mp, fun h => ⟨h, plainPart_congr v.distinctKeys w.distinctKeys⟩⟩

/-- Of two objects, the canonical texts of metadata and of drafts, and the
digests and checksums that are taken of them, are the same exactly for the same
fields, in whatever order, just when the objects are distinguished. In any case
they do not depend on the order. -/
theorem canonical_texts_iff {rt : Runtime ν} (hsha : Function.Injective rt.sha256Sync) (v w : JsonObject ν) :
    ((canonicalizeMetadata v.value = canonicalizeMetadata w.value ↔ SameJson v.json w.json) ↔ Distinguished v w) ∧
    ((canonicalizeDraft v.value = canonicalizeDraft w.value ↔ SameJson v.json w.json) ↔ Distinguished v w) ∧
    ((computeMetadataDigest rt v.value = computeMetadataDigest rt w.value ↔ SameJson v.json w.json) ↔
      Distinguished v w) ∧
    ((computeDraftChecksum rt.sha256Sync v.value = computeDraftChecksum rt.sha256Sync w.value ↔
      SameJson v.json w.json) ↔ Distinguished v w) ∧
    (SameJson v.json w.json → computeMetadataDigest rt v.value = computeMetadataDigest rt w.value ∧
      computeDraftChecksum rt.sha256Sync v.value = computeDraftChecksum rt.sha256Sync w.value) := by
  rw [computeMetadataDigest, computeMetadataDigest, computeDraftChecksum, computeDraftChecksum, hsha.eq_iff,
    hsha.eq_iff]
  simp only [canonicalizeMetadata_eq, canonicalizeDraft_eq]
  have htext := stable_text_iff v w
  refine ⟨htext, htext, htext, htext, fun hsame => ?_⟩
  have heq := (stableStringify_eq_iff v.distinctKeys w.distinctKeys).mpr (plainPart_congr v.distinctKeys w.distinctKeys hsame)
  exact ⟨heq, heq⟩

end Texts

/-! ## Two notes, and a property that is not there -/

def noted (note : String) : JsonObject Int where
  fields := [("note", .str note)]
  distinct := by simp [DistinctKeys, DistinctFields]

/-- A platform without dates and numbers in texts, with the digests of two notes. -/
def noteRuntime : Runtime Int where
  toLowerCase s := String.ofList (s.toList.map lowerAscii)
  toNumber _ := .nan
  parseDate _ := .nan
  toText _ := ""
  roundSeconds n := n
  sha256Sync text := String.ofList (hexEncode (hashFrom
    [("\x7b\"note\":\"paid\"\x7d", digest "894471412ad128e891caf14c923719cce3e1bd5bd3ee2e21d63c71c897eb0d83"),
      ("\x7b\"note\":\"unpaid\"\x7d",
        digest "85a8024e911b8350fa2bbbe9e9e2f4ce7ca174864f44307b5117e4857889a8e9")] text))

theorem sha256Sync_injective : Function.Injective noteRuntime.sha256Sync := by
  have hhash : Function.Injective (hashFrom
      [("\x7b\"note\":\"paid\"\x7d", digest "894471412ad128e891caf14c923719cce3e1bd5bd3ee2e21d63c71c897eb0d83"),
        ("\x7b\"note\":\"unpaid\"\x7d",
          digest "85a8024e911b8350fa2bbbe9e9e2f4ce7ca174864f44307b5117e4857889a8e9")]) :=
    hashFrom_injective (by decide +kernel) (by decide +kernel)
  intro a b h
  exact hhash (hexEncode_injective (String.ofList_injective h))

/-- The digests of the notes differ, and so do the checksums. -/
theorem notes_told_apart :
    computeMetadataDigest noteRuntime (noted "paid").value ≠ computeMetadataDigest noteRuntime (noted "unpaid").value ∧
      computeDraftChecksum noteRuntime.sha256Sync (noted "paid").value ≠
        computeDraftChecksum noteRuntime.sha256Sync (noted "unpaid").value := by
  have hdiffer : ¬SameJson (noted "paid").json (noted "unpaid").json := by decide
  have hd : Distinguished (noted "paid") (noted "unpaid") := by
    intro hplain
    revert hplain
    decide
  obtain ⟨-, -, hdigest, hchecksum, -⟩ :=
    canonical_texts_iff sha256Sync_injective (noted "paid") (noted "unpaid")
  exact ⟨fun h => hdiffer ((hdigest.mpr hd).mp h), fun h => hdiffer ((hchecksum.mpr hd).mp h)⟩

def emptyObject : JsonObject Int where
  fields := []
  distinct := by simp [DistinctKeys, DistinctFields]

def protoObject : JsonObject Int where
  fields := [("__proto__", .num (.finite 1))]
  distinct := by simp [DistinctKeys, DistinctFields]

/-- A property named `__proto__` is in no canonical text. -/
theorem proto_left_out :
    canonicalizeMetadata protoObject.value = "\x7b\x7d" ∧ canonicalizeMetadata emptyObject.value = "\x7b\x7d" ∧
      canonicalizeDraft protoObject.value = canonicalizeDraft emptyObject.value ∧
      ¬SameJson protoObject.json emptyObject.json := by
  refine ⟨by decide +kernel, by decide +kernel, by decide +kernel, by decide⟩

end ZkPayroll.Draft
