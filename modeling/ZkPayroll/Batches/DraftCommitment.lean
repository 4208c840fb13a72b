import ZkPayroll.Framework.JsValue
import ZkPayroll.Framework.Quoted
import ZkPayroll.Framework.Separated

/-!
# The commitment to the metadata of a draft

`computeDraftMetadataCommitment` of `batches/diff.ts`: the SHA-256 of a
draft's four texts and of the stable JSON texts of its policy and its
approvals, joined by `|`. `stableStringify` writes a value with its keys in
order (`stableStringify_eq`), so a `|` in a policy or an approval is always
inside a JSON string and does no harm; one in the four texts does
(`draft_fields_eq`, `draft_ambiguous`).
-/

namespace ZkPayroll.Batches

open Framework

variable {ν : Type}

section Stable

variable [NumberFormat ν]

/-- The order of `entries.sort`, by key. -/
def leEntry (e f : String × List Char) : Prop := leUnits e.1 f.1

instance : DecidableRel leEntry := fun e f => inferInstanceAs (Decidable (leUnits e.1 f.1))

mutual

/-- `stableStringify(value)`. -/
def stableStringify : Json (JsNumber ν) → List Char
  | .arr items => '[' :: [','].intercalate (stableStringifyItems items) ++ [']']
  | .obj fields =>
    let entries := ((stableStringifyEntries fields).insertionSort leEntry).map fun e =>
      '"' :: quoteTail e.1 ++ ':' :: e.2
    '\x7b' :: [','].intercalate entries ++ ['\x7d']
  | v => stringifyChars (written v)

/-- Item by item. -/
def stableStringifyItems : List (Json (JsNumber ν)) → List (List Char)
  | [] => []
  | v :: items => stableStringify v :: stableStringifyItems items

/-- Field by field. -/
def stableStringifyEntries : List (String × Json (JsNumber ν)) → List (String × List Char)
  | [] => []
  | (k, v) :: fields => (k, stableStringify v) :: stableStringifyEntries fields

end

theorem stableStringifyItems_eq_map (items : List (Json (JsNumber ν))) :
    stableStringifyItems items = items.map stableStringify := by
  induction items with
  | nil => rfl
  | cons v items ih => rw [stableStringifyItems, ih, List.map_cons]

theorem stableStringifyEntries_eq_mapValues (fields : List (String × Json (JsNumber ν))) :
    stableStringifyEntries fields = mapValues stableStringify fields := by
  induction fields with
  | nil => rfl
  | cons f fields ih =>
    obtain ⟨k, v⟩ := f
    rw [stableStringifyEntries, ih]
    rfl

theorem stringifyChars_arr (items : List (Json ν)) :
    stringifyChars (.arr items) = '[' :: [','].intercalate (items.map stringifyChars) ++ [']'] := by
  have htail : ∀ items : List (Json ν),
      stringifyItems items = separate ',' (items.map stringifyChars) ++ [']'] := by
    intro items
    induction items with
    | nil => rfl
    | cons v items ih => simp [stringifyItems, ih]
  cases items with
  | nil => rfl
  | cons v items => rw [stringifyChars, htail, List.map_cons, intercalate_cons]; simp

theorem stringifyChars_obj (fields : List (String × Json ν)) :
    stringifyChars (.obj fields) = '\x7b' :: [','].intercalate
      (fields.map fun f => '"' :: quoteTail f.1 ++ ':' :: stringifyChars f.2) ++ ['\x7d'] := by
  have htail : ∀ fields : List (String × Json ν), stringifyFields fields =
      separate ',' (fields.map fun f => '"' :: quoteTail f.1 ++ ':' :: stringifyChars f.2) ++ ['\x7d'] := by
    intro fields
    induction fields with
    | nil => rfl
    | cons f fields ih =>
      obtain ⟨k, v⟩ := f
      simp [stringifyFields, ih]
  cases fields with
  | nil => rfl
  | cons f fields =>
    obtain ⟨k, v⟩ := f
    rw [stringifyChars, htail, List.map_cons, intercalate_cons]
    simp

/-- The stable text is the JSON text of what is written, with the keys in
order. -/
theorem stableStringify_eq (v : Json (JsNumber ν)) : stableStringify v = stringifyChars (sortKeys (written v)) := by
  rw [sortKeys_eq_rearrange]
  induction v using Json.induct with
  | null => rfl
  | num n => cases n <;> rfl
  | bool b => rfl
  | str s => rfl
  | arr items ih =>
    simp only [stableStringify, written, mapAtoms, rearrange_arr, stringifyChars_arr, stableStringifyItems_eq_map,
      mapAtomsItems_eq_map, List.map_map]
    exact congrArg (fun l => '[' :: [','].intercalate l ++ [']']) (List.map_congr_left ih)
  | obj fields ih =>
    simp only [stableStringify, written, mapAtoms, rearrange_obj, stringifyChars_obj,
      stableStringifyEntries_eq_mapValues, mapAtomsFields_eq_map, mapValues_mapValues]
    have hentries : mapValues stableStringify fields =
        mapValues stringifyChars (mapValues (fun v => rearrange .sorted (written v)) fields) := by
      rw [mapValues_mapValues]
      exact mapValues_congr ih
    have hsort : ∀ l : List (String × List Char), l.insertionSort leEntry = Rearrangement.sorted.run l := fun _ => rfl
    rw [hentries, hsort, Rearrangement.sorted.natural, mapValues, List.map_map]
    rfl

theorem closed_stableStringify (v : Json (JsNumber ν)) : Closed '|' (stableStringify v) := by
  rw [stableStringify_eq]
  exact closed_stringifyChars (by decide) _

/-- Stable texts are the same exactly when what is written is, up to the order
of keys. -/
theorem stableStringify_eq_iff {v w : Json (JsNumber ν)} (hv : DistinctKeys v) (hw : DistinctKeys w) :
    stableStringify v = stableStringify w ↔ SameJson (written v) (written w) := by
  rw [stableStringify_eq, stableStringify_eq, SameJson]
  have hkeys : ∀ {u : Json (JsNumber ν)}, DistinctKeys u → DistinctKeys (sortKeys (written u)) := fun hu =>
    distinctKeys_sortKeys (distinctKeys_mapAtoms _ hu)
  constructor
  · intro h
    exact stringify_injective (hkeys hv) (hkeys hw) (congrArg String.ofList h)
  · exact fun h => congrArg stringifyChars h

end Stable

/-! ## Drafts -/

/-- `CompiledPayrollDraft`, without its recipients. -/
structure CompiledPayrollDraft (ν : Type) where
  draftId : String
  totalAmount : String
  asset : String
  scheduleTimestamp : String
  policy : Json (JsNumber ν)
  approvals : Json (JsNumber ν)
  distinct_policy : DistinctKeys policy
  distinct_approvals : DistinctKeys approvals

/-- The drafts agree in what a commitment covers. -/
structure SameDraft (c d : CompiledPayrollDraft ν) : Prop where
  draftId : c.draftId = d.draftId
  totalAmount : c.totalAmount = d.totalAmount
  asset : c.asset = d.asset
  scheduleTimestamp : c.scheduleTimestamp = d.scheduleTimestamp
  policy : SameJson c.policy d.policy
  approvals : SameJson c.approvals d.approvals

/-- No text of the draft has a `|`, and JSON can write its policy and its
approvals. -/
structure DraftUnambiguous (d : CompiledPayrollDraft ν) : Prop where
  draftId : '|' ∉ d.draftId.toList
  totalAmount : '|' ∉ d.totalAmount.toList
  asset : '|' ∉ d.asset.toList
  scheduleTimestamp : '|' ∉ d.scheduleTimestamp.toList
  policy : Writable d.policy
  approvals : Writable d.approvals

variable [NumberFormat ν]

/-- What `computeDraftMetadataCommitment` hashes. -/
def draftPayload (draft : CompiledPayrollDraft ν) : String :=
  "|".intercalate
    ["zkpayroll-draft-metadata-v1", draft.draftId, draft.totalAmount, draft.asset, draft.scheduleTimestamp,
      String.ofList (stableStringify draft.policy), String.ofList (stableStringify draft.approvals)]

/-- `computeDraftMetadataCommitment(draft)`, where `sha256` is the hash of the
UTF-8 encoding of a string. -/
def computeDraftMetadataCommitment (sha256 : String → List UInt8) (draft : CompiledPayrollDraft ν) : String :=
  "draftmeta:" ++ String.ofList (hexEncode (sha256 (draftPayload draft)))

namespace CompiledPayrollDraft

/-- The four texts. -/
def leading (d : CompiledPayrollDraft ν) : List (List Char) :=
  [d.draftId.toList, d.totalAmount.toList, d.asset.toList, d.scheduleTimestamp.toList]

/-- What is written after the prefix. -/
def text (d : CompiledPayrollDraft ν) : List Char :=
  separate '|' d.leading ++ '|' :: (stableStringify d.policy ++ '|' :: stableStringify d.approvals)

end CompiledPayrollDraft

theorem toList_draftPayload (d : CompiledPayrollDraft ν) :
    (draftPayload d).toList = "zkpayroll-draft-metadata-v1".toList ++ d.text := by
  have h := toList_intercalate_cons '|' "zkpayroll-draft-metadata-v1"
    [d.draftId, d.totalAmount, d.asset, d.scheduleTimestamp, String.ofList (stableStringify d.policy),
      String.ofList (stableStringify d.approvals)]
  refine h.trans ?_
  simp [CompiledPayrollDraft.text, CompiledPayrollDraft.leading]

/-- Where SHA-256 does not collide, drafts have one commitment exactly when
they are written alike. -/
theorem computeDraftMetadataCommitment_eq_iff {sha256 : String → List UInt8} (hsha : Function.Injective sha256)
    {c d : CompiledPayrollDraft ν} :
    computeDraftMetadataCommitment sha256 c = computeDraftMetadataCommitment sha256 d ↔ c.text = d.text := by
  simp only [computeDraftMetadataCommitment, String.append_right_inj, String.ofList_inj,
    hexEncode_injective.eq_iff, hsha.eq_iff]
  rw [← String.toList_inj, toList_draftPayload, toList_draftPayload, List.append_right_inj]

/-- The fields of an unambiguous draft are found again. -/
theorem draft_fields_eq {c d : CompiledPayrollDraft ν} (hu : DraftUnambiguous d) (h : c.text = d.text) :
    SameDraft c d := by
  have hfree : ∀ x ∈ d.leading, '|' ∉ x := by
    simpa [CompiledPayrollDraft.leading] using ⟨hu.draftId, hu.totalAmount, hu.asset, hu.scheduleTimestamp⟩
  have hlen : d.leading.length = c.leading.length := rfl
  rcases separate_append_cases hlen hfree h.symm with ⟨hlead, hvalues⟩ | ⟨mid, -, hmid⟩
  · obtain ⟨hpolicy, happrovals⟩ := joined_inj (by decide) (closed_stableStringify d.policy)
      (closed_stableStringify c.policy) hvalues
    rw [stableStringify_eq_iff d.distinct_policy c.distinct_policy] at hpolicy
    rw [stableStringify_eq_iff d.distinct_approvals c.distinct_approvals] at happrovals
    simp only [CompiledPayrollDraft.leading, List.cons.injEq, String.toList_inj, and_true] at hlead
    exact ⟨hlead.1.symm, hlead.2.1.symm, hlead.2.2.1.symm, hlead.2.2.2.symm,
      sameJson_of_written hu.policy hpolicy.symm, sameJson_of_written hu.approvals happrovals.symm⟩
  · -- the texts of the other draft reach into the policy or the approvals
    exact absurd hmid (not_joined_suffix (by decide) (by decide) (closed_stableStringify _)
      (closed_stableStringify _) (closed_stableStringify _) (closed_stableStringify _))

/-- Text moves across a `|` into the text beside it, and what is written as
`null` may be another value. -/
theorem draft_ambiguous {d : CompiledPayrollDraft ν} (hu : ¬DraftUnambiguous d) :
    ∃ c : CompiledPayrollDraft ν, c.text = d.text ∧ ¬SameDraft c d := by
  by_cases hid : '|' ∈ d.draftId.toList
  · obtain ⟨pre, post, hsplit⟩ := List.append_of_mem hid
    refine ⟨{ d with
      draftId := String.ofList pre
      totalAmount := String.ofList (post ++ '|' :: d.totalAmount.toList) }, ?_, fun h => ?_⟩
    · simp [CompiledPayrollDraft.text, CompiledPayrollDraft.leading, hsplit]
    · have := congrArg String.toList h.draftId
      simp [hsplit] at this
  by_cases htotal : '|' ∈ d.totalAmount.toList
  · obtain ⟨pre, post, hsplit⟩ := List.append_of_mem htotal
    refine ⟨{ d with
      totalAmount := String.ofList pre
      asset := String.ofList (post ++ '|' :: d.asset.toList) }, ?_, fun h => ?_⟩
    · simp [CompiledPayrollDraft.text, CompiledPayrollDraft.leading, hsplit]
    · have := congrArg String.toList h.totalAmount
      simp [hsplit] at this
  by_cases hasset : '|' ∈ d.asset.toList
  · obtain ⟨pre, post, hsplit⟩ := List.append_of_mem hasset
    refine ⟨{ d with
      asset := String.ofList pre
      scheduleTimestamp := String.ofList (post ++ '|' :: d.scheduleTimestamp.toList) }, ?_, fun h => ?_⟩
    · simp [CompiledPayrollDraft.text, CompiledPayrollDraft.leading, hsplit]
    · have := congrArg String.toList h.asset
      simp [hsplit] at this
  by_cases hschedule : '|' ∈ d.scheduleTimestamp.toList
  · obtain ⟨pre, post, hsplit⟩ := List.append_of_mem hschedule
    refine ⟨{ d with
      asset := String.ofList (d.asset.toList ++ '|' :: pre)
      scheduleTimestamp := String.ofList post }, ?_, fun h => ?_⟩
    · simp [CompiledPayrollDraft.text, CompiledPayrollDraft.leading, hsplit]
    · have := congrArg String.toList h.asset
      simp at this
  by_cases hpolicy : Writable d.policy
  · by_cases happrovals : Writable d.approvals
    · exact absurd ⟨hid, htotal, hasset, hschedule, hpolicy, happrovals⟩ hu
    · obtain ⟨v, hv, hother, hkeys⟩ := exists_written_eq_of_not_writable happrovals
      refine ⟨{ d with approvals := v, distinct_approvals := hkeys d.distinct_approvals }, ?_,
        fun h => hother h.approvals⟩
      simp [CompiledPayrollDraft.text, CompiledPayrollDraft.leading, stableStringify_eq, hv]
  · obtain ⟨v, hv, hother, hkeys⟩ := exists_written_eq_of_not_writable hpolicy
    refine ⟨{ d with policy := v, distinct_policy := hkeys d.distinct_policy }, ?_, fun h => hother h.policy⟩
    simp [CompiledPayrollDraft.text, CompiledPayrollDraft.leading, stableStringify_eq, hv]

end ZkPayroll.Batches
