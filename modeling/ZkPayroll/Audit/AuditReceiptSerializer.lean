import ZkPayroll.Core.Errors
import ZkPayroll.Draft.IndentedTexts
import ZkPayroll.Redaction.JsonAgreement

/-!
# Audit receipts as texts

`audit/auditReceiptSerializer.ts`. A receipt is known by its own properties, in
their order; its `metadata`, if it has some, is an object. With `redactPII` the
values under the keys of the metadata that name personal data are replaced, but
not those inside other values: `serializeAuditReceipt_eq_iff` says when two texts
are the same.
-/

namespace ZkPayroll.Audit

open Framework ZkPayroll.Core Redaction

variable {ν : Type}

/-! ## Serialization -/

/-- `AuditReceipt`, or what is given as one. -/
structure AuditReceipt (ν : Type) where
  fields : List (String × Json ν)
  distinct : DistinctKeys (.obj fields)
  /-- `metadata?: Record<string, unknown>`. -/
  metadata : ∀ v, fields.lookup "metadata" = some v → ∃ m, v = .obj m

structure AuditReceiptSerializeOptions where
  redactPII : Bool := false
  pretty : Bool := false

/-- `typeof v === "string"`. -/
def isString : Option (Json ν) → Bool
  | some (.str _) => true
  | _ => false

def isNumber : Option (Json ν) → Bool
  | some (.num _) => true
  | _ => false

def isBoolean : Option (Json ν) → Bool
  | some (.bool _) => true
  | _ => false

/-- `validateAuditReceiptShape` of an object. -/
def validateAuditReceiptShape (obj : List (String × Json ν)) : Bool :=
  isString (obj.lookup "receiptId") && isString (obj.lookup "payrollId") && isString (obj.lookup "timestamp") &&
    isString (obj.lookup "totalAmount") && isString (obj.lookup "currency") &&
    isNumber (obj.lookup "recipientCount") && isString (obj.lookup "complianceHash") &&
    isBoolean (obj.lookup "redacted")

/-- `/name|email|ssn|address|pii/i.test(key)`. -/
def namesPII (key : String) : Bool := mentions ["name", "email", "ssn", "address", "pii"] key.toList

/-- The own properties of `sanitizedMeta`; what is assigned to `__proto__` is
none of them. -/
def sanitizedMeta (metadata : List (String × Json ν)) : List (String × Json ν) :=
  (metadata.map fun f => if namesPII f.1 then (f.1, .str "[REDACTED]") else f).filter fun f => f.1 ≠ "__proto__"

/-- The copy of a receipt that is written. -/
def receiptCopy (options : AuditReceiptSerializeOptions) (receipt : List (String × Json ν)) : List (String × Json ν) :=
  if options.redactPII then
    let copy := setKey "redacted" (.bool true) receipt
    match copy.lookup "metadata" with
    | some (.obj metadata) => setKey "metadata" (.obj (sanitizedMeta metadata)) copy
    | _ => copy
  else receipt

def serializeAuditReceipt [NumberFormat ν] (receipt : AuditReceipt ν) (options : AuditReceiptSerializeOptions) :
    Except SdkError String :=
  if !validateAuditReceiptShape receipt.fields then
    .error (genericError "Invalid AuditReceipt shape provided for serialization")
  else
    let copy : Json ν := .obj (receiptCopy options receipt.fields)
    .ok (if options.pretty then String.ofList (Draft.indentedChars 0 copy) else stringify copy)

/-! ## Receipts that differ in their metadata -/

theorem distinctFields_setKey {key : String} {v : Json ν} {fields : List (String × Json ν)}
    (hv : DistinctKeys v) (h : DistinctFields fields) : DistinctFields (setKey key v fields) := by
  rw [distinctFields_iff] at h ⊢
  intro f hf
  rcases eq_or_mem_of_mem_setKey hf with rfl | hf
  · exact hv
  · exact h f hf

/-- A receipt with other metadata. -/
def AuditReceipt.withMetadata (receipt : AuditReceipt ν) (m : List (String × Json ν)) (hm : DistinctKeys (.obj m)) :
    AuditReceipt ν where
  fields := setKey "metadata" (.obj m) receipt.fields
  distinct := ⟨nodup_setKey receipt.distinct.1, distinctFields_setKey hm receipt.distinct.2⟩
  metadata v hv := by
    rw [lookup_setKey, if_pos rfl] at hv
    exact ⟨m, (Option.some.inj hv).symm⟩

/-- Metadata are not looked at by the check of the shape. -/
theorem validateAuditReceiptShape_setKey (v : Json ν) (fields : List (String × Json ν)) :
    validateAuditReceiptShape (setKey "metadata" v fields) = validateAuditReceiptShape fields := by
  simp [validateAuditReceiptShape]

/-- Metadata that agree but for what is stored under keys that name personal
data. -/
def SameAtTop : (metadata metadata' : List (String × Json ν)) → Prop
  | [], [] => True
  | (k, v) :: metadata, (l, w) :: metadata' =>
    k = l ∧ (namesPII k = true ∨ k = "__proto__" ∨ v = w) ∧ SameAtTop metadata metadata'
  | _, _ => False

theorem sanitizedMeta_cons (k : String) (v : Json ν) (metadata : List (String × Json ν)) :
    sanitizedMeta ((k, v) :: metadata) =
      if k = "__proto__" then sanitizedMeta metadata
      else (k, if namesPII k then .str "[REDACTED]" else v) :: sanitizedMeta metadata := by
  have hfield : (if namesPII k = true then (k, Json.str "[REDACTED]") else (k, v)) =
      (k, if namesPII k = true then Json.str "[REDACTED]" else v) := by
    split <;> rfl
  rw [sanitizedMeta, List.map_cons, hfield]
  by_cases hk : k = "__proto__"
  · rw [if_pos hk, List.filter_cons_of_neg (by simpa using hk), sanitizedMeta]
  · rw [if_neg hk, List.filter_cons_of_pos (by simpa using hk), sanitizedMeta]

/-- Sanitized metadata with the same keys. -/
theorem sanitizedMeta_eq_iff : ∀ metadata metadata' : List (String × Json ν),
    SameButFields namesPII true metadata metadata' →
    (sanitizedMeta metadata = sanitizedMeta metadata' ↔ SameAtTop metadata metadata')
  | [], [], _ => iff_of_true rfl trivial
  | (k, v) :: metadata, (l, w) :: metadata', h => by
    obtain ⟨rfl, -, hrest⟩ := h
    have ih := sanitizedMeta_eq_iff metadata metadata' hrest
    rw [sanitizedMeta_cons, sanitizedMeta_cons, SameAtTop, ← ih]
    by_cases hk : k = "__proto__"
    · simp [hk]
    · by_cases hp : namesPII k = true
      · simp [hk, hp]
      · simp [hk, hp]

/-- Sanitized metadata are an object with distinct keys. -/
theorem distinctKeys_sanitizedMeta {metadata : List (String × Json ν)} (h : DistinctKeys (.obj metadata)) :
    DistinctKeys (.obj (sanitizedMeta metadata)) := by
  obtain ⟨hkeys, hvalues⟩ := h
  have hmap : (metadata.map fun f => if namesPII f.1 then (f.1, Json.str "[REDACTED]") else f).map Prod.fst =
      metadata.map Prod.fst := by
    rw [List.map_map]
    refine List.map_congr_left fun f _ => ?_
    show (if namesPII f.1 = true then (f.1, Json.str "[REDACTED]") else f).1 = f.1
    split <;> rfl
  constructor
  · refine List.Nodup.sublist (List.filter_sublist.map Prod.fst) ?_
    rwa [hmap]
  · rw [distinctFields_iff] at hvalues ⊢
    intro f hf
    obtain ⟨g, hg, rfl⟩ := List.mem_map.mp (List.mem_of_mem_filter hf)
    split
    · trivial
    · exact hvalues g hg

/-! ## When two texts are the same -/

section Texts

variable {receipt : AuditReceipt ν} {m m' : List (String × Json ν)}
variable (pretty : Bool)

theorem receiptCopy_withMetadata (hm : DistinctKeys (.obj m)) :
    receiptCopy { redactPII := true, pretty } (receipt.withMetadata m hm).fields =
      setKey "metadata" (.obj (sanitizedMeta m))
        (setKey "redacted" (.bool true) (setKey "metadata" (.obj m) receipt.fields)) := by
  have hlookup : (setKey "redacted" (.bool true) (setKey "metadata" (.obj m) receipt.fields)).lookup "metadata" =
      some (Json.obj m) := by
    rw [lookup_setKey, if_neg (by decide), lookup_setKey, if_pos rfl]
  rw [receiptCopy, if_pos rfl]
  show (match (setKey "redacted" _ (setKey "metadata" (Json.obj m) receipt.fields)).lookup "metadata" with
    | some (.obj metadata) => _
    | _ => _) = _
  rw [hlookup]
  rfl

theorem distinctKeys_receiptCopy (hm : DistinctKeys (.obj m)) :
    DistinctKeys (.obj (receiptCopy { redactPII := true, pretty } (receipt.withMetadata m hm).fields)) := by
  rw [receiptCopy_withMetadata]
  exact ⟨nodup_setKey (nodup_setKey (nodup_setKey receipt.distinct.1)),
    distinctFields_setKey (distinctKeys_sanitizedMeta hm)
      (distinctFields_setKey trivial (distinctFields_setKey hm receipt.distinct.2))⟩

/-- The copies are the same just where the sanitized metadata are. -/
theorem receiptCopy_eq_iff (hm : DistinctKeys (.obj m)) (hm' : DistinctKeys (.obj m')) :
    receiptCopy { redactPII := true, pretty } (receipt.withMetadata m hm).fields =
        receiptCopy { redactPII := true, pretty } (receipt.withMetadata m' hm').fields ↔
      sanitizedMeta m = sanitizedMeta m' := by
  rw [receiptCopy_withMetadata, receiptCopy_withMetadata]
  constructor
  · intro heq
    have hlookup := congrArg (List.lookup "metadata") heq
    rw [lookup_setKey, if_pos rfl, lookup_setKey, if_pos rfl] at hlookup
    exact Json.obj.inj (Option.some.inj hlookup)
  · intro heq
    rw [heq]
    exact setKey_replaced (by decide) receipt.fields

variable [NumberFormat ν]

/-- The texts of a receipt with metadata that differ only under keys that name
personal data are the same if and only if the metadata are the same below their
own keys. -/
theorem serializeAuditReceipt_eq_iff (hvalid : validateAuditReceiptShape receipt.fields = true) (pretty : Bool)
    (hm : DistinctKeys (.obj m)) (hm' : DistinctKeys (.obj m')) (h : SameBut namesPII true (.obj m) (.obj m')) :
    serializeAuditReceipt (receipt.withMetadata m hm) { redactPII := true, pretty } =
        serializeAuditReceipt (receipt.withMetadata m' hm') { redactPII := true, pretty } ↔ SameAtTop m m' := by
  have hshape : ∀ m (hm : DistinctKeys (.obj m)),
      validateAuditReceiptShape (receipt.withMetadata m hm).fields = true := by
    intro m hm
    rw [AuditReceipt.withMetadata, validateAuditReceiptShape_setKey, hvalid]
  rw [← sanitizedMeta_eq_iff m m' h, ← receiptCopy_eq_iff pretty hm hm', serializeAuditReceipt, serializeAuditReceipt,
    hshape, hshape]
  constructor
  · intro heq
    have hcopy : stringify (.obj (receiptCopy { redactPII := true, pretty } (receipt.withMetadata m hm).fields)) =
        stringify (.obj (receiptCopy { redactPII := true, pretty } (receipt.withMetadata m' hm').fields)) := by
      have htext := Except.ok.inj heq
      cases pretty with
      | true => exact Draft.stringify_eq_of_indentedChars (String.ofList_injective htext)
      | false => exact htext
    exact Json.obj.inj
      (stringify_injective (distinctKeys_receiptCopy pretty hm) (distinctKeys_receiptCopy pretty hm') hcopy)
  · intro heq
    rw [heq]

end Texts

end ZkPayroll.Audit
