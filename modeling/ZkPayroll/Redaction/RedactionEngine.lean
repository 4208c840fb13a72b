import ZkPayroll.Core.Errors
import ZkPayroll.Framework.JsValue

/-!
# Redaction of errors and of nested values

`redaction/RedactionEngine.ts`. In the message of an error `redactError`, with its
default options, replaces what follows a sensitive field and `:` or `=`.

Of `redactDeep`, plain values are primitive values, arrays and objects; an object
is known by its own properties, in their order, and by the prototype that an
assignment to `__proto__` gave it. What is stored under a sensitive key shows only
in the mode `mask` (`walk_congr`). A second redaction gives every object an
ordinary prototype again (`clean_clean`), and changes nothing else.
-/

namespace ZkPayroll.Redaction

open Framework ZkPayroll.Core

/-- `DEFAULT_SENSITIVE_FIELDS`. -/
def defaultSensitiveFields : List String :=
  ["recipient", "amount", "witness", "privateKey", "adminKey", "secret", "password", "token",
    "mnemonic", "seed", "authorization", "apiKey", "api_key", "accessToken", "access_token",
    "refreshToken", "refresh_token", "signingKey"]

/-- A character of `[^\s,}]`. -/
def isValueChar (c : Char) : Bool := !(isSpace c || c == ',' || c == '}')

/-- A match of `(field\s*[:=]\s*)([^\s,}]+)` at the start of `cs`: its first
group, and the length of its second. -/
def matchAssignment (field cs : List Char) : Option (List Char × Nat) :=
  match dropPrefixInsensitive (field.map lowerAscii) cs with
  | none => none
  | some rest =>
    match rest.dropWhile isSpace with
    | [] => none
    | c :: rest =>
      let value := rest.dropWhile isSpace
      let length := (value.takeWhile isValueChar).length
      if (c = ':' ∨ c = '=') ∧ 0 < length then some (cs.take (cs.length - value.length), length)
      else none

/-- `message.replace(pattern, "$1" + placeholder)` for one field; `skip`
characters belong to the last match. -/
def redactField (field placeholder : List Char) : (skip : Nat) → List Char → List Char
  | _, [] => []
  | skip + 1, _ :: cs => redactField field placeholder skip cs
  | 0, c :: cs =>
    match matchAssignment field (c :: cs) with
    | some (label, length) =>
      label ++ placeholder ++ redactField field placeholder (label.length + length - 1) cs
    | none => c :: redactField field placeholder 0 cs

def redactMessage (message : String) : String :=
  String.ofList <| defaultSensitiveFields.foldl
    (fun cs field => redactField field.toList "[redacted]".toList 0 cs) message.toList

/-- `redactError(error)`. The new error is made by the constructor of the old
one from the message alone, so its other fields are the constructor's defaults;
that of `BatchValidationFailedError` takes the message for its list of
errors. -/
def redactError (error : SdkError) : SdkError :=
  let message := redactMessage error.message
  match error.kind with
  | .network =>
    { kind := .network, name := error.name, message, code := "NETWORK_ERROR", stack := error.stack }
  | .contractExecution =>
    { kind := .contractExecution, name := error.name, message, stack := error.stack,
      code :=
        if error.name = "RpcTimeoutError" then "RPC_TIMEOUT"
        else if error.name = "InvalidResponseError" then "INVALID_RESPONSE"
        else "UNKNOWN_RPC_ERROR" }
  | .proofGeneration =>
    { kind := .proofGeneration, name := error.name, message, code := "PROOF_GENERATION_FAILED",
      stack := error.stack }
  | .validation =>
    { kind := .validation, name := error.name, message, code := "VALIDATION_ERROR",
      stack := error.stack }
  | .batchValidationFailed =>
    { kind := .batchValidationFailed, name := error.name,
      message := s!"Batch validation failed with {(codeUnits message).length} error(s)",
      code := "BATCH_VALIDATION_FAILED", stack := error.stack }
  | kind => { kind, name := error.name, message, stack := error.stack }

variable {ν : Type}

/-! ## Data -/

/-- A value that is no object. Texts are lists of code units. -/
inductive Primitive (ν : Type) where
  | undefined
  | null
  | bool (b : Bool)
  | num (n : JsNumber ν)
  | bigint (n : Int)
  | str (units : List Nat)

/-- A value without cycles. -/
inductive PlainValue (ν : Type) where
  | prim (p : Primitive ν)
  | arr (items : List (PlainValue ν))
  | obj (fields : List (String × PlainValue ν))
  /-- An object whose prototype was set. -/
  | objOf (proto : PlainValue ν) (fields : List (String × PlainValue ν))

inductive RedactionMode where
  | mask
  | remove
  | placeholder
  deriving DecidableEq

structure RedactionOptions where
  mode : Option RedactionMode := none
  placeholder : Option (List Nat) := none
  additionalFields : Option (List String) := none

structure RedactionResult (ν : Type) where
  redacted : PlainValue ν
  fieldsRedacted : List String

/-! ## Redaction -/

def buildFieldSet (options : RedactionOptions) : List String :=
  defaultSensitiveFields ++ options.additionalFields.getD []

def maskValue (value : List Nat) : List Nat :=
  if value.length ≤ 4 then List.replicate value.length 42
  else value.take 2 ++ List.replicate (value.length - 4) 42 ++ value.drop (value.length - 2)

section Walk

variable (asText : PlainValue ν → List Nat) (options : RedactionOptions)

/-- `asText` is `String`, of which nothing is known for objects. -/
def applyRedaction (value : PlainValue ν) : Option (PlainValue ν) :=
  match options.mode.getD .placeholder with
  | .remove => none
  | .mask =>
    match value with
    | .prim (.str units) => some (.prim (.str (maskValue units)))
    | value => some (.prim (.str (maskValue (asText value))))
  | .placeholder => some (.prim (.str (options.placeholder.getD (codeUnits "[redacted]"))))

omit options asText in
/-- Whether a value can be a prototype. -/
def PlainValue.isPrototype : PlainValue ν → Bool
  | .prim .null => true
  | .prim _ => false
  | .arr _ => true
  | .obj _ => true
  | .objOf _ _ => true

omit options asText in
/-- An object to which the values were assigned, each to a key of its own. An
assignment to `__proto__` sets the prototype, or does nothing. -/
def assignedTo (assignments : List (String × PlainValue ν)) : PlainValue ν :=
  let own := assignments.filter fun f => f.1 ≠ "__proto__"
  match assignments.find? fun f => f.1 = "__proto__" && f.2.isPrototype with
  | some f => .objOf f.2 own
  | none => .obj own

/-- `if (!fieldsRedacted.includes(key)) fieldsRedacted.push(key)`. -/
def noteField (fieldsRedacted : List String) (key : String) : List String :=
  if key ∈ fieldsRedacted then fieldsRedacted else fieldsRedacted ++ [key]

mutual

/-- `walk`, with the fields that are redacted so far and after it. -/
def walk : PlainValue ν → List String → PlainValue ν × List String
  | .prim p, fieldsRedacted => (.prim p, fieldsRedacted)
  | .arr items, fieldsRedacted =>
    let r := walkItems items fieldsRedacted
    (.arr r.1, r.2)
  | .obj fields, fieldsRedacted =>
    let r := walkFields fields fieldsRedacted
    (assignedTo r.1, r.2)
  | .objOf _ fields, fieldsRedacted =>
    let r := walkFields fields fieldsRedacted
    (assignedTo r.1, r.2)

/-- The items in turn. -/
def walkItems : List (PlainValue ν) → List String → List (PlainValue ν) × List String
  | [], fieldsRedacted => ([], fieldsRedacted)
  | v :: items, fieldsRedacted =>
    let r := walk v fieldsRedacted
    let rest := walkItems items r.2
    (r.1 :: rest.1, rest.2)

/-- The assignments to the properties of the new object. -/
def walkFields : List (String × PlainValue ν) → List String → List (String × PlainValue ν) × List String
  | [], fieldsRedacted => ([], fieldsRedacted)
  | (key, val) :: fields, fieldsRedacted =>
    if key ∈ buildFieldSet options then
      let rest := walkFields fields (noteField fieldsRedacted key)
      match applyRedaction asText options val with
      | some replacement => ((key, replacement) :: rest.1, rest.2)
      | none => rest
    else
      let r := walk val fieldsRedacted
      let rest := walkFields fields r.2
      ((key, r.1) :: rest.1, rest.2)

end

def redactDeep (value : PlainValue ν) (fieldsRedacted : List String) : RedactionResult ν :=
  let r := walk asText options value fieldsRedacted
  { redacted := r.1, fieldsRedacted := r.2 }

end Walk

/-! ## What sensitive values show -/

section Agreement

mutual

/-- The values differ only in what is stored under the keys. -/
def AgreeBut (keys : List String) : PlainValue ν → PlainValue ν → Prop
  | .prim p, .prim q => p = q
  | .arr items, .arr items' => AgreeButItems keys items items'
  | .obj fields, .obj fields' => AgreeButFields keys fields fields'
  | .objOf proto fields, .objOf proto' fields' => AgreeBut keys proto proto' ∧ AgreeButFields keys fields fields'
  | _, _ => False

/-- Item by item. -/
def AgreeButItems (keys : List String) : List (PlainValue ν) → List (PlainValue ν) → Prop
  | [], [] => True
  | v :: items, w :: items' => AgreeBut keys v w ∧ AgreeButItems keys items items'
  | _, _ => False

/-- Field by field, but for the values of the keys. -/
def AgreeButFields (keys : List String) : List (String × PlainValue ν) → List (String × PlainValue ν) → Prop
  | [], [] => True
  | (k, v) :: fields, (k', w) :: fields' =>
    k = k' ∧ (k ∈ keys ∨ AgreeBut keys v w) ∧ AgreeButFields keys fields fields'
  | _, _ => False

end

variable {asText : PlainValue ν → List Nat} {options : RedactionOptions}

/-- A replacement does not depend on the value. -/
theorem applyRedaction_congr (hmode : options.mode ≠ some .mask) (v w : PlainValue ν) :
    applyRedaction asText options v = applyRedaction asText options w := by
  unfold applyRedaction
  cases hm : options.mode with
  | none => rfl
  | some mode =>
    cases mode with
    | mask => exact absurd hm hmode
    | remove => rfl
    | placeholder => rfl

mutual

theorem walk_congr (hmode : options.mode ≠ some .mask) : ∀ (v w : PlainValue ν) (s : List String),
    AgreeBut (buildFieldSet options) v w → walk asText options v s = walk asText options w s
  | .prim p, .prim q, s, h => by
    rw [show p = q from h]
  | .arr items, .arr items', s, h => by
    simp only [walk, walkItems_congr hmode items items' s h]
  | .obj fields, .obj fields', s, h => by
    simp only [walk, walkFields_congr hmode fields fields' s h]
  | .objOf _ fields, .objOf _ fields', s, h => by
    simp only [walk, walkFields_congr hmode fields fields' s h.2]

theorem walkItems_congr (hmode : options.mode ≠ some .mask) : ∀ (items items' : List (PlainValue ν))
    (s : List String), AgreeButItems (buildFieldSet options) items items' →
    walkItems asText options items s = walkItems asText options items' s
  | [], [], _, _ => rfl
  | v :: items, w :: items', s, h => by
    simp only [walkItems, walk_congr hmode v w s h.1]
    rw [walkItems_congr hmode items items' _ h.2]

theorem walkFields_congr (hmode : options.mode ≠ some .mask) : ∀ (fields fields' : List (String × PlainValue ν))
    (s : List String), AgreeButFields (buildFieldSet options) fields fields' →
    walkFields asText options fields s = walkFields asText options fields' s
  | [], [], _, _ => rfl
  | (k, v) :: fields, (k', w) :: fields', s, h => by
    obtain ⟨rfl, hvalue, hrest⟩ := h
    by_cases hk : k ∈ buildFieldSet options
    · simp only [walkFields, hk, if_true]
      rw [walkFields_congr hmode fields fields' _ hrest, applyRedaction_congr hmode v w]
    · simp only [walkFields, hk, if_false]
      rw [walk_congr hmode v w s (hvalue.resolve_left hk), walkFields_congr hmode fields fields' _ hrest]

end

end Agreement

/-! ## Redacting twice -/

section Twice

variable (asText : PlainValue ν → List Nat) (options : RedactionOptions)

mutual

/-- The value that `walk` gives, whatever was redacted before. -/
def clean : PlainValue ν → PlainValue ν
  | .prim p => .prim p
  | .arr items => .arr (cleanItems items)
  | .obj fields => assignedTo (cleanFields fields)
  | .objOf _ fields => assignedTo (cleanFields fields)

/-- Item by item. -/
def cleanItems : List (PlainValue ν) → List (PlainValue ν)
  | [] => []
  | v :: items => clean v :: cleanItems items

/-- Field by field, but for the redacted ones. -/
def cleanFields : List (String × PlainValue ν) → List (String × PlainValue ν)
  | [] => []
  | (key, val) :: fields =>
    if key ∈ buildFieldSet options then
      match applyRedaction asText options val with
      | some replacement => (key, replacement) :: cleanFields fields
      | none => cleanFields fields
    else (key, clean val) :: cleanFields fields

end

mutual

theorem walk_fst : ∀ (v : PlainValue ν) (s : List String), (walk asText options v s).1 = clean asText options v
  | .prim p, s => rfl
  | .arr items, s => by
    simp only [walk, clean]
    rw [walkItems_fst items s]
  | .obj fields, s => by
    simp only [walk, clean]
    rw [walkFields_fst fields s]
  | .objOf _ fields, s => by
    simp only [walk, clean]
    rw [walkFields_fst fields s]

theorem walkItems_fst : ∀ (items : List (PlainValue ν)) (s : List String),
    (walkItems asText options items s).1 = cleanItems asText options items
  | [], s => rfl
  | v :: items, s => by
    simp only [walkItems, cleanItems]
    rw [walk_fst v s, walkItems_fst items _]

theorem walkFields_fst : ∀ (fields : List (String × PlainValue ν)) (s : List String),
    (walkFields asText options fields s).1 = cleanFields asText options fields
  | [], s => rfl
  | (key, val) :: fields, s => by
    by_cases hkey : key ∈ buildFieldSet options
    · simp only [walkFields, cleanFields, hkey, if_true]
      cases applyRedaction asText options val with
      | none => exact walkFields_fst fields _
      | some replacement =>
        show (key, replacement) :: (walkFields asText options fields _).1 = _
        rw [walkFields_fst fields _]
    · simp only [walkFields, cleanFields, hkey, if_false]
      rw [walk_fst val s, walkFields_fst fields _]

end

end Twice

mutual

/-- The value with ordinary prototypes. -/
def ordinary : PlainValue ν → PlainValue ν
  | .prim p => .prim p
  | .arr items => .arr (ordinaryItems items)
  | .obj fields => .obj (ordinaryFields fields)
  | .objOf _ fields => .obj (ordinaryFields fields)

/-- Item by item. -/
def ordinaryItems : List (PlainValue ν) → List (PlainValue ν)
  | [] => []
  | v :: items => ordinary v :: ordinaryItems items

/-- Field by field. -/
def ordinaryFields : List (String × PlainValue ν) → List (String × PlainValue ν)
  | [] => []
  | (k, v) :: fields => (k, ordinary v) :: ordinaryFields fields

end

mutual

/-- Of the objects that are reached, none has a property `__proto__` that is not
redacted and that can be a prototype. -/
def NoProto (keys : List String) : PlainValue ν → Prop
  | .prim _ => True
  | .arr items => NoProtoItems keys items
  | .obj fields => NoProtoFields keys fields
  | .objOf _ fields => NoProtoFields keys fields

/-- Item by item. -/
def NoProtoItems (keys : List String) : List (PlainValue ν) → Prop
  | [] => True
  | v :: items => NoProto keys v ∧ NoProtoItems keys items

/-- Field by field. -/
def NoProtoFields (keys : List String) : List (String × PlainValue ν) → Prop
  | [] => True
  | (k, v) :: fields =>
    (k ∈ keys ∨ (k = "__proto__" → v.isPrototype = false) ∧ NoProto keys v) ∧ NoProtoFields keys fields

end

section Twice

variable {asText : PlainValue ν → List Nat} {options : RedactionOptions}

/-- What is put in place of a sensitive value is a text. -/
theorem applyRedaction_eq_some {v r : PlainValue ν} (h : applyRedaction asText options v = some r) :
    ∃ units, r = .prim (.str units) := by
  unfold applyRedaction at h
  split at h
  · cases h
  · split at h
    · cases h
      exact ⟨_, rfl⟩
    · cases h
      exact ⟨_, rfl⟩
  · cases h
    exact ⟨_, rfl⟩

variable (assignments : List (String × PlainValue ν))

theorem isPrototype_assignedTo : (assignedTo assignments).isPrototype = true := by
  unfold assignedTo
  split <;> rfl

theorem isPrototype_clean (v : PlainValue ν) : (clean asText options v).isPrototype = v.isPrototype := by
  cases v with
  | prim p => rfl
  | arr items => rfl
  | obj fields => exact isPrototype_assignedTo _
  | objOf proto fields => exact isPrototype_assignedTo _

/-- The own properties of an object to which values were assigned. -/
def ownOf (assignments : List (String × PlainValue ν)) : List (String × PlainValue ν) :=
  assignments.filter fun f => f.1 ≠ "__proto__"

theorem ownOf_cons (key : String) (v : PlainValue ν) (assignments : List (String × PlainValue ν)) :
    ownOf ((key, v) :: assignments) = if key = "__proto__" then ownOf assignments else (key, v) :: ownOf assignments := by
  rw [ownOf, List.filter_cons]
  by_cases hkey : key = "__proto__" <;> simp [hkey, ownOf]

theorem clean_assignedTo :
    clean asText options (assignedTo assignments) = assignedTo (cleanFields asText options (ownOf assignments)) := by
  unfold assignedTo
  split <;> rw [clean] <;> rfl

theorem ordinary_assignedTo :
    ordinary (assignedTo assignments) = .obj (ordinaryFields (ownOf assignments)) := by
  unfold assignedTo
  split <;> rw [ordinary] <;> rfl

/-- Without the key `__proto__`, assignments make ordinary objects. -/
theorem assignedTo_of_own {assignments : List (String × PlainValue ν)} (h : ∀ f ∈ assignments, f.1 ≠ "__proto__") :
    assignedTo assignments = .obj assignments := by
  have hnone : (assignments.find? fun f => f.1 = "__proto__" && f.2.isPrototype) = none := by
    rw [List.find?_eq_none]
    intro f hf
    simp [h f hf]
  unfold assignedTo
  rw [hnone]
  simp only [PlainValue.obj.injEq]
  exact List.filter_eq_self.mpr fun f hf => by simpa using h f hf

theorem keys_ordinaryFields {f : String × PlainValue ν} : ∀ {fields : List (String × PlainValue ν)},
    f ∈ ordinaryFields fields → ∃ g ∈ fields, g.1 = f.1
  | [], h => by simp [ordinaryFields] at h
  | (k, v) :: fields, h => by
    rw [ordinaryFields, List.mem_cons] at h
    rcases h with rfl | h
    · exact ⟨(k, v), List.mem_cons_self, rfl⟩
    · obtain ⟨g, hg, hk⟩ := keys_ordinaryFields h
      exact ⟨g, List.mem_cons_of_mem _ hg, hk⟩

mutual

/-- A second redaction only gives every object an ordinary prototype. -/
theorem clean_clean (hmode : options.mode ≠ some .mask) : ∀ v : PlainValue ν,
    clean asText options (clean asText options v) = ordinary (clean asText options v)
  | .prim p => rfl
  | .arr items => by
    simp only [clean, ordinary]
    rw [cleanItems_cleanItems hmode items]
  | .obj fields => by
    rw [clean]
    exact clean_object hmode fields
  | .objOf _ fields => by
    rw [clean]
    exact clean_object hmode fields

theorem clean_object (hmode : options.mode ≠ some .mask) (fields : List (String × PlainValue ν)) :
    clean asText options (assignedTo (cleanFields asText options fields)) =
      ordinary (assignedTo (cleanFields asText options fields)) := by
  rw [clean_assignedTo, ordinary_assignedTo, cleanFields_cleanFields hmode fields]
  refine assignedTo_of_own fun f hf => ?_
  obtain ⟨g, hg, hk⟩ := keys_ordinaryFields hf
  rw [← hk]
  simpa using (List.mem_filter.mp hg).2

theorem cleanItems_cleanItems (hmode : options.mode ≠ some .mask) : ∀ items : List (PlainValue ν),
    cleanItems asText options (cleanItems asText options items) = ordinaryItems (cleanItems asText options items)
  | [] => rfl
  | v :: items => by
    simp only [cleanItems, ordinaryItems]
    rw [clean_clean hmode v, cleanItems_cleanItems hmode items]

theorem cleanFields_cleanFields (hmode : options.mode ≠ some .mask) : ∀ fields : List (String × PlainValue ν),
    cleanFields asText options (ownOf (cleanFields asText options fields)) =
      ordinaryFields (ownOf (cleanFields asText options fields))
  | [] => rfl
  | (key, val) :: fields => by
    have ih := cleanFields_cleanFields hmode fields
    by_cases hkey : key ∈ buildFieldSet options
    · cases hr : applyRedaction asText options val with
      | none => simpa only [cleanFields, hkey, if_true, hr] using ih
      | some r =>
        obtain ⟨units, hunits⟩ := applyRedaction_eq_some hr
        have hagain : applyRedaction asText options r = some r := by rw [applyRedaction_congr hmode r val, hr]
        simp only [cleanFields, hkey, if_true, hr]
        rw [ownOf_cons]
        split
        · exact ih
        · simp only [cleanFields, hkey, if_true, hagain, ordinaryFields]
          rw [ih, hunits]
          rfl
    · simp only [cleanFields, hkey, if_false]
      rw [ownOf_cons]
      split
      · exact ih
      · simp only [cleanFields, hkey, if_false, ordinaryFields]
        rw [ih, clean_clean hmode val]

end

/-! ## When that changes nothing -/

theorem assignedTo_eq_ordinary_iff :
    ordinary (assignedTo assignments) = assignedTo assignments ↔
      (∀ f ∈ assignments, f.1 = "__proto__" → f.2.isPrototype = false) ∧
        ordinaryFields (ownOf assignments) = ownOf assignments := by
  rw [ordinary_assignedTo]
  unfold assignedTo
  cases hfound : assignments.find? fun f => f.1 = "__proto__" && f.2.isPrototype with
  | some f =>
    have hmem := List.mem_of_find?_eq_some hfound
    have hproto := List.find?_some hfound
    simp only [Bool.and_eq_true, decide_eq_true_eq] at hproto
    refine iff_of_false nofun fun h => ?_
    have hnot := h.1 f hmem hproto.1
    rw [hproto.2] at hnot
    cases hnot
  | none =>
    rw [List.find?_eq_none] at hfound
    simp only [Bool.and_eq_true, decide_eq_true_eq, not_and, Bool.not_eq_true] at hfound
    simp only [PlainValue.obj.injEq]
    exact ⟨fun h => ⟨hfound, h⟩, fun h => h.2⟩

theorem noProto_of_not_isPrototype {keys : List String} {v : PlainValue ν} (h : v.isPrototype = false) :
    NoProto keys v := by
  cases v with
  | prim p => trivial
  | arr items => cases h
  | obj fields => cases h
  | objOf proto fields => cases h

mutual

theorem ordinary_clean_iff : ∀ v : PlainValue ν,
    ordinary (clean asText options v) = clean asText options v ↔ NoProto (buildFieldSet options) v
  | .prim p => by simp only [clean, ordinary, NoProto]
  | .arr items => by
    simp only [clean, ordinary, NoProto, PlainValue.arr.injEq]
    exact ordinaryItems_clean_iff items
  | .obj fields => by
    rw [clean, NoProto, assignedTo_eq_ordinary_iff]
    exact ordinaryFields_clean_iff fields
  | .objOf _ fields => by
    rw [clean, NoProto, assignedTo_eq_ordinary_iff]
    exact ordinaryFields_clean_iff fields

theorem ordinaryItems_clean_iff : ∀ items : List (PlainValue ν),
    ordinaryItems (cleanItems asText options items) = cleanItems asText options items ↔
      NoProtoItems (buildFieldSet options) items
  | [] => by simp only [cleanItems, ordinaryItems, NoProtoItems]
  | v :: items => by
    simp only [cleanItems, ordinaryItems, NoProtoItems, List.cons.injEq]
    rw [ordinary_clean_iff v, ordinaryItems_clean_iff items]

theorem ordinaryFields_clean_iff : ∀ fields : List (String × PlainValue ν),
    (∀ f ∈ cleanFields asText options fields, f.1 = "__proto__" → f.2.isPrototype = false) ∧
        ordinaryFields (ownOf (cleanFields asText options fields)) = ownOf (cleanFields asText options fields) ↔
      NoProtoFields (buildFieldSet options) fields
  | [] => by simp [cleanFields, ownOf, ordinaryFields, NoProtoFields]
  | (key, val) :: fields => by
    have ih := ordinaryFields_clean_iff fields
    rw [NoProtoFields, ← ih]
    by_cases hkey : key ∈ buildFieldSet options
    · simp only [hkey, true_or, true_and]
      cases hr : applyRedaction asText options val with
      | none => simp only [cleanFields, hkey, if_true, hr]
      | some r =>
        obtain ⟨units, rfl⟩ := applyRedaction_eq_some hr
        simp only [cleanFields, hkey, if_true, hr, List.forall_mem_cons]
        rw [ownOf_cons]
        split
        · simp only [PlainValue.isPrototype, implies_true, true_and]
        · simp only [PlainValue.isPrototype, implies_true, true_and, ordinaryFields, ordinary, List.cons.injEq]
    · simp only [hkey, false_or, cleanFields, if_false, List.forall_mem_cons, isPrototype_clean]
      rw [ownOf_cons]
      split
      · rename_i hproto
        simp only [hproto, true_imp_iff]
        refine ⟨fun h => ⟨⟨h.1.1, noProto_of_not_isPrototype h.1.1⟩, h.1.2, h.2⟩, fun h => ⟨⟨h.1.1, h.2.1⟩, h.2.2⟩⟩
      · rename_i hproto
        simp only [hproto, false_imp_iff, true_and, ordinaryFields, List.cons.injEq, Prod.mk.injEq,
          ordinary_clean_iff val]
        exact and_left_comm

end

/-- In the modes `placeholder` and `remove`, values that differ only under
sensitive keys are redacted alike, and a second redaction changes nothing just
where no prototype was set. -/
theorem redactDeep_safe_iff (asText : PlainValue ν → List Nat) (hmode : options.mode ≠ some .mask) :
    (∀ v w, AgreeBut (buildFieldSet options) v w → ∀ fieldsRedacted,
      redactDeep asText options v fieldsRedacted = redactDeep asText options w fieldsRedacted) ∧
    ∀ v, (∀ fieldsRedacted fieldsRedacted',
        (redactDeep asText options (redactDeep asText options v fieldsRedacted).redacted fieldsRedacted').redacted =
          (redactDeep asText options v fieldsRedacted).redacted) ↔
      NoProto (buildFieldSet options) v := by
  constructor
  · intro v w h fieldsRedacted
    rw [redactDeep, redactDeep, walk_congr hmode v w fieldsRedacted h]
  · intro v
    have htwice : ∀ s s', (redactDeep asText options (redactDeep asText options v s).redacted s').redacted =
        ordinary (clean asText options v) := by
      intro s s'
      show (walk asText options (walk asText options v s).1 s').1 = _
      rw [walk_fst, walk_fst, clean_clean hmode]
    have honce : ∀ s, (redactDeep asText options v s).redacted = clean asText options v := walk_fst asText options v
    have hiff : ordinary (clean asText options v) = clean asText options v ↔ _ := ordinary_clean_iff v
    rw [← hiff]
    constructor
    · intro h
      have hsame := h [] []
      rwa [htwice, honce] at hsame
    · intro h s s'
      rw [htwice, honce, h]

end Twice

/-! ## A property named `__proto__` -/

/-- What `JSON.parse` makes of an object with the key `__proto__`. -/
def protoValue : PlainValue Int := .obj [("__proto__", .obj [("a", .prim (.bool true))])]

/-- The first redaction turns the property into a prototype, which the second
does not see. -/
theorem proto_lost :
    (redactDeep (fun _ => []) {} protoValue []).redacted = .objOf (.obj [("a", .prim (.bool true))]) [] ∧
      (redactDeep (fun _ => []) {} (redactDeep (fun _ => []) {} protoValue []).redacted []).redacted = .obj [] ∧
      (redactDeep (fun _ => []) {} (redactDeep (fun _ => []) {} protoValue []).redacted []).redacted ≠
        (redactDeep (fun _ => []) {} protoValue []).redacted := by
  refine ⟨rfl, rfl, fun h => ?_⟩
  have h' : PlainValue.obj [] = PlainValue.objOf (.obj [("a", .prim (.bool true))]) [] := h
  cases h'

/-- A payment with a recipient, in an array. -/
def payments (recipient : List Nat) : PlainValue Int :=
  .arr [.obj [("recipient", .prim (.str recipient)), ("note", .prim (.str (codeUnits "rent")))]]

theorem payments_safe :
    redactDeep (fun _ => []) {} (payments (codeUnits "alice")) [] = redactDeep (fun _ => []) {} (payments []) [] ∧
      (redactDeep (fun _ => []) {} (redactDeep (fun _ => []) {} (payments []) []).redacted []).redacted =
        (redactDeep (fun _ => []) {} (payments []) []).redacted := by
  have hsafe := @redactDeep_safe_iff Int {} (fun _ => []) (by decide)
  have hrecipient : "recipient" ∈ buildFieldSet {} := by decide +kernel
  have hagree : AgreeBut (buildFieldSet {}) (payments (codeUnits "alice")) (payments []) := by
    simp only [payments, AgreeBut, AgreeButItems, AgreeButFields, hrecipient, true_or, or_true, and_self]
  have hproto : NoProto (buildFieldSet {}) (payments []) := by
    simp [payments, NoProto, NoProtoItems, NoProtoFields]
  exact ⟨hsafe.1 _ _ hagree [], (hsafe.2 (payments [])).mpr hproto [] []⟩

end ZkPayroll.Redaction
