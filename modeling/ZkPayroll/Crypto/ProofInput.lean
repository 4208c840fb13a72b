import ZkPayroll.Framework.DecimalText
import ZkPayroll.Framework.JsArithmetic
import ZkPayroll.Receipts.ReceiptVerifier

/-!
# Proof inputs

`sanitizeProofInput` of `crypto/proofInputSanitizer.ts` and `witnessKey` of
`crypto/IProofGenerator.ts`. A witness is an object in memory: its own fields,
in property order, and its prototype. Assigning to the key `__proto__` of the
sanitized witness makes no field, and sets its prototype where the value is an
object. Of the methods that the text of a value depends on, only `toJSON` of
the witness itself is kept.
-/

namespace ZkPayroll.Crypto.ProofInput

open Framework Audit Receipts

variable {ν : Type}

/-! ## Witnesses -/

mutual

/-- The value that `JSON.stringify` writes where a bigint is replaced by its
text, if there is one. -/
def keyJson : Value ν → Option (Json ν)
  | .undefined | .function => none
  | .null => some .null
  | .bool b => some (.bool b)
  | .num (.finite n) => some (.num n)
  | .num _ => some .null
  | .bigint n => some (.str (toString n))
  | .str s => some (.str s)
  | .arr items => some (.arr (keyItems items))
  | .obj fields => some (.obj (keepSome (keyFields fields)))

def keyItems : List (Value ν) → List (Json ν)
  | [] => []
  | v :: items => (keyJson v).getD .null :: keyItems items

/-- Field by field. -/
def keyFields : List (String × Value ν) → List (String × Option (Json ν))
  | [] => []
  | (k, v) :: fields => (k, keyJson v) :: keyFields fields

end

/-- The objects within a value have distinct keys. -/
def HasKeys (v : Value ν) : Prop := ∀ json, keyJson v = some json → DistinctKeys json

/-- An object in memory. Its prototype is the ordinary one, or a value that was
made its prototype. -/
structure Witness (ν : Type) where
  own : List (String × Value ν)
  proto : Option (Value ν) := none
  nodup : (own.map Prod.fst).Nodup
  hasKeys : ∀ f ∈ own, HasKeys f.2

variable (w : Witness ν) (w : Witness ν)

/-- `witness[name]`. -/
def Witness.get (name : String) : Value ν :=
  match w.own.lookup name with
  | some v => v
  | none =>
    match w.proto with
    | some (.obj fields) => field fields name
    | _ => .undefined

/-! ## Errors -/

inductive SanitizeErrorCode where
  | PROOF_INPUT_INVALID
  | PROOF_INPUT_INVALID_RECIPIENT
  | PROOF_INPUT_INVALID_AMOUNT
  | PROOF_INPUT_INVALID_ASSET
  | PROOF_INPUT_FORBIDDEN_FIELD
  deriving DecidableEq

structure SanitizeError where
  field : String
  code : SanitizeErrorCode
  message : String
  deriving DecidableEq

def FORBIDDEN_WITNESS_FIELDS : List String :=
  ["privateKey", "secretKey", "secret", "password", "mnemonic", "seed", "apiKey", "api_key", "accessToken",
    "access_token", "refreshToken", "refresh_token", "signingKey", "adminKey"]

/-- An error for each forbidden field. -/
def forbiddenErrors : List SanitizeError :=
  (w.own.filter fun f => f.1 ∈ FORBIDDEN_WITNESS_FIELDS).map fun f =>
    let key := f.1
    { field := key
      code := .PROOF_INPUT_FORBIDDEN_FIELD
      message := s!"The field \"{key}\" is not permitted in proof inputs." }

/-- The check of a field that is a text, where it is present. -/
def textErrors (field : String) (code : SanitizeErrorCode) (notText empty : String) (v : Value ν) :
    List SanitizeError :=
  match v with
  | .undefined | .null => []
  | .str s => if trim s = "" then [{ field := field, code := code, message := empty }] else []
  | _ => [{ field := field, code := code, message := notText }]

def recipientErrors : List SanitizeError :=
  textErrors "recipient" .PROOF_INPUT_INVALID_RECIPIENT "Recipient must be a string address."
    "Recipient address must not be empty." (w.get "recipient")

def assetErrors : List SanitizeError :=
  textErrors "asset" .PROOF_INPUT_INVALID_ASSET "Asset must be a string identifier."
    "Asset identifier must not be empty." (w.get "asset")

/-- `undefined` or `null`. -/
def isMissing : Value ν → Bool
  | .undefined | .null => true
  | _ => false

section Sanitizer

variable [CommRing ν] [LinearOrder ν] [FloorRing ν]

/-- `Number.MAX_SAFE_INTEGER`. -/
def maxSafeInteger : Int := 9007199254740991

def normalizeAmount : Value ν → Option String
  | .str s =>
    let trimmed := trim s
    if trimmed = "" then none else if isDigits trimmed.toList then some trimmed else none
  | .bigint n => if n < 0 then none else some (toString n)
  | .num n =>
    match n.toInteger with
    | some v => if maxSafeInteger < v ∨ v < 0 then none else some (toString v)
    | none => none
  | _ => none

variable (w : Witness ν) (w : Witness ν)

def amountErrors : List SanitizeError :=
  if isMissing (w.get "amount") = false ∧ normalizeAmount (w.get "amount") = none then
    [{ field := "amount"
       code := .PROOF_INPUT_INVALID_AMOUNT
       message := "Amount must be a non-negative integer (string, bigint, or safe number)." }]
  else []

/-- All errors, in the order of the checks. -/
def sanitizeErrors : List SanitizeError :=
  forbiddenErrors w ++ recipientErrors w ++ amountErrors w ++ assetErrors w

/-! ## The sanitized witness -/

/-- The field, trimmed, if it is a text. -/
def trimmedField (name : String) : List (String × Value ν) :=
  match w.get name with
  | .str s => [(name, .str (trim s))]
  | _ => []

/-- The amount in normal form, if it has one. -/
def amountField : List (String × Value ν) :=
  match normalizeAmount (w.get "amount") with
  | some t => [("amount", .str t)]
  | none => []

def isNamed (key : String) : Bool := key = "recipient" || key = "amount" || key = "asset"

/-- The fields of a payment, normalised. -/
def namedFields : List (String × Value ν) :=
  trimmedField w "recipient" ++ amountField w ++ trimmedField w "asset"

/-- The other fields. -/
def Witness.others : List (String × Value ν) := w.own.filter fun f => !isNamed f.1

/-- What is carried over as it is. -/
def Witness.carried : List (String × Value ν) :=
  w.others.filter fun f => f.1 ∉ FORBIDDEN_WITNESS_FIELDS

/-- Whether a value can be a prototype. -/
def isPrototype : Value ν → Bool
  | .null | .function | .arr _ | .obj _ => true
  | _ => false

/-- The prototype that the carried fields set. -/
def Witness.assignedProto : Option (Value ν) := (w.carried.lookup "__proto__").filter isPrototype

/-- The fields that are carried as such. -/
def Witness.kept : List (String × Value ν) := w.carried.filter fun f => notProto f.1

variable {f : String × Value ν}

omit [CommRing ν] [LinearOrder ν] [FloorRing ν] in
theorem mem_kept {w : Witness ν} : f ∈ w.kept ↔
    f ∈ w.own ∧ isNamed f.1 = false ∧ f.1 ∉ FORBIDDEN_WITNESS_FIELDS ∧ notProto f.1 = true := by
  simp only [Witness.kept, Witness.carried, Witness.others, List.mem_filter, Bool.not_eq_true', decide_eq_true_eq,
    and_assoc]

variable (w : Witness ν)

omit [CommRing ν] [LinearOrder ν] [FloorRing ν] in
theorem nodup_kept : (w.kept.map Prod.fst).Nodup := by
  have hsub : w.kept.Sublist w.own :=
    List.filter_sublist.trans (List.filter_sublist.trans List.filter_sublist)
  exact w.nodup.sublist (hsub.map Prod.fst)

theorem keys_namedFields :
    ((namedFields w).map Prod.fst).Sublist ["recipient", "amount", "asset"] := by
  have htext : ∀ name, ((trimmedField w name).map Prod.fst).Sublist [name] := by
    intro name
    unfold trimmedField
    split
    · exact List.Sublist.refl _
    · exact List.nil_sublist _
  have hamount : ((amountField w).map Prod.fst).Sublist ["amount"] := by
    unfold amountField
    split
    · exact List.Sublist.refl _
    · exact List.nil_sublist _
  rw [namedFields, List.map_append, List.map_append]
  exact ((htext "recipient").append hamount).append (htext "asset")

theorem isNamed_of_mem {w : Witness ν} (h : f ∈ namedFields w) : isNamed f.1 = true := by
  have hkey := (keys_namedFields w).subset (List.mem_map_of_mem h)
  simp only [List.mem_cons, List.not_mem_nil, or_false] at hkey
  simp only [isNamed, Bool.or_eq_true, decide_eq_true_eq]
  tauto

theorem nodup_fields : ((namedFields w ++ w.kept).map Prod.fst).Nodup := by
  rw [List.map_append, List.nodup_append]
  refine ⟨(by decide : ["recipient", "amount", "asset"].Nodup).sublist (keys_namedFields w), nodup_kept w, ?_⟩
  rintro k hk l hl rfl
  obtain ⟨f, hf, rfl⟩ := List.mem_map.mp hk
  obtain ⟨g, hg, hkey⟩ := List.mem_map.mp hl
  have hnot := (mem_kept.mp hg).2.1
  rw [hkey, isNamed_of_mem hf] at hnot
  cases hnot

omit [CommRing ν] [LinearOrder ν] [FloorRing ν] in
theorem hasKeys_str (s : String) : HasKeys (.str s : Value ν) := by
  intro json h
  simp only [keyJson, Option.some.injEq] at h
  rw [← h]
  simp [DistinctKeys]

theorem exists_str_of_mem {w : Witness ν} (h : f ∈ namedFields w) : ∃ s, f.2 = .str s := by
  have htext : ∀ name, f ∈ trimmedField w name → ∃ s, f.2 = .str s := by
    intro name hf
    unfold trimmedField at hf
    split at hf
    · rw [List.mem_singleton.mp hf]
      exact ⟨_, rfl⟩
    · cases hf
  rw [namedFields, List.mem_append, List.mem_append] at h
  rcases h with (h | h) | h
  · exact htext _ h
  · unfold amountField at h
    split at h
    · rw [List.mem_singleton.mp h]
      exact ⟨_, rfl⟩
    · cases h
  · exact htext _ h

/-- The witness that is built of a witness without errors. -/
def sanitizedWitness : Witness ν where
  own := propertyOrder (namedFields w ++ w.kept)
  proto := w.assignedProto
  nodup := ((propertyOrder_perm _).map Prod.fst).nodup_iff.mpr (nodup_fields w)
  hasKeys f hf := by
    rcases List.mem_append.mp ((propertyOrder_perm _).mem_iff.mp hf) with hnamed | hkept
    · obtain ⟨s, hs⟩ := exists_str_of_mem hnamed
      rw [hs]
      exact hasKeys_str s
    · exact w.hasKeys f (mem_kept.mp hkept).1

/-- `sanitizeProofInput` of an object, or of what is none. -/
def sanitizeProofInput : Option (Witness ν) → Except (List SanitizeError) (Witness ν)
  | none =>
    .error [{
      field := "witness"
      code := .PROOF_INPUT_INVALID
      message := "Proof witness must be a non-null object." }]
  | some w => if sanitizeErrors w = [] then .ok (sanitizedWitness w) else .error (sanitizeErrors w)

end Sanitizer

/-! ## The key -/

/-- Whether the witness has a method `toJSON`. -/
def Witness.hasToJSON : Bool :=
  match w.get "toJSON" with
  | .function => true
  | _ => false

/-- The key of a witness; `toJSON` is what its method of that name returns, if it
has one. -/
def witnessKey [NumberFormat ν] (toJSON : Witness ν → Value ν) (w : Witness ν) : String :=
  let value := if w.hasToJSON then toJSON w else .obj w.own
  "proof:" ++ ((keyJson value).map stringify).getD "undefined"

end ZkPayroll.Crypto.ProofInput
