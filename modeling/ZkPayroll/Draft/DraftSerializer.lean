import ZkPayroll.Framework.BigIntText
import ZkPayroll.Framework.Guards
import ZkPayroll.Framework.JsArithmetic
import ZkPayroll.Framework.Maps
import ZkPayroll.Framework.Rearrange
import ZkPayroll.Framework.Separated
import ZkPayroll.Serialization.BinaryReader

/-!
# Draft texts

`exportDraft` and `importDraft` of `draft/DraftSerializer.ts`. Texts of drafts
are lists of code units. `parse` is `JSON.parse`, which reads a number that is
too large as infinite. An entry is any JSON value; `validateEntry` converts its
amount with `BigInt`, and what that throws is not caught. It throws nothing
exactly where `readsAsInteger` holds of the amount (`amountOf_ok_iff`), and
`importDraft` reports the problems of all entries as warnings exactly then
(`importDraft_iff`).
-/

namespace ZkPayroll.Draft

open Framework ZkPayroll.Core Serialization

variable {ν : Type}

/-! ## Values -/

/-- `typeof v === "object"` for a value that is not `null`. -/
def isObject : Json (JsNumber ν) → Bool
  | .arr _ => true
  | .obj _ => true
  | _ => false

/-- The value of a property that no object inherits. -/
def property : Json (JsNumber ν) → String → Option (Json (JsNumber ν))
  | .obj fields, key => fields.lookup key
  | _, _ => none

def numberOf : Option (Json (JsNumber ν)) → Option (JsNumber ν)
  | some (.num n) => some n
  | _ => none

def itemsOf : Option (Json (JsNumber ν)) → Option (List (Json (JsNumber ν)))
  | some (.arr items) => some items
  | _ => none

def textOf : Option (Json (JsNumber ν)) → Option String
  | some (.str s) => some s
  | _ => none

/-- Whether the value is a text that is not blank. -/
def hasText (v : Option (Json (JsNumber ν))) : Bool := (textOf v).any fun s => !isBlank s

def syntaxError (message : String) : SdkError := { genericError message with name := "SyntaxError" }

def typeError (message : String) : SdkError := { genericError message with name := "TypeError" }

section Conversion

variable [NumberFormat ν]

/-- `String(n)`. -/
def numberText : JsNumber ν → String
  | .finite n => String.ofList (NumberFormat.toText n)
  | .nan => "NaN"
  | .infinity => "Infinity"
  | .negInfinity => "-Infinity"

mutual

/-- `String(v)`. An own property `toString`, which is no function, leaves an
object without a text. -/
def stringOf : Json (JsNumber ν) → Except SdkError String
  | .null => .ok "null"
  | .bool b => .ok (toString b)
  | .num n => .ok (numberText n)
  | .str s => .ok s
  | .arr items => (itemTexts items).map (",".intercalate ·)
  | .obj fields =>
    if "toString" ∈ fields.map Prod.fst then .error (typeError "Cannot convert object to primitive value")
    else .ok "[object Object]"

/-- The texts that `join` puts together. -/
def itemTexts : List (Json (JsNumber ν)) → Except SdkError (List String)
  | [] => .ok []
  | .null :: items => (itemTexts items).map ("" :: ·)
  | v :: items => do
    let text ← stringOf v
    let texts ← itemTexts items
    return text :: texts

end

/-- `String(v ?? "0")`. -/
def amountText : Option (Json (JsNumber ν)) → Except SdkError String
  | none => .ok "0"
  | some .null => .ok "0"
  | some v => stringOf v

/-- `BigInt(String(e.amount ?? "0"))`. -/
def amountOf (e : Json (JsNumber ν)) : Except SdkError Int := do
  let text ← amountText (property e "amount")
  orThrow (syntaxError s!"Cannot convert {text} to a BigInt") (bigIntOf text)

def validateEntry (entry : Json (JsNumber ν)) (index : Nat) : Except SdkError (List String) :=
  if isObject entry then do
    let recipient :=
      if hasText (property entry "recipientId") then [] else [s!"Entry {index}: missing or empty recipientId."]
    let amount ← amountOf entry
    let positive := if amount ≤ 0 then [s!"Entry {index}: amount must be a positive value."] else []
    let asset := if hasText (property entry "asset") then [] else [s!"Entry {index}: missing or empty asset."]
    return recipient ++ positive ++ asset
  else .ok [s!"Entry at index {index} is not an object."]

/-- The loop over the entries, from the one at `index` on. -/
def validateEntries : List (Json (JsNumber ν)) → Nat → Except SdkError (List String)
  | [], _ => .ok []
  | entry :: entries, index => do
    let warnings ← validateEntry entry index
    let rest ← validateEntries entries (index + 1)
    return warnings ++ rest

end Conversion

/-! ## The checksum -/

/-- `n | 0`. -/
def toInt32 (n : Int) : Int := n.bmod (2 ^ 32)

/-- One turn of the loop of `simpleChecksum`. -/
def checksumStep (hash : Int) (char : Nat) : Int := toInt32 (toInt32 (hash * 2 ^ 5) - hash + char)

/-- `n.toString(16)`. -/
def toString16 (n : Nat) : String := String.ofList (Nat.toDigits 16 n)

/-- `s.padStart(8, "0")`. -/
def padStart8 (s : String) : String := String.ofList (List.replicate (8 - s.length) '0') ++ s

def simpleChecksum (data : List Nat) : String :=
  let hash := data.foldl checksumStep 0
  padStart8 (toString16 hash.natAbs)

/-! ## Export -/

def CURRENT_DRAFT_VERSION : Nat := 1

section Indentation

variable [NumberFormat ν]

def newLine (indent : Nat) : List Char := '\n' :: List.replicate indent ' '

mutual

/-- `JSON.stringify(v, null, 2)`, inside a value that is indented so far. -/
def indentedChars (indent : Nat) : Json ν → List Char
  | .arr (v :: items) =>
    '[' :: newLine (indent + 2) ++ indentedChars (indent + 2) v ++ indentedItems indent items
  | .obj ((k, v) :: fields) =>
    '{' :: newLine (indent + 2) ++ '"' :: quoteTail k ++ ':' :: ' ' :: indentedChars (indent + 2) v ++
      indentedFields indent fields
  | v => stringifyChars v

/-- The items of an array after the first, and its bracket. -/
def indentedItems (indent : Nat) : List (Json ν) → List Char
  | [] => newLine indent ++ [']']
  | v :: items => ',' :: newLine (indent + 2) ++ indentedChars (indent + 2) v ++ indentedItems indent items

/-- The fields of an object after the first, and its brace. -/
def indentedFields (indent : Nat) : List (String × Json ν) → List Char
  | [] => newLine indent ++ ['}']
  | (k, v) :: fields =>
    ',' :: newLine (indent + 2) ++ '"' :: quoteTail k ++ ':' :: ' ' :: indentedChars (indent + 2) v ++
      indentedFields indent fields

end

end Indentation

structure DraftExportResult where
  data : List Nat
  checksum : String

/-- A draft is known by its own properties, in their order. `now` is the time
that `new Date()` gives. -/
def exportDraft [NumberFormat ν] [NatCast ν] (now : String) (draft : List (String × Json (JsNumber ν))) :
    DraftExportResult :=
  let payload := setKey "updatedAt" (.str now) (setKey "version" (.num (.finite (CURRENT_DRAFT_VERSION : ν))) draft)
  let data := (indentedChars 0 (written (.obj payload))).flatMap charUnits
  { data := data, checksum := simpleChecksum data }

/-! ## Import -/

/-- The entries of a draft that is read are whatever they are. -/
structure PayrollDraft (ν : Type) where
  version : JsNumber ν
  createdAt : String
  updatedAt : String
  label : Option String
  entries : List (Json (JsNumber ν))

structure DraftImportResult (ν : Type) where
  draft : PayrollDraft ν
  warnings : List String

/-- `raw.trim() === ""`; no white space takes two code units. -/
def isBlankText (raw : List Nat) : Bool := raw.all fun u => isSpace (Char.ofNat u)

section Import

variable [NumberFormat ν] [NatCast ν] [LE ν] [DecidableLE ν] (parse : List Nat → Option (Json (JsNumber ν)))
variable (createdNow updatedNow : String)

omit [NumberFormat ν] in
/-- `version > CURRENT_DRAFT_VERSION`. -/
def isNewer (version : JsNumber ν) : Bool := JsNumber.lt (.finite (CURRENT_DRAFT_VERSION : ν)) version

def versionWarnings (version : JsNumber ν) : List String :=
  if isNewer version then
    [s!"Draft version {numberText version} is newer than the SDK supports (v{CURRENT_DRAFT_VERSION}). " ++
      "Some fields may be ignored."]
  else []

omit [NumberFormat ν] [NatCast ν] [LE ν] [DecidableLE ν] in
/-- `createdNow` and `updatedNow` are the times that `new Date()` gives. -/
def importedDraft (parsed : Json (JsNumber ν)) (version : JsNumber ν) (entries : List (Json (JsNumber ν))) :
    PayrollDraft ν where
  version := version
  createdAt := (textOf (property parsed "createdAt")).getD createdNow
  updatedAt := (textOf (property parsed "updatedAt")).getD updatedNow
  label := textOf (property parsed "label")
  entries := entries

def importDraft (raw : List Nat) (expectedChecksum : Option String) : Except SdkError (DraftImportResult ν) := do
  throwIf (isBlankText raw) (serializationError "Draft data is empty." "EMPTY_DRAFT_DATA")
  let parsed ← orThrow (serializationError "Draft data is not valid JSON." "INVALID_JSON") (parse raw)
  throwIf (isObject parsed = false) (serializationError "Draft data must be a JSON object." "INVALID_JSON_OBJECT")
  let version ← orThrow (serializationError "Draft is missing a numeric version field." "MISSING_VERSION")
    (numberOf (property parsed "version"))
  let entries ← orThrow (serializationError "Draft is missing an entries array." "MISSING_ENTRIES")
    (itemsOf (property parsed "entries"))
  throwIf (∃ expected ∈ expectedChecksum, simpleChecksum raw ≠ expected)
    (serializationError "Draft checksum mismatch — data may have been tampered with." "CHECKSUM_MISMATCH")
  let warnings ← validateEntries entries 0
  return {
    draft := importedDraft createdNow updatedNow parsed version entries
    warnings := versionWarnings version ++ warnings }

end Import

/-! ## Amounts that are read -/

section Amounts

variable [NumberFormat ν]

mutual

/-- Whether `BigInt` reads what `String` makes of the value, an absent amount
and `null` being read as zero. -/
def readsAsInteger : Json (JsNumber ν) → Bool
  | .null => true
  | .bool _ => false
  | .num n => (bigIntOf (numberText n)).isSome
  | .str s => (bigIntOf s).isSome
  | .arr items => itemsReadAsInteger items
  | .obj _ => false

/-- An array has the text of its only item. -/
def itemsReadAsInteger : List (Json (JsNumber ν)) → Bool
  | [] => true
  | [v] => readsAsInteger v
  | _ :: _ :: _ => false

end

/-- The text that a value has in an array. -/
def itemText : Json (JsNumber ν) → Except SdkError String
  | .null => .ok ""
  | v => stringOf v

theorem itemTexts_cons (v : Json (JsNumber ν)) (items : List (Json (JsNumber ν))) :
    itemTexts (v :: items) = (itemText v).bind fun text => (itemTexts items).map (text :: ·) := by
  by_cases hv : v = .null
  · subst hv
    rw [itemTexts, itemText]
    rfl
  · rw [itemTexts.eq_3 v items hv, itemText.eq_2 v hv]
    cases stringOf v with
    | error e => rfl
    | ok text => cases itemTexts items <;> rfl

theorem bigIntOf_eq_none_of_comma {s : String} (h : ',' ∈ s.toList) : bigIntOf s = none := by
  rw [← Option.not_isSome_iff_eq_none, Option.isSome_iff_exists]
  rintro ⟨n, hn⟩
  exact absurd (chars_of_bigIntOf hn ',' h) (by decide)

theorem comma_mem_intercalate (s t : String) (texts : List String) : ',' ∈ (",".intercalate (s :: t :: texts)).toList := by
  have h := toList_intercalate_cons ',' s (t :: texts)
  rw [List.map_cons, separate_cons] at h
  have hsep : String.ofList [','] = "," := rfl
  rw [← hsep, h]
  simp

/-- Some text of the value is read. -/
def Reads (text : Except SdkError String) : Prop := ∃ s n, text = .ok s ∧ bigIntOf s = some n

theorem reads_ok {s : String} : Reads (.ok s) ↔ (bigIntOf s).isSome = true := by
  rw [Reads, Option.isSome_iff_exists]
  constructor
  · rintro ⟨t, n, ht, hn⟩
    cases ht
    exact ⟨n, hn⟩
  · rintro ⟨n, hn⟩
    exact ⟨s, n, rfl, hn⟩

theorem not_reads_error {e : SdkError} : ¬Reads (.error e) := by
  rintro ⟨s, n, h, -⟩
  cases h

theorem not_reads_of_two {v w : Json (JsNumber ν)} {items : List (Json (JsNumber ν))} :
    ¬Reads (stringOf (.arr (v :: w :: items))) := by
  rintro ⟨s, n, htext, hn⟩
  rw [stringOf, itemTexts_cons, itemTexts_cons] at htext
  cases hv : itemText v with
  | error e => rw [hv] at htext; cases htext
  | ok t =>
    cases hw : itemText w with
    | error e => rw [hv, hw] at htext; cases htext
    | ok u =>
      cases hrest : itemTexts items with
      | error e => rw [hv, hw, hrest] at htext; cases htext
      | ok texts =>
        rw [hv, hw, hrest] at htext
        cases htext
        rw [bigIntOf_eq_none_of_comma (comma_mem_intercalate t u texts)] at hn
        cases hn

/-- The text of a value in an array, and so of an array of that value, is read
exactly where the value reads as an integer. -/
theorem reads_itemText_iff (v : Json (JsNumber ν)) : Reads (itemText v) ↔ readsAsInteger v = true := by
  induction v using Json.induct with
  | null => rw [itemText, reads_ok, readsAsInteger]; decide +kernel
  | bool b => rw [itemText, stringOf, reads_ok, readsAsInteger]; revert b; decide +kernel; nofun
  | num n => rw [itemText, stringOf, reads_ok, readsAsInteger]; nofun
  | str s => rw [itemText, stringOf, reads_ok, readsAsInteger]; nofun
  | arr items ih =>
    rw [itemText, readsAsInteger]
    · rcases items with _ | ⟨v, _ | ⟨w, items⟩⟩
      · rw [stringOf, itemTexts, itemsReadAsInteger]
        exact iff_of_true (reads_ok.mpr (by decide +kernel)) rfl
      · rw [itemsReadAsInteger, ← ih v List.mem_cons_self, stringOf, itemTexts_cons, itemTexts]
        cases itemText v with
        | error e => exact iff_of_false not_reads_error not_reads_error
        | ok text => exact Iff.rfl
      · rw [itemsReadAsInteger]
        exact iff_of_false not_reads_of_two Bool.false_ne_true
    · nofun
  | obj fields _ =>
    rw [itemText, stringOf, readsAsInteger]
    · refine iff_of_false ?_ Bool.false_ne_true
      split
      · exact not_reads_error
      · rw [reads_ok]; decide +kernel
    · nofun

/-- The conversion of the amount of an entry throws nothing exactly where the
amount reads as an integer. -/
theorem amountOf_ok_iff (e : Json (JsNumber ν)) :
    (∃ amount, amountOf e = .ok amount) ↔ ((property e "amount").all readsAsInteger) = true := by
  have hreads : (∃ amount, amountOf e = .ok amount) ↔ Reads (amountText (property e "amount")) := by
    simp only [amountOf, except_bind_eq_ok, Reads]
    constructor
    · rintro ⟨amount, s, hs, hn⟩
      cases hb : bigIntOf s with
      | none => rw [hb] at hn; cases hn
      | some n => exact ⟨s, n, hs, hb⟩
    · rintro ⟨s, n, hs, hn⟩
      exact ⟨n, s, hs, by rw [hn]; rfl⟩
  have hzero : Reads (.ok "0") := reads_ok.mpr (by decide +kernel)
  rw [hreads]
  cases property e "amount" with
  | none => exact iff_of_true hzero rfl
  | some v =>
    rw [Option.all_some, ← reads_itemText_iff]
    cases v with
    | null => exact iff_of_true hzero (reads_ok.mpr (by decide +kernel))
    | _ => exact Iff.rfl

end Amounts

end ZkPayroll.Draft
