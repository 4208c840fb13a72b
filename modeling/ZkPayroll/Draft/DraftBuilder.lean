import Mathlib.Algebra.BigOperators.Group.List.Basic
import ZkPayroll.Draft.DraftSerializer
import ZkPayroll.Remediation.Mapper

/-!
# The draft builder

`draft/DraftBuilder.ts`: the edits of the entries of a draft, the checks of
`validate`, and the totals of `summary`. An object that is used as a map is known
by its own properties, in the order in which they were set. A property of an
entry that is not there is `none`.
-/

namespace ZkPayroll.Draft

open Framework ZkPayroll.Core

variable {ν : Type}

/-! ## Data -/

structure PayrollDraftEntry where
  recipientId : Option String
  amount : Option String
  asset : Option String
  note : Option String := none
  deriving DecidableEq

inductive DraftErrorCode where
  | EMPTY_DRAFT
  | INVALID_RECIPIENT
  | INVALID_AMOUNT
  | DUPLICATE_RECIPIENT
  | MISSING_ASSET
  deriving DecidableEq

structure DraftValidationError where
  code : DraftErrorCode
  message : String
  field : String
  index : Option Nat := none
  deriving DecidableEq

inductive DraftWarningCode where
  | MIXED_ASSETS
  | EMPTY_NOTE
  | LARGE_DRAFT
  deriving DecidableEq

structure DraftWarning where
  code : DraftWarningCode
  message : String
  field : Option String := none
  index : Option Nat := none
  deriving DecidableEq

structure DraftValidationReport where
  errors : List DraftValidationError
  warnings : List DraftWarning

structure DraftSummary where
  entryCount : Nat
  uniqueRecipientCount : Nat
  totalsByAsset : List (String × String)
  assets : List String
  errors : List DraftValidationError
  warnings : List DraftWarning
  isValid : Bool

/-- What `build` returns. -/
structure BuiltDraft where
  version : Nat
  createdAt : String
  updatedAt : String
  label : Option String
  entries : List PayrollDraftEntry

structure DraftBuilder where
  entries : List PayrollDraftEntry
  createdAt : String
  label : Option String

/-! ## Edits -/

def rangeError (message : String) : SdkError := { genericError message with name := "RangeError" }

/-- `new DraftBuilder(initialDraft, label)` at the time `now`. -/
def DraftBuilder.new (now : String) (initialDraft : Option BuiltDraft) (label : Option String) : DraftBuilder where
  entries := (initialDraft.map BuiltDraft.entries).getD []
  createdAt := (initialDraft.map BuiltDraft.createdAt).getD now
  label := (initialDraft.bind BuiltDraft.label).or label

/-- The edits of the entries, and of the label. -/
inductive Edit (ν : Type) where
  | add (entry : PayrollDraftEntry)
  | addMany (entries : List PayrollDraftEntry)
  | update (index : JsNumber ν) (entry : PayrollDraftEntry)
  | remove (index : JsNumber ν)
  | clear
  | setLabel (label : Option String)

namespace DraftBuilder

def add (entry : PayrollDraftEntry) : Method SdkError DraftBuilder Unit :=
  modify fun b => { b with entries := b.entries ++ [entry] }

def addMany : List PayrollDraftEntry → Method SdkError DraftBuilder Unit
  | [] => pure ()
  | entry :: entries => do
    add entry
    addMany entries

def clear : Method SdkError DraftBuilder Unit := modify fun b => { b with entries := [] }

def setLabel (label : Option String) : Method SdkError DraftBuilder Unit := modify fun b => { b with label := label }

section Indices

variable [NumberFormat ν] [Ring ν] [LinearOrder ν] [FloorRing ν]

def outOfBounds (entries : List PayrollDraftEntry) (index : JsNumber ν) (op : String) : SdkError :=
  rangeError s!"DraftBuilder.{op}() index {numberText index} is out of bounds (entries: {entries.length})."

/-- The position that an index within the entries means. -/
def assertIndex (entries : List PayrollDraftEntry) (index : JsNumber ν) (op : String) : Except SdkError Nat :=
  match index.toInteger with
  | none => .error (outOfBounds entries index op)
  | some i => if i < 0 ∨ entries.length ≤ i then .error (outOfBounds entries index op) else .ok i.toNat

def update (index : JsNumber ν) (entry : PayrollDraftEntry) : Method SdkError DraftBuilder Unit := do
  let b ← get
  let i ← assertIndex b.entries index "update"
  modify fun b => { b with entries := b.entries.set i entry }

def remove (index : JsNumber ν) : Method SdkError DraftBuilder Unit := do
  let b ← get
  let i ← assertIndex b.entries index "remove"
  modify fun b => { b with entries := b.entries.eraseIdx i }

/-- An edit as a call of the method. -/
def call : Edit ν → Method SdkError DraftBuilder Unit
  | .add entry => add entry
  | .addMany entries => addMany entries
  | .update index entry => update index entry
  | .remove index => remove index
  | .clear => clear
  | .setLabel label => setLabel label

/-- The builder after the edits, of which each may have thrown. -/
def edited (b : DraftBuilder) (edits : List (Edit ν)) : DraftBuilder := edits.foldl (fun b edit => (call edit).after b) b

end Indices

end DraftBuilder

/-! ## Validation -/

def LARGE_DRAFT_THRESHOLD : Nat := 500

/-- `!s || s.trim() === ""`. -/
def isMissing (s : Option String) : Bool := s.all isBlank

variable (entry : PayrollDraftEntry)

/-- The check of a recipient, of whom `firstIdx` is the first entry before. -/
def recipientErrors (firstIdx : Option Nat) (i : Nat) : List DraftValidationError :=
  if isMissing entry.recipientId then
    [{ code := .INVALID_RECIPIENT, message := "Recipient address is required", field := "recipientId", index := some i }]
  else
    match firstIdx with
    | some firstIdx =>
      [{ code := .DUPLICATE_RECIPIENT, message := s!"Duplicate recipient at indices {firstIdx} and {i}",
         field := "recipientId", index := some i }]
    | none => []

def amountErrors (i : Nat) : List DraftValidationError :=
  let rawAmount := entry.amount.getD ""
  let amountBig := (bigIntOf (if rawAmount = "" then "0" else rawAmount)).getD 0
  if isBlank rawAmount ∨ amountBig ≤ 0 then
    [{ code := .INVALID_AMOUNT, message := "Amount must be a positive numeric value", field := "amount", index := some i }]
  else []

def assetErrors (i : Nat) : List DraftValidationError :=
  if isMissing entry.asset then
    [{ code := .MISSING_ASSET, message := "Asset identifier is required", field := "asset", index := some i }]
  else []

/-- `seenRecipients.set(entry.recipientId, i)`, for a recipient who is not there
yet. -/
def seeRecipient (seenRecipients : List (String × Nat)) (entry : PayrollDraftEntry) (i : Nat) : List (String × Nat) :=
  match entry.recipientId with
  | some r => if isBlank r ∨ (seenRecipients.lookup r).isSome then seenRecipients else setKey r i seenRecipients
  | none => seenRecipients

/-- The errors of the entries from the one at `i` on. -/
def entryErrors : List PayrollDraftEntry → Nat → List (String × Nat) → List DraftValidationError
  | [], _, _ => []
  | entry :: entries, i, seenRecipients =>
    recipientErrors entry (entry.recipientId.bind fun r => seenRecipients.lookup r) i ++ amountErrors entry i ++
      assetErrors entry i ++ entryErrors entries (i + 1) (seeRecipient seenRecipients entry i)

def noteWarnings (entries : List PayrollDraftEntry) : List DraftWarning :=
  entries.zipIdx.filterMap fun (entry, i) =>
    if entry.note.any isBlank then
      some { code := .EMPTY_NOTE, message := "Note is empty and will be omitted from the draft output",
             field := some "note", index := some i }
    else none

def distinctAssets (entries : List PayrollDraftEntry) : List String :=
  (entries.filterMap fun entry => entry.asset.filter fun asset => !isBlank asset).reverse.dedup.reverse

def draftWarnings (entries : List PayrollDraftEntry) : List DraftWarning :=
  let assets := distinctAssets entries
  let mixed := if 1 < assets.length then
    let assetList := ", ".intercalate (sortStrings assets)
    [{ code := .MIXED_ASSETS
       message := s!"Draft mixes {assets.length} assets ({assetList}); review whether a single-asset batch is required."
       field := some "asset" : DraftWarning }]
  else []
  let large := if LARGE_DRAFT_THRESHOLD < entries.length then
    [{ code := .LARGE_DRAFT
       message := s!"Draft has {entries.length} entries; consider splitting into smaller batches for gas efficiency."
       field := some "entries" : DraftWarning }]
  else []
  mixed ++ large

def DraftBuilder.validate (b : DraftBuilder) : DraftValidationReport :=
  if b.entries.length = 0 then
    { errors := [{ code := .EMPTY_DRAFT, message := "Draft must contain at least one payment entry", field := "entries" }]
      warnings := [] }
  else
    { errors := entryErrors b.entries 0 []
      warnings := noteWarnings b.entries ++ draftWarnings b.entries }

/-! ## Summary -/

/-- What a property of the totals holds: a number, or the text that adding a
number to a function makes. -/
inductive Total where
  | bigint (n : Int)
  | text (s : String)

def Total.add : Total → Int → Total
  | .bigint m, n => .bigint (m + n)
  | .text s, n => .text (s ++ toString n)

/-- `total.toString()`. -/
def Total.toText : Total → String
  | .bigint n => toString n
  | .text s => s

/-- The text of a function of `Object.prototype`. -/
def functionText (name : String) : String := "function " ++ name ++ "() \x7b [native code] \x7d"

/-- The text of a property that every object inherits. -/
def inheritedText (key : String) : String :=
  if key = "__proto__" then "[object Object]"
  else if key = "constructor" then functionText "Object"
  else functionText key

/-- `totals[key]`. -/
def readTotal (totals : List (String × Total)) (key : String) : Option Total :=
  (totals.lookup key).or (if key ∈ Remediation.inheritedNames then some (.text (inheritedText key)) else none)

/-- `totals[key] = total`; a text cannot be a prototype. -/
def writeTotal (totals : List (String × Total)) (key : String) (total : Total) : List (String × Total) :=
  if key = "__proto__" then totals else setKey key total totals

/-- The totals of a draft, as they are summed. -/
structure Tally where
  totalsByAsset : List (String × Total) := []
  assets : List String := []

/-- A total that is `undefined` starts at zero. -/
def Tally.start (t : Tally) (asset : String) : Tally :=
  if (readTotal t.totalsByAsset asset).isNone then
    { totalsByAsset := writeTotal t.totalsByAsset asset (.bigint 0), assets := t.assets ++ [asset] }
  else t

/-- `totalsByAsset[asset] += amount`, unless reading the amount throws. -/
def Tally.add (t : Tally) (asset : String) (amount : Option Int) : Tally :=
  match readTotal t.totalsByAsset asset, amount with
  | some total, some n => { t with totalsByAsset := writeTotal t.totalsByAsset asset (total.add n) }
  | _, _ => t

/-- `BigInt(entry.amount ?? "0")`, where that does not throw. -/
def countedAmount : Option Int := bigIntOf (entry.amount.getD "0")

/-- An entry is counted. -/
def tallyEntry (t : Tally) (entry : PayrollDraftEntry) : Tally :=
  match entry.asset with
  | some asset => if asset = "" then t else (t.start asset).add asset (countedAmount entry)
  | none => t

def DraftBuilder.summary (b : DraftBuilder) : DraftSummary :=
  let report := b.validate
  let tally := b.entries.foldl tallyEntry {}
  let uniqueRecipients := (b.entries.filterMap fun entry => entry.recipientId.filter fun r => r ≠ "").dedup
  { entryCount := b.entries.length
    uniqueRecipientCount := uniqueRecipients.length
    totalsByAsset := mapValues Total.toText tally.totalsByAsset
    assets := tally.assets
    errors := report.errors
    warnings := report.warnings
    isValid := report.errors.isEmpty }

/-! ## Building -/

structure DraftValidationFailedError where
  error : SdkError
  errors : List DraftValidationError

/-- `new DraftValidationFailedError(errors)`. -/
def draftValidationFailedError (errors : List DraftValidationError) : DraftValidationFailedError where
  error :=
    { kind := .zkPayroll
      name := "DraftValidationFailedError"
      message := s!"Draft validation failed with {errors.length} error(s)"
      code := "DRAFT_VALIDATION_FAILED" }
  errors := errors

/-- The copy of an entry, without a note that is empty. -/
def sanitizedEntry : PayrollDraftEntry :=
  { entry with note := entry.note.filter fun note => !isBlank note }

def DraftBuilder.build (b : DraftBuilder) (now : String) : Except DraftValidationFailedError BuiltDraft :=
  let errors := b.validate.errors
  if 0 < errors.length then .error (draftValidationFailedError errors)
  else .ok {
    version := 1
    createdAt := b.createdAt
    updatedAt := now
    label := b.label
    entries := b.entries.map sanitizedEntry }

end ZkPayroll.Draft
