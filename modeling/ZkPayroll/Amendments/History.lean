import Mathlib.Data.Rat.Floor
import ZkPayroll.Core.Errors
import ZkPayroll.Framework.DecimalText
import ZkPayroll.Framework.Decoding
import ZkPayroll.Framework.Guards
import ZkPayroll.Receipts.ReceiptVerifier

/-!
# The history of amendments

`amendments/history.ts`. A record may have any value in each of its fields; how
the language makes a number of a value, and a date of its text, is taken as
given (`Runtime`). Within the changes of a record a `Date` is an object without
fields.

A record that was normalised is normalised to itself
(`normalizeAmendmentHistoryRecord_toInput`), field by field, and in a sorted
list two records next to each other have one revision just when any two have
(`hasAdjacent_eq_false_iff`). What is refused is thus every page in which two
records have one revision, of whatever payrolls (`normalizeAmendmentHistory_eq_ok_iff`).
-/

namespace ZkPayroll.Amendments

open Framework ZkPayroll.Core Receipts

variable {ν : Type}

/-! ## Data -/

/-- A value of a record. -/
inductive Input (ν : Type) where
  | data (v : Value ν)
  | date (ms : JsNumber ν)

/-- What the code uses of the language. -/
structure Runtime (ν : Type) where
  /-- `Number(value)` of a value that is no number. -/
  toNumber : Input ν → Except SdkError (JsNumber ν)
  /-- `Date.parse(String(value))`. -/
  parseDate : Input ν → Except SdkError (JsNumber ν)

/-- What is read of a record; a field that is missing is `undefined`. -/
structure AmendmentHistoryRecordInput (ν : Type) where
  payrollId : Input ν := .data .undefined
  revision : Input ν := .data .undefined
  actor : Input ν := .data .undefined
  recordedAt : Input ν := .data .undefined
  occurredAt : Input ν := .data .undefined
  timestamp : Input ν := .data .undefined
  diffs : Input ν := .data .undefined
  changes : Input ν := .data .undefined
  reason : Input ν := .data .undefined

/-- What a revision did to a field. -/
inductive DiffType where
  | added
  | removed
  | modified
  deriving DecidableEq

structure AmendmentHistoryDiff where
  type : DiffType
  recipient : String
  asset : String
  oldAmount : Option Int := none
  newAmount : Option Int := none
  deriving DecidableEq

structure AmendmentHistoryRecord (ν : Type) where
  payrollId : String
  revision : ν
  actor : String
  recordedAt : ν
  diffs : List AmendmentHistoryDiff
  reason : Option String := none

/-- What `invalidHistoryRecord` throws. -/
def invalidHistoryRecord : SdkError where
  kind := .zkPayroll
  name := "PayrollError"
  message := "Invalid payroll amendment history record"
  code := "AMENDMENT_HISTORY_INVALID"

/-! ## Fields -/

def nonEmptyString : Value ν → Except SdkError String
  | .str s => if isBlank s then .error invalidHistoryRecord else .ok (trim s)
  | _ => .error invalidHistoryRecord

/-- `nonEmptyString` of a field of the record. -/
def nonEmptyField : Input ν → Except SdkError String
  | .data v => nonEmptyString v
  | .date _ => .error invalidHistoryRecord

/-- The reason, where it is not `undefined`. -/
def optionalReason : Input ν → Except SdkError (Option String)
  | .data .undefined => .ok none
  | reason => (nonEmptyField reason).map some

/-- `value ?? other`. -/
def Input.orElse (value other : Input ν) : Input ν :=
  match value with
  | .data .undefined | .data .null => other
  | value => value

section Records

variable [CommRing ν] [LinearOrder ν] [FloorRing ν]

/-- The number, if it is a safe integer above zero. -/
def positiveInteger : JsNumber ν → Except SdkError ν
  | .finite a =>
    match JsNumber.toInteger (.finite a) with
    | some n => if n ≤ 9007199254740991 ∧ n > 0 then .ok a else .error invalidHistoryRecord
    | none => .error invalidHistoryRecord
  | _ => .error invalidHistoryRecord

variable (rt : Runtime ν)

/-- A number, or `Number(value)`. -/
def numberOf : Input ν → Except SdkError (JsNumber ν)
  | .data (.num n) => .ok n
  | value => rt.toNumber value

def positiveRevision (value : Input ν) : Except SdkError ν :=
  numberOf rt value >>= positiveInteger

/-- The number, if it is finite and not negative. -/
def notNegative : JsNumber ν → Except SdkError ν
  | .finite a => if 0 ≤ a then .ok a else .error invalidHistoryRecord
  | _ => .error invalidHistoryRecord

/-- The time of a `Date`, a number, or `Date.parse(String(value))`. -/
def timestampOf : Input ν → Except SdkError (JsNumber ν)
  | .date ms => .ok ms
  | .data (.num n) => .ok n
  | value => rt.parseDate value

def epochMillis (value : Input ν) : Except SdkError ν :=
  timestampOf rt value >>= notNegative

/-- `/^-?\d+$/`. -/
def isIntegerText : List Char → Bool
  | '-' :: cs => isDigits cs
  | cs => isDigits cs

def amount : Value ν → Except SdkError Int
  | .bigint n => .ok n
  | .str s =>
    if isIntegerText s.toList then orThrow invalidHistoryRecord (bigIntLiteral s.toList)
    else .error invalidHistoryRecord
  | .num n =>
    match n.toInteger with
    | some n =>
      if -9007199254740991 ≤ n ∧ n ≤ 9007199254740991 then .ok n else .error invalidHistoryRecord
    | none => .error invalidHistoryRecord
  | _ => .error invalidHistoryRecord

def diffType : Value ν → Except SdkError DiffType
  | .str "added" => .ok .added
  | .str "removed" => .ok .removed
  | .str "modified" => .ok .modified
  | _ => .error invalidHistoryRecord

/-- `amount` of a field that is not `undefined`. -/
def optionalAmount : Value ν → Except SdkError (Option Int)
  | .undefined => .ok none
  | v => (amount v).map some

def normalizeDiff : Value ν → Except SdkError AmendmentHistoryDiff
  | .obj diff => do
    let type ← diffType (field diff "type")
    let recipient ← nonEmptyString (field diff "recipient")
    let asset ← nonEmptyString (field diff "asset")
    let oldAmount ← optionalAmount (field diff "oldAmount")
    let newAmount ← optionalAmount (field diff "newAmount")
    return {
      type := type
      recipient := recipient
      asset := asset
      oldAmount := oldAmount
      newAmount := newAmount }
  | _ => .error invalidHistoryRecord

/-! ## Records -/

/-- `normalizeAmendmentHistoryRecord` of an object, or of what is none. -/
def normalizeAmendmentHistoryRecord :
    Option (AmendmentHistoryRecordInput ν) → Except SdkError (AmendmentHistoryRecord ν)
  | none => .error invalidHistoryRecord
  | some record =>
    let timestamp := (record.recordedAt.orElse record.occurredAt).orElse record.timestamp
    let rawDiffs := (record.diffs.orElse record.changes).orElse (.data (.arr []))
    match rawDiffs with
    | .data (.arr items) => do
      let payrollId ← nonEmptyField record.payrollId
      let revision ← positiveRevision rt record.revision
      let actor ← nonEmptyField record.actor
      let recordedAt ← epochMillis rt timestamp
      let diffs ← items.mapM normalizeDiff
      let reason ← optionalReason record.reason
      return {
        payrollId := payrollId
        revision := revision
        actor := actor
        recordedAt := recordedAt
        diffs := diffs
        reason := reason }
    | _ => .error invalidHistoryRecord

/-- The order of records by their revisions. -/
def leRevision (a b : AmendmentHistoryRecord ν) : Prop := a.revision ≤ b.revision

instance : DecidableRel (leRevision (ν := ν)) := fun a b => inferInstanceAs (Decidable (a.revision ≤ b.revision))

/-- Whether two records next to each other have one revision. -/
def hasAdjacent : List (AmendmentHistoryRecord ν) → Bool
  | a :: b :: records => a.revision = b.revision || hasAdjacent (b :: records)
  | _ => false

/-- `normalizeAmendmentHistory` of an array, or of what is none. -/
def normalizeAmendmentHistory :
    Option (List (Option (AmendmentHistoryRecordInput ν))) → Except SdkError (List (AmendmentHistoryRecord ν))
  | none => .error invalidHistoryRecord
  | some input => do
    let normalized ← input.mapM (normalizeAmendmentHistoryRecord rt)
    let records := normalized.insertionSort leRevision
    throwIf (hasAdjacent records = true) invalidHistoryRecord
    return records

end Records

/-! ## Records as input -/

def DiffType.toText : DiffType → String
  | .added => "added"
  | .removed => "removed"
  | .modified => "modified"

/-- The value of an amount, or `undefined`. -/
def amountValue (o : Option Int) : Value ν := (o.map .bigint).getD .undefined

def AmendmentHistoryDiff.toValue (d : AmendmentHistoryDiff) : Value ν :=
  .obj [("type", .str d.type.toText), ("recipient", .str d.recipient), ("asset", .str d.asset),
    ("oldAmount", amountValue d.oldAmount), ("newAmount", amountValue d.newAmount)]

/-- A record as what is normalised. -/
def AmendmentHistoryRecord.toInput (r : AmendmentHistoryRecord ν) : AmendmentHistoryRecordInput ν where
  payrollId := .data (.str r.payrollId)
  revision := .data (.num (.finite r.revision))
  actor := .data (.str r.actor)
  recordedAt := .data (.num (.finite r.recordedAt))
  diffs := .data (.arr (r.diffs.map (·.toValue)))
  reason := .data ((r.reason.map .str).getD .undefined)

/-! ## Records that are normalised -/

theorem nonEmptyString_str {v : Value ν} {s : String} (h : nonEmptyString v = .ok s) :
    nonEmptyString (.str s : Value ν) = .ok s := by
  unfold nonEmptyString at h
  split at h
  next text =>
    split at h
    next => cases h
    next hblank =>
      have hs : trim text = s := Except.ok.inj h
      have htrimmed : isBlank s = isBlank text := by
        rw [← hs, isBlank, isBlank, trim, String.toList_ofList, trimChars_trimChars]
      show (if isBlank s then _ else Except.ok (trim s)) = Except.ok s
      rw [if_neg (htrimmed ▸ hblank), ← hs, trim_trim]
  next => cases h

theorem nonEmptyField_str {v : Input ν} {s : String} (h : nonEmptyField v = .ok s) :
    nonEmptyField (.data (.str s) : Input ν) = .ok s := by
  cases v with
  | data v => exact nonEmptyString_str h
  | date ms => cases h

theorem optionalReason_str {v : Input ν} {reason : Option String} (h : optionalReason v = .ok reason) :
    optionalReason (.data ((reason.map .str).getD .undefined) : Input ν) = .ok reason := by
  cases reason with
  | none => rfl
  | some text =>
    have hfield : nonEmptyField v = .ok text := by
      unfold optionalReason at h
      split at h
      next => cases h
      next =>
        cases hv : nonEmptyField v with
        | ok s =>
          rw [hv] at h
          cases h
          rfl
        | error e =>
          rw [hv] at h
          cases h
    show (nonEmptyField (.data (.str text))).map some = Except.ok (some text)
    rw [nonEmptyField_str hfield]
    rfl

theorem diffType_toText {v : Value ν} {t : DiffType} (h : diffType v = .ok t) :
    diffType (.str t.toText : Value ν) = .ok t := by
  cases t <;> rfl

theorem optionalAmount_amountValue [CommRing ν] [LinearOrder ν] [FloorRing ν] (o : Option Int) :
    optionalAmount (amountValue o : Value ν) = .ok o := by
  cases o <;> rfl

section Records

variable [CommRing ν] [LinearOrder ν] [FloorRing ν] {rt : Runtime ν}

theorem positiveInteger_finite {n : JsNumber ν} {a : ν} (h : positiveInteger n = .ok a) :
    positiveInteger (.finite a) = .ok a := by
  cases n with
  | finite b =>
    have hb : b = a := by
      simp only [positiveInteger] at h
      split at h
      next =>
        split at h
        next => exact Except.ok.inj h
        next => cases h
      next => cases h
    rw [hb] at h
    exact h
  | _ => cases h

omit [FloorRing ν] in
theorem notNegative_finite {n : JsNumber ν} {a : ν} (h : notNegative n = .ok a) :
    notNegative (.finite a) = .ok a := by
  cases n with
  | finite b =>
    have hb : b = a := by
      simp only [notNegative] at h
      split at h
      next => exact Except.ok.inj h
      next => cases h
    rw [hb] at h
    exact h
  | _ => cases h

theorem normalizeDiff_toValue {v : Value ν} {d : AmendmentHistoryDiff} (h : normalizeDiff v = .ok d) :
    normalizeDiff (d.toValue : Value ν) = .ok d := by
  cases v with
  | obj diff =>
    unfold normalizeDiff at h
    obtain ⟨type, htype, h⟩ := except_bind_eq_ok.mp h
    obtain ⟨recipient, hrecipient, h⟩ := except_bind_eq_ok.mp h
    obtain ⟨asset, hasset, h⟩ := except_bind_eq_ok.mp h
    obtain ⟨oldAmount, -, h⟩ := except_bind_eq_ok.mp h
    obtain ⟨newAmount, -, h⟩ := except_bind_eq_ok.mp h
    cases h
    refine except_bind_eq_ok.mpr ⟨type, diffType_toText htype, ?_⟩
    refine except_bind_eq_ok.mpr ⟨recipient, nonEmptyString_str hrecipient, ?_⟩
    refine except_bind_eq_ok.mpr ⟨asset, nonEmptyString_str hasset, ?_⟩
    refine except_bind_eq_ok.mpr ⟨oldAmount, optionalAmount_amountValue oldAmount, ?_⟩
    exact except_bind_eq_ok.mpr ⟨newAmount, optionalAmount_amountValue newAmount, rfl⟩
  | _ => cases h

/-- Changes that were normalised are normalised to themselves. -/
theorem mapM_normalizeDiff_toValue {items : List (Value ν)} {diffs : List AmendmentHistoryDiff}
    (h : items.mapM normalizeDiff = .ok diffs) :
    (diffs.map fun d => (d.toValue : Value ν)).mapM normalizeDiff = .ok diffs := by
  have hitems := mapM_eq_ok_iff.mp h
  rw [mapM_eq_ok_iff]
  clear h
  induction hitems with
  | nil => exact .nil
  | cons hd _ ih => exact .cons (normalizeDiff_toValue hd) ih

theorem normalizeAmendmentHistoryRecord_toInput {input : Option (AmendmentHistoryRecordInput ν)}
    {r : AmendmentHistoryRecord ν} (h : normalizeAmendmentHistoryRecord rt input = .ok r) :
    normalizeAmendmentHistoryRecord rt (some r.toInput) = .ok r := by
  cases input with
  | none => cases h
  | some record =>
    simp only [normalizeAmendmentHistoryRecord] at h
    split at h
    next items _ =>
      obtain ⟨payrollId, hid, h⟩ := except_bind_eq_ok.mp h
      obtain ⟨revision, hrevision, h⟩ := except_bind_eq_ok.mp h
      obtain ⟨actor, hactor, h⟩ := except_bind_eq_ok.mp h
      obtain ⟨recordedAt, hrecorded, h⟩ := except_bind_eq_ok.mp h
      obtain ⟨diffs, hdiffs, h⟩ := except_bind_eq_ok.mp h
      obtain ⟨reason, hreason, h⟩ := except_bind_eq_ok.mp h
      cases h
      obtain ⟨n, -, hpositive⟩ := except_bind_eq_ok.mp hrevision
      obtain ⟨t, -, hnotNegative⟩ := except_bind_eq_ok.mp hrecorded
      have hnormal : (diffs.map fun d => (d.toValue : Value ν)).mapM normalizeDiff = .ok diffs :=
        mapM_normalizeDiff_toValue hdiffs
      refine except_bind_eq_ok.mpr ⟨payrollId, nonEmptyField_str hid, ?_⟩
      refine except_bind_eq_ok.mpr ⟨revision, positiveInteger_finite hpositive, ?_⟩
      refine except_bind_eq_ok.mpr ⟨actor, nonEmptyField_str hactor, ?_⟩
      refine except_bind_eq_ok.mpr ⟨recordedAt, notNegative_finite hnotNegative, ?_⟩
      refine except_bind_eq_ok.mpr ⟨diffs, hnormal, ?_⟩
      exact except_bind_eq_ok.mpr ⟨reason, optionalReason_str hreason, rfl⟩
    next => cases h

end Records

/-! ## Pages -/

section Pages

variable [LinearOrder ν]

instance : Std.Total (leRevision (ν := ν)) := ⟨fun a b => le_total a.revision b.revision⟩

instance : IsTrans (AmendmentHistoryRecord ν) leRevision := ⟨fun _ _ _ => le_trans (α := ν)⟩

variable {records : List (AmendmentHistoryRecord ν)}

/-- Where records are sorted, any two that have one revision are seen next to each other. -/
theorem hasAdjacent_eq_false_iff (h : records.Pairwise leRevision) :
    hasAdjacent records = false ↔ records.Pairwise fun a b => a.revision ≠ b.revision := by
  induction records with
  | nil => exact iff_of_true rfl .nil
  | cons a rest ih =>
    cases rest with
    | nil => exact iff_of_true rfl (List.pairwise_singleton _ _)
    | cons b rest =>
      obtain ⟨hfirst, hrest⟩ := List.pairwise_cons.mp h
      have hab : a.revision ≤ b.revision := hfirst b List.mem_cons_self
      rw [hasAdjacent, Bool.or_eq_false_iff, decide_eq_false_iff_not, ih hrest, List.pairwise_cons (a := a)]
      refine and_congr_left fun _ => ?_
      constructor
      · intro hne c hc
        have hbc : b.revision ≤ c.revision := by
          rcases List.mem_cons.mp hc with rfl | hc
          · exact le_refl _
          · exact (List.pairwise_cons.mp hrest).1 c hc
        have hlt : a.revision < c.revision := lt_of_lt_of_le (lt_of_le_of_ne hab hne) hbc
        exact ne_of_lt hlt
      · intro hall
        exact hall b List.mem_cons_self

variable [CommRing ν] [FloorRing ν] {rt : Runtime ν}
variable {input : List (Option (AmendmentHistoryRecordInput ν))}

theorem normalizeAmendmentHistory_eq_ok_iff :
    normalizeAmendmentHistory rt (some input) = .ok records ↔
      ∃ normalized, List.Forall₂ (fun x r => normalizeAmendmentHistoryRecord rt x = .ok r) input normalized ∧
        (normalized.Pairwise fun a b => a.revision ≠ b.revision) ∧
        records = normalized.insertionSort leRevision := by
  rw [normalizeAmendmentHistory, except_bind_eq_ok]
  refine exists_congr fun normalized => and_congr mapM_eq_ok_iff ?_
  have hsorted : (normalized.insertionSort leRevision).Pairwise leRevision :=
    List.pairwise_insertionSort leRevision normalized
  have hperm : (normalized.insertionSort leRevision).Perm normalized := List.perm_insertionSort _ _
  have hdistinct := hperm.pairwise_iff (R := fun a b => a.revision ≠ b.revision) fun h => h.symm
  rw [throwIf_bind_eq_ok, Bool.not_eq_true, hasAdjacent_eq_false_iff hsorted, hdistinct]
  refine and_congr_right fun _ => ?_
  show Except.ok _ = Except.ok records ↔ _
  rw [Except.ok.injEq, eq_comm]

/-- What was accepted is accepted again, and is the same. -/
theorem normalizeAmendmentHistory_toInput (h : normalizeAmendmentHistory rt (some input) = .ok records) :
    normalizeAmendmentHistory rt (some (records.map fun r => some r.toInput)) = .ok records := by
  obtain ⟨normalized, hvalid, hdistinct, rfl⟩ := normalizeAmendmentHistory_eq_ok_iff.mp h
  have hsorted : (normalized.insertionSort leRevision).Pairwise leRevision :=
    List.pairwise_insertionSort leRevision normalized
  have hperm : (normalized.insertionSort leRevision).Perm normalized := List.perm_insertionSort _ _
  have hself : ∀ r ∈ normalized.insertionSort leRevision,
      normalizeAmendmentHistoryRecord rt (some r.toInput) = .ok r := by
    intro r hr
    obtain ⟨x, -, hx⟩ := exists_of_forall₂_right hvalid (hperm.mem_iff.mp hr)
    exact normalizeAmendmentHistoryRecord_toInput hx
  refine normalizeAmendmentHistory_eq_ok_iff.mpr ⟨normalized.insertionSort leRevision, ?_, ?_, ?_⟩
  · rw [List.forall₂_map_left_iff, List.forall₂_same]
    exact hself
  · exact (hperm.pairwise_iff fun h => Ne.symm h).mpr hdistinct
  · exact (List.Pairwise.insertionSort_eq hsorted).symm

/-- A page whose records are valid, no two of one payroll with one revision; `normalized` are its records. -/
structure Acceptable (rt : Runtime ν) (input : List (Option (AmendmentHistoryRecordInput ν)))
    (normalized : List (AmendmentHistoryRecord ν)) : Prop where
  valid : List.Forall₂ (fun x r => normalizeAmendmentHistoryRecord rt x = .ok r) input normalized
  unique : normalized.Pairwise fun a b => a.payrollId = b.payrollId → a.revision ≠ b.revision

/-- What is said of a page: it is accepted when it is acceptable, and then has
the records it should have, sorted, and is normalised. -/
structure Normalizes (rt : Runtime ν) (input : List (Option (AmendmentHistoryRecordInput ν))) : Prop where
  accepted : (∃ records, normalizeAmendmentHistory rt (some input) = .ok records) ↔
    ∃ normalized, Acceptable rt input normalized
  result : ∀ records, normalizeAmendmentHistory rt (some input) = .ok records →
    (∃ normalized, Acceptable rt input normalized ∧ records.Perm normalized) ∧ records.Pairwise leRevision ∧
      normalizeAmendmentHistory rt (some (records.map fun r => some r.toInput)) = .ok records

/-- A page is normalised as it should be just when no two of its records, of
different payrolls, have one revision; the test looks at revisions alone. -/
theorem normalizes_iff (rt : Runtime ν) (input : List (Option (AmendmentHistoryRecordInput ν))) :
    Normalizes rt input ↔ ∀ normalized, Acceptable rt input normalized →
      normalized.Pairwise fun a b => a.payrollId ≠ b.payrollId → a.revision ≠ b.revision := by
  constructor
  · intro h normalized hacceptable
    obtain ⟨records, hrecords⟩ := h.accepted.mpr ⟨normalized, hacceptable⟩
    obtain ⟨others, hothers, hdistinct, -⟩ := normalizeAmendmentHistory_eq_ok_iff.mp hrecords
    have hsame : others = normalized := by
      have hothers := mapM_eq_ok_iff.mpr hothers
      rw [mapM_eq_ok_iff.mpr hacceptable.valid] at hothers
      exact (Except.ok.inj hothers).symm
    rw [hsame] at hdistinct
    refine hdistinct.imp ?_
    intro a b hne _
    exact hne
  · intro h
    have hresult : ∀ records, normalizeAmendmentHistory rt (some input) = .ok records →
        (∃ normalized, Acceptable rt input normalized ∧ records.Perm normalized) ∧ records.Pairwise leRevision ∧
          normalizeAmendmentHistory rt (some (records.map fun r => some r.toInput)) = .ok records := by
      intro records hrecords
      have hagain := normalizeAmendmentHistory_toInput hrecords
      obtain ⟨normalized, hvalid, hdistinct, rfl⟩ := normalizeAmendmentHistory_eq_ok_iff.mp hrecords
      have hacceptable : Acceptable rt input normalized := by
        refine ⟨hvalid, hdistinct.imp ?_⟩
        intro a b hne _
        exact hne
      exact ⟨⟨normalized, hacceptable, List.perm_insertionSort _ _⟩, List.pairwise_insertionSort _ _, hagain⟩
    refine ⟨⟨?_, ?_⟩, hresult⟩
    · intro ⟨records, hrecords⟩
      obtain ⟨⟨normalized, hacceptable, -⟩, -⟩ := hresult records hrecords
      exact ⟨normalized, hacceptable⟩
    · intro ⟨normalized, hacceptable⟩
      have hdistinct : normalized.Pairwise fun a b => a.revision ≠ b.revision := by
        refine hacceptable.unique.imp₂ ?_ (h normalized hacceptable)
        intro a b hsame hother
        by_cases hpayroll : a.payrollId = b.payrollId
        · exact hsame hpayroll
        · exact hother hpayroll
      exact ⟨_, normalizeAmendmentHistory_eq_ok_iff.mpr ⟨normalized, hacceptable.valid, hdistinct, rfl⟩⟩

end Pages

/-! ## Two payrolls -/

/-- The first amendment of a payroll. -/
def firstAmendment (payrollId : String) : AmendmentHistoryRecord ℚ where
  payrollId := payrollId
  revision := 1
  actor := "ops"
  recordedAt := 0
  diffs := []

/-- Texts are never numbers, nor dates. -/
def noNumbers : Runtime ℚ where
  toNumber _ := .ok .nan
  parseDate _ := .ok .nan

/-- The first amendments of two payrolls are an acceptable page, and are refused. -/
theorem two_first_amendments :
    Acceptable noNumbers [some (firstAmendment "p1").toInput, some (firstAmendment "p2").toInput]
        [firstAmendment "p1", firstAmendment "p2"] ∧
      ¬Normalizes noNumbers [some (firstAmendment "p1").toInput, some (firstAmendment "p2").toInput] := by
  have hone : normalizeAmendmentHistoryRecord noNumbers (some (firstAmendment "p1").toInput) =
      .ok (firstAmendment "p1") := rfl
  have htwo : normalizeAmendmentHistoryRecord noNumbers (some (firstAmendment "p2").toInput) =
      .ok (firstAmendment "p2") := rfl
  have hacceptable : Acceptable noNumbers
      [some (firstAmendment "p1").toInput, some (firstAmendment "p2").toInput]
      [firstAmendment "p1", firstAmendment "p2"] := by
    refine ⟨.cons hone (.cons htwo .nil), ?_⟩
    rw [List.pairwise_pair]
    intro hsame
    exact absurd hsame (by decide)
  have hrefused : normalizeAmendmentHistory noNumbers
      (some [some (firstAmendment "p1").toInput, some (firstAmendment "p2").toInput]) =
        .error invalidHistoryRecord := rfl
  refine ⟨hacceptable, fun h => ?_⟩
  obtain ⟨records, hrecords⟩ := h.accepted.mpr ⟨_, hacceptable⟩
  rw [hrefused] at hrecords
  cases hrecords

end ZkPayroll.Amendments
