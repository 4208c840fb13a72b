import Mathlib.Algebra.Field.Defs
import Mathlib.Algebra.Order.Ring.Defs
import ZkPayroll.Archived.ArchiveFilterBuilder
import ZkPayroll.Framework.Maps
import ZkPayroll.Remediation.Mapper

/-!
# Selected records and their report

`applyArchiveQuery` of `archived/internal.ts`, `validatePeriodOrdering` of
`archived/query.ts` and `archived/summary.ts`. `Date.parse` is given; it gives
`none` for `NaN`. The breakdown of a report is an ordinary object: a record
whose asset is named like a property of `Object.prototype` counts in that
property, which for `__proto__` is `Object.prototype` itself, so that all
objects then have a count (`Tally.polluted`).
-/

namespace ZkPayroll.Archived

open Framework ZkPayroll.Core Remediation

variable {ν : Type}

/-- What is read of a record. -/
structure ArchivedRecord (ν : Type) where
  id : String
  amount : Int
  timestamp : ν
  status : SettledStatus
  asset : Option String

/-! ## Selection -/

/-- `new Set(text.split(",").filter(Boolean))`. -/
def splitSet (text : String) : List String := ((text.toList.splitOn ',').map String.ofList).filter (· ≠ "")

/-- `BigInt(text)`, where there is a text. -/
def optionalBigInt : Option String → Except SdkError (Option Int)
  | none => .ok none
  | some text => do
    let n ← orThrow { genericError s!"Cannot convert {text} to a BigInt" with name := "SyntaxError" } (bigIntOf text)
    return some n

/-- The filters that are read from a query. -/
structure Filters where
  status : Option String
  employeeSet : Option (List String)
  assetSet : Option (List String)
  /-- `some none` is a text that is no date. -/
  periodStartMs : Option (Option Int)
  periodEndMs : Option (Option Int)
  minAmount : Option Int
  maxAmount : Option Int
  deriving DecidableEq

def readFilters (parseDate : String → Option Int) (params : Params) : Except SdkError Filters := do
  let minAmount ← optionalBigInt (params.lookup "minAmount")
  let maxAmount ← optionalBigInt (params.lookup "maxAmount")
  return {
    status := params.lookup "status"
    employeeSet := (params.lookup "employeeIds").map splitSet
    assetSet := (params.lookup "assets").map splitSet
    periodStartMs := (params.lookup "periodStart").map parseDate
    periodEndMs := (params.lookup "periodEnd").map parseDate
    minAmount := minAmount
    maxAmount := maxAmount }

section Selection

variable [Field ν] [LinearOrder ν]

/-- Whether a record passes the filters. -/
def Filters.passes (f : Filters) (r : ArchivedRecord ν) : Bool :=
  if f.status.any (r.status.toText ≠ ·) then false
  else if f.employeeSet.any (r.id ∉ ·) then false
  else if f.assetSet.any fun set => r.asset.all (· ∉ set) then false
  else if f.periodStartMs = some none then false
  else if f.periodStartMs.join.any fun ms => r.timestamp < (ms : ν) / (1000 : Nat) then false
  else if f.periodEndMs = some none then false
  else if f.periodEndMs.join.any fun ms => r.timestamp > (ms : ν) / (1000 : Nat) then false
  else if f.minAmount.any (r.amount < ·) then false
  else if f.maxAmount.any (r.amount > ·) then false
  else true

/-- No filter is set. -/
def noFilters : Filters where
  status := none
  employeeSet := none
  assetSet := none
  periodStartMs := none
  periodEndMs := none
  minAmount := none
  maxAmount := none

def applyArchiveQuery (parseDate : String → Option Int) (records : List (ArchivedRecord ν)) (params : Params) :
    Except SdkError (List (ArchivedRecord ν)) := do
  let filters ← readFilters parseDate params
  return if filters = noFilters then records else records.filter filters.passes

end Selection

def validatePeriodOrdering (parseDate : String → Option Int) (params : Params) : Except SdkError Unit :=
  match params.lookup "periodStart", params.lookup "periodEnd" with
  | some start, some stop =>
    match parseDate start, parseDate stop with
    | some startMs, some endMs =>
      throwIf (startMs > endMs)
        (validationError ("periodStart (\"" ++ start ++ "\") must not be later than periodEnd (\"" ++ stop ++ "\")")
          "periodStart")
    | _, _ => .ok ()
  | _, _ => .ok ()

/-! ## The report -/

structure AssetBreakdownEntry where
  totalCount : Nat := 0
  completedCount : Nat := 0
  failedCount : Nat := 0
  deriving DecidableEq

structure ArchiveSummaryReport (ν : Type) where
  periodStart : String
  periodEnd : String
  totalCount : Nat
  completedCount : Nat
  failedCount : Nat
  assetBreakdown : List (String × AssetBreakdownEntry)
  generatedAt : ν

/-- The counts so far, and the properties of `Object.prototype` that are `NaN`. -/
structure Tally where
  counts : AssetBreakdownEntry := {}
  assetBreakdown : List (String × AssetBreakdownEntry) := []
  polluted : List String

/-- Counts a settled record. -/
def AssetBreakdownEntry.count (e : AssetBreakdownEntry) (status : SettledStatus) : AssetBreakdownEntry :=
  match status with
  | .completed => { e with totalCount := e.totalCount + 1, completedCount := e.completedCount + 1 }
  | .failed => { e with totalCount := e.totalCount + 1, failedCount := e.failedCount + 1 }

/-- The names of the counts of a record. -/
def countNames : SettledStatus → List String
  | .completed => ["totalCount", "completedCount"]
  | .failed => ["totalCount", "failedCount"]

/-- Counting in a property that is a number. -/
def countError : SdkError where
  kind := .error
  name := "TypeError"
  message := "Cannot create property 'totalCount' on number 'NaN'"

/-- The key of a record in the breakdown. -/
def assetKey (r : ArchivedRecord ν) : String :=
  match r.asset with
  | some asset => if asset ≠ "" then asset else "unknown"
  | none => "unknown"

def countRecord (t : Tally) (r : ArchivedRecord ν) : Except SdkError Tally :=
  let key := assetKey r
  let counted := { t with counts := t.counts.count r.status }
  match t.assetBreakdown.lookup key with
  | some entry => .ok { counted with assetBreakdown := setKey key (entry.count r.status) t.assetBreakdown }
  | none =>
    if key = "__proto__" then .ok { counted with polluted := countNames r.status ++ t.polluted }
    else if key ∈ t.polluted then .error countError
    else if key ∈ inheritedNames then
      -- The counts of an inherited method are `NaN`, in a property of its own.
      .ok counted
    else
      let entry : AssetBreakdownEntry := {}
      .ok { counted with assetBreakdown := setKey key (entry.count r.status) t.assetBreakdown }

/-- The report at the time `now`, where `polluted` are the properties of
`Object.prototype` that are `NaN` from the start. -/
def buildArchiveSummaryReport [Field ν] [LinearOrder ν] (parseDate : String → Option Int) (now : ν)
    (polluted : List String) (records : List (ArchivedRecord ν)) (params : Params) :
    Except SdkError (ArchiveSummaryReport ν) := do
  validatePeriodOrdering parseDate params
  let filtered ← applyArchiveQuery parseDate records params
  let tally ← filtered.foldlM countRecord { polluted := polluted }
  return {
    periodStart := (params.lookup "periodStart").getD ""
    periodEnd := (params.lookup "periodEnd").getD ""
    totalCount := tally.counts.totalCount
    completedCount := tally.counts.completedCount
    failedCount := tally.counts.failedCount
    assetBreakdown := tally.assetBreakdown
    generatedAt := now }

end ZkPayroll.Archived
