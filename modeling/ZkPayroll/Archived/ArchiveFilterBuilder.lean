import ZkPayroll.Core.Errors
import ZkPayroll.Framework.DecimalText
import ZkPayroll.Framework.Guards

/-!
# Queries of archived records

`archived/ArchiveFilterBuilder.ts`. A call that throws leaves the builder as it
is. A query is what its `toParams` gives.
-/

namespace ZkPayroll.Archived

open Framework ZkPayroll.Core

variable {ν : Type}

/-- The status of a settled record. -/
inductive SettledStatus where
  | completed
  | failed
  deriving DecidableEq

def SettledStatus.toText : SettledStatus → String
  | .completed => "completed"
  | .failed => "failed"

structure PaginationOptions (ν : Type) where
  pageSize : Option ν := none
  cursor : Option String := none

structure ArchiveFilterBuilder (ν : Type) where
  employeeIds : List String := []
  assets : List String := []
  periodStart : Option String := none
  periodEnd : Option String := none
  status : Option SettledStatus := none
  minAmount : Option Int := none
  maxAmount : Option Int := none
  pagination : Option (PaginationOptions ν) := none

/-- `set.add(text)`. -/
def addToSet (set : List String) (text : String) : List String := if text ∈ set then set else set ++ [text]

/-- A call of the builder. -/
inductive Call (ν : Type) where
  | forPeriod (start stop : String)
  | forEmployee (id : String)
  | forEmployees (ids : List String)
  | withAsset (asset : String)
  | withAssets (assets : List String)
  | withStatus (status : SettledStatus)
  | withMinAmount (amount : Int)
  | withMaxAmount (amount : Int)
  | paginate (options : PaginationOptions ν)
  | reset

namespace ArchiveFilterBuilder

variable (b : ArchiveFilterBuilder ν)

def forPeriod (start stop : String) : ArchiveFilterBuilder ν :=
  { b with periodStart := some start, periodEnd := some stop }

def forEmployee (id : String) : ArchiveFilterBuilder ν := { b with employeeIds := addToSet b.employeeIds id }

def forEmployees (ids : List String) : ArchiveFilterBuilder ν :=
  { b with employeeIds := ids.foldl addToSet b.employeeIds }

def withAsset (asset : String) : ArchiveFilterBuilder ν := { b with assets := addToSet b.assets asset }

def withAssets (assets : List String) : ArchiveFilterBuilder ν := { b with assets := assets.foldl addToSet b.assets }

def withStatus (status : SettledStatus) : ArchiveFilterBuilder ν := { b with status := some status }

def withMinAmount (amount : Int) : Except SdkError (ArchiveFilterBuilder ν) := do
  throwIf (amount < 0)
    (validationError ("minAmount must be non-negative; received " ++ toString amount) "minAmount")
  return { b with minAmount := some amount }

def withMaxAmount (amount : Int) : Except SdkError (ArchiveFilterBuilder ν) :=
  match b.minAmount with
  | some least => do
    throwIf (amount < least)
      (validationError ("maxAmount (" ++ toString amount ++ ") must be greater than or equal to minAmount (" ++
        toString least ++ ")") "maxAmount")
    return { b with maxAmount := some amount }
  | none => .ok { b with maxAmount := some amount }

def paginate (options : PaginationOptions ν) : ArchiveFilterBuilder ν := { b with pagination := some options }

def call : Call ν → Except SdkError (ArchiveFilterBuilder ν)
  | .forPeriod start stop => .ok (b.forPeriod start stop)
  | .forEmployee id => .ok (b.forEmployee id)
  | .forEmployees ids => .ok (b.forEmployees ids)
  | .withAsset asset => .ok (b.withAsset asset)
  | .withAssets assets => .ok (b.withAssets assets)
  | .withStatus status => .ok (b.withStatus status)
  | .withMinAmount amount => b.withMinAmount amount
  | .withMaxAmount amount => b.withMaxAmount amount
  | .paginate options => .ok (b.paginate options)
  | .reset => .ok {}

/-- A new builder after calls, the last one first, of which each may have thrown. -/
def after : List (Call ν) → ArchiveFilterBuilder ν
  | [] => {}
  | c :: calls =>
    match (after calls).call c with
    | .ok b => b
    | .error _ => after calls

end ArchiveFilterBuilder

/-! ## The parameters of a query -/

/-- The parameters of an `ArchiveQuery`. -/
abbrev Params := List (String × String)

/-- The parameter of a set, where that is not empty. -/
def listParam (name : String) (texts : List String) : Params :=
  if texts.length > 0 then [(name, ",".intercalate texts)] else []

/-- The parameter of a value, where that is not `undefined`. -/
def optionalParam (name : String) (text : Option String) : Params := (text.map fun t => (name, t)).toList

/-- `build().toParams()`. -/
def ArchiveFilterBuilder.toParams [NumberFormat ν] (b : ArchiveFilterBuilder ν) : Params :=
  listParam "employeeIds" b.employeeIds ++ listParam "assets" b.assets ++
    optionalParam "periodStart" b.periodStart ++ optionalParam "periodEnd" b.periodEnd ++
    optionalParam "status" (b.status.map (·.toText)) ++ optionalParam "minAmount" (b.minAmount.map toString) ++
    optionalParam "maxAmount" (b.maxAmount.map toString) ++
    optionalParam "pageSize" ((b.pagination.bind (·.pageSize)).map fun n => String.ofList (NumberFormat.toText n)) ++
    optionalParam "cursor" (b.pagination.bind (·.cursor))

theorem lookup_listParam (name key : String) (texts : List String) :
    (listParam name texts).lookup key =
      if key = name ∧ texts ≠ [] then some (",".intercalate texts) else none := by
  unfold listParam
  cases texts with
  | nil => simp
  | cons t texts =>
    have hlen : (t :: texts).length > 0 := Nat.succ_pos _
    rw [if_pos hlen, lookup_cons_eq]
    simp

theorem lookup_optionalParam (name key : String) (text : Option String) :
    (optionalParam name text).lookup key = if key = name then text else none := by
  cases text with
  | none => simp [optionalParam]
  | some t => simp [optionalParam, lookup_cons_eq]

/-- What the parameters of a builder are, name by name. -/
structure ParamsOf (b : ArchiveFilterBuilder ν) (params : Params) : Prop where
  employeeIds : params.lookup "employeeIds" = if b.employeeIds ≠ [] then some (",".intercalate b.employeeIds) else none
  assets : params.lookup "assets" = if b.assets ≠ [] then some (",".intercalate b.assets) else none
  periodStart : params.lookup "periodStart" = b.periodStart
  periodEnd : params.lookup "periodEnd" = b.periodEnd
  status : params.lookup "status" = b.status.map (·.toText)
  minAmount : params.lookup "minAmount" = b.minAmount.map toString
  maxAmount : params.lookup "maxAmount" = b.maxAmount.map toString

theorem paramsOf_toParams [NumberFormat ν] (b : ArchiveFilterBuilder ν) : ParamsOf b b.toParams := by
  constructor
  all_goals
    unfold ArchiveFilterBuilder.toParams
    simp only [List.lookup_append, lookup_listParam, lookup_optionalParam]
    simp

end ZkPayroll.Archived
