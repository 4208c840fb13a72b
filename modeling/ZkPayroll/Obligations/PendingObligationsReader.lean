import Mathlib.Data.List.Sort
import ZkPayroll.Framework.Grouping
import ZkPayroll.Framework.JsValue

/-!
# Pending payroll obligations

`readPendingObligations` of `obligations/pendingObligationsReader.ts`. The hash
of an employee's reference, the reading of dates and the order of texts are
functions of the run time.

An obligation is settled when a reservation that is bound to it has been
finalized, whatever its amount (`settled_iff`). What is reported as reserved of
an asset is what is held by the reservations bound to its obligations, once for
each time that one is bound (`reservedAmount_eq`); that is no more than is held
of the asset, when nothing is bound twice (`reserved_le_held`).
-/

namespace ZkPayroll.Obligations

open Framework

section

variable {ν : Type}

/-! ## Data -/

/-- The status of a funding reservation. -/
inductive ReservationStatus where
  | reserved
  | released
  | finalized
  | expired
  | cancelled
  deriving DecidableEq, Repr

/-- The fields of a `FundingReservation` that are read. -/
structure FundingReservation where
  reservationId : String
  reservedAmount : Int
  asset : String
  status : ReservationStatus
  deriving DecidableEq, Repr

inductive PendingObligationState where
  | pending
  | reserved
  | settled
  deriving DecidableEq, Repr

inductive PendingObligationRisk where
  | overdue
  | under_reserved
  | reservation_expired
  | reservation_cancelled
  | none
  deriving DecidableEq, Repr

/-- A due date: epoch milliseconds, or a text that is parsed. -/
inductive DueDate (ν : Type) where
  | number (ms : JsNumber ν)
  | text (s : String)

structure PendingObligationInput (ν : Type) where
  employeeId : String
  amount : Int
  asset : Option String := none
  destinationAddress : Option String := none
  dueAt : Option (DueDate ν) := none
  reservationIds : Option (List String) := none

structure ReadPendingObligationsOptions (ν : Type) where
  reservations : List FundingReservation := []
  now : Option (JsNumber ν) := none
  defaultReservationIds : Option (List String) := none
  defaultAsset : Option String := none
  defaultDestination : Option String := none

structure PendingObligation (ν : Type) where
  hashedEmployeeId : String
  asset : String
  amount : Int
  destinationAddress : String
  state : PendingObligationState
  risk : PendingObligationRisk
  isOutstanding : Bool
  isOverdue : Bool
  dueAt : Option (JsNumber ν)
  reservedAmount : Int
  reservationIds : List String

structure PendingObligationAssetTotals where
  asset : String
  count : Nat := 0
  outstandingCount : Nat := 0
  overdueCount : Nat := 0
  totalAmount : Int := 0
  outstandingAmount : Int := 0
  reservedAmount : Int := 0
  deriving DecidableEq, Repr

structure PendingObligationsResult (ν : Type) where
  obligations : List (PendingObligation ν)
  outstanding : List (PendingObligation ν)
  assetTotals : List PendingObligationAssetTotals
  totalOutstandingAmount : Int
  outstandingCount : Nat
  overdueCount : Nat
  isSettled : Bool
  summary : String
  readAt : JsNumber ν

structure Runtime (ν : Type) where
  hashEmployeeReferenceId : String → String
  /-- `Date.parse(s)`. -/
  parseDate : String → JsNumber ν
  /-- `Date.now()`. -/
  dateNow : JsNumber ν
  /-- `a.localeCompare(b)`. -/
  localeCompare : String → String → Int

/-! ## One obligation -/

def isHolding (status : ReservationStatus) : Bool := status = .reserved

def isSettled (status : ReservationStatus) : Bool := status = .finalized

def toEpochMs (rt : Runtime ν) : Option (DueDate ν) → Option (JsNumber ν)
  | none => none
  | some (.number (.finite ms)) => some (.finite ms)
  | some (.number _) => none
  | some (.text s) =>
    match rt.parseDate s with
    | .nan => none
    | parsed => some parsed

/-- The map `reservationsById`. -/
def reservationsById (reservations : List FundingReservation) : List (String × FundingReservation) :=
  reservations.foldl (fun m r => setKey r.reservationId r m) []

/-- `options.now ?? Date.now()`. -/
def now (rt : Runtime ν) (options : ReadPendingObligationsOptions ν) : JsNumber ν := options.now.getD rt.dateNow

section Bound

variable (options : ReadPendingObligationsOptions ν) (input : PendingObligationInput ν)

/-- The asset that the obligation is in. -/
def assetOf : String := input.asset.getD (options.defaultAsset.getD "native")

/-- `input.reservationIds ?? options.defaultReservationIds ?? []`. -/
def boundIds : List String := (input.reservationIds.or options.defaultReservationIds).getD []

/-- The reservations of the ids. -/
def matched : List FundingReservation :=
  (boundIds options input).filterMap fun id => (reservationsById options.reservations).lookup id

/-- The matched reservations that hold funds. -/
def holding : List FundingReservation := (matched options input).filter fun r => isHolding r.status

end Bound

section Resolve

variable [LE ν] [DecidableLE ν] (rt : Runtime ν) (options : ReadPendingObligationsOptions ν)

/-- The state that the reservations give an obligation. -/
def stateOf (matched holding : List FundingReservation) : PendingObligationState :=
  if matched.any fun r => isSettled r.status then .settled
  else if holding ≠ [] then .reserved
  else .pending

/-- The risk of an obligation that is outstanding. -/
def riskOf (isOverdue : Bool) (matched : List FundingReservation) (reservedAmount amount : Int) :
    PendingObligationRisk :=
  if isOverdue then .overdue
  else if matched.any fun r => decide (r.status = .expired) then .reservation_expired
  else if matched.any fun r => decide (r.status = .cancelled) then .reservation_cancelled
  else if reservedAmount > 0 ∧ reservedAmount < amount then .under_reserved
  else .none

/-- An obligation with its reservations. -/
def resolve (input : PendingObligationInput ν) : PendingObligation ν :=
  let matched := matched options input
  let holding := holding options input
  let reservedAmount := (holding.map (·.reservedAmount)).sum
  let state := stateOf matched holding
  let dueAt := toEpochMs rt input.dueAt
  let isOutstanding := decide (state ≠ .settled)
  let isOverdue := isOutstanding && dueAt.any fun due => JsNumber.le due (now rt options)
  { hashedEmployeeId := rt.hashEmployeeReferenceId input.employeeId
    asset := assetOf options input
    amount := input.amount
    destinationAddress := input.destinationAddress.getD (options.defaultDestination.getD "unknown")
    state := state
    risk := if isOutstanding then riskOf isOverdue matched reservedAmount input.amount else .none
    isOutstanding := isOutstanding
    isOverdue := isOverdue
    dueAt := dueAt
    reservedAmount := reservedAmount
    reservationIds := matched.map (·.reservationId) }

end Resolve

/-! ## All obligations -/

/-- One turn of the loop over the obligations. -/
def addObligation (totals : PendingObligationAssetTotals) (ob : PendingObligation ν) :
    PendingObligationAssetTotals :=
  { totals with
    count := totals.count + 1
    totalAmount := totals.totalAmount + ob.amount
    reservedAmount := totals.reservedAmount + ob.reservedAmount
    outstandingCount := if ob.isOutstanding then totals.outstandingCount + 1 else totals.outstandingCount
    outstandingAmount :=
      if ob.isOutstanding then totals.outstandingAmount + ob.amount else totals.outstandingAmount
    overdueCount := if ob.isOverdue then totals.overdueCount + 1 else totals.overdueCount }

/-- The map `totalsByAsset`. -/
def totalsByAsset (resolved : List (PendingObligation ν)) : List (String × PendingObligationAssetTotals) :=
  accumulateBy (·.asset) (fun asset => { asset := asset }) addObligation resolved

def formatPendingObligationsSummary (outstandingCount overdueCount : Nat) (totalOutstandingAmount : Int)
    (assetCount : Nat) : String :=
  if outstandingCount = 0 then "No pending payroll obligations — all obligations are settled."
  else
    let parts :=
      [s!"{outstandingCount} pending obligation" ++ (if outstandingCount = 1 then "" else "s"),
        s!"{totalOutstandingAmount} stroops outstanding",
        s!"across {assetCount} asset" ++ (if assetCount = 1 then "" else "s")] ++
      (if overdueCount > 0 then [s!"{overdueCount} overdue"] else [])
    String.intercalate ", " parts ++ "."

section Read

variable [LE ν] [DecidableLE ν] (rt : Runtime ν)

def readPendingObligations (obligations : List (PendingObligationInput ν))
    (options : ReadPendingObligationsOptions ν) : PendingObligationsResult ν :=
  let resolved := obligations.map (resolve rt options)
  let assetTotals := ((totalsByAsset resolved).map (·.2)).insertionSort fun a b =>
    rt.localeCompare a.asset b.asset ≤ 0
  let outstanding := resolved.filter (·.isOutstanding)
  let totalOutstandingAmount := (outstanding.map (·.amount)).sum
  let overdueCount := (resolved.filter (·.isOverdue)).length
  { obligations := resolved
    outstanding := outstanding
    assetTotals := assetTotals
    totalOutstandingAmount := totalOutstandingAmount
    outstandingCount := outstanding.length
    overdueCount := overdueCount
    isSettled := outstanding.length = 0
    summary := formatPendingObligationsSummary outstanding.length overdueCount totalOutstandingAmount
      assetTotals.length
    readAt := now rt options }

def hasNoPendingObligations (obligations : List (PendingObligationInput ν))
    (options : ReadPendingObligationsOptions ν) : Bool :=
  (readPendingObligations rt obligations options).isSettled

end Read

end

section

variable {ν : Type} {options : ReadPendingObligationsOptions ν}

/-! ## Reservations -/

/-- The reservation is one of the obligation: the last one given with an id that
is bound to the obligation. -/
def Bound (options : ReadPendingObligationsOptions ν) (input : PendingObligationInput ν) (r : FundingReservation) :
    Prop :=
  ∃ id ∈ boundIds options input, options.reservations.reverse.find? (fun r => r.reservationId = id) = some r

/-- The distinct reservations of the asset that are held. -/
def heldReservations (options : ReadPendingObligationsOptions ν) (asset : String) : List FundingReservation :=
  ((reservationsById options.reservations).map (·.2)).filter fun r => isHolding r.status && r.asset = asset

/-- The held reservations that the obligations of the asset have, one after the
other. -/
def heldBy (options : ReadPendingObligationsOptions ν) (obligations : List (PendingObligationInput ν))
    (asset : String) : List FundingReservation :=
  (obligations.filter fun input => assetOf options input = asset).flatMap (holding options)

theorem lookup_reservationsById (reservations : List FundingReservation) (id : String) :
    (reservationsById reservations).lookup id = reservations.reverse.find? fun r => r.reservationId = id := by
  have h := lookup_foldl_setKey FundingReservation.reservationId (fun r : FundingReservation => r) reservations [] id
  rwa [Option.map_id', List.lookup_nil, Option.or_none] at h

theorem mem_matched {input : PendingObligationInput ν} {r : FundingReservation} :
    r ∈ matched options input ↔ Bound options input r := by
  simp only [matched, List.mem_filterMap, lookup_reservationsById, Bound]

theorem mem_heldReservations {asset : String} {r : FundingReservation}
    {obligations : List (PendingObligationInput ν)} (hr : r ∈ heldBy options obligations asset)
    (ha : r.asset = asset) : r ∈ heldReservations options asset := by
  obtain ⟨input, -, hr⟩ := List.mem_flatMap.mp hr
  obtain ⟨hr, hheld⟩ := List.mem_filter.mp hr
  obtain ⟨id, -, hid⟩ := List.mem_filterMap.mp hr
  refine List.mem_filter.mpr ⟨List.mem_map_of_mem (lookup_mem hid), ?_⟩
  simp [hheld, ha]

/-! ## One turn after the other -/

theorem reservedAmount_foldl (obs : List (PendingObligation ν)) (totals : PendingObligationAssetTotals) :
    (obs.foldl addObligation totals).reservedAmount = totals.reservedAmount + (obs.map (·.reservedAmount)).sum := by
  induction obs generalizing totals with
  | nil => simp
  | cons ob obs ih =>
    rw [List.foldl_cons, ih, addObligation, List.map_cons, List.sum_cons, add_assoc]

theorem asset_foldl (obs : List (PendingObligation ν)) (totals : PendingObligationAssetTotals) :
    (obs.foldl addObligation totals).asset = totals.asset := by
  induction obs generalizing totals with
  | nil => rfl
  | cons ob obs ih => rw [List.foldl_cons, ih, addObligation]

/-! ## States -/

section Read

variable [LE ν] [DecidableLE ν] {rt : Runtime ν} {obligations : List (PendingObligationInput ν)}

theorem settled_iff {input : PendingObligationInput ν} :
    (resolve rt options input).state = .settled ↔ ∃ r, Bound options input r ∧ r.status = .finalized := by
  have hstate : (resolve rt options input).state = .settled ↔
      (matched options input).any (fun r => isSettled r.status) = true := by
    simp only [resolve, stateOf]
    split
    · rename_i h
      simp [h]
    · rename_i h
      refine iff_of_false ?_ h
      split <;> simp
  rw [hstate, List.any_eq_true]
  simp only [mem_matched, isSettled, decide_eq_true_eq]

theorem isOutstanding_eq_false {input : PendingObligationInput ν} :
    (resolve rt options input).isOutstanding = false ↔ (resolve rt options input).state = .settled := by
  simp [resolve]

theorem isSettled_iff : (readPendingObligations rt obligations options).isSettled = true ↔
    ∀ input ∈ obligations, ∃ r, Bound options input r ∧ r.status = .finalized := by
  have h : (readPendingObligations rt obligations options).isSettled = true ↔
      ∀ input ∈ obligations, (resolve rt options input).isOutstanding = false := by
    simp [readPendingObligations]
  rw [h]
  simp only [isOutstanding_eq_false, settled_iff]

/-! ## Totals -/

variable {totals : PendingObligationAssetTotals}

/-- The totals that are returned are those of the obligations of their asset. -/
theorem mem_assetTotals (h : totals ∈ (readPendingObligations rt obligations options).assetTotals) :
    totals = ((obligations.map (resolve rt options)).filter fun ob => ob.asset = totals.asset).foldl
      addObligation { asset := totals.asset } := by
  simp only [readPendingObligations, List.mem_insertionSort, List.mem_map] at h
  obtain ⟨f, hmem, rfl⟩ := h
  have hlookup := (mem_iff_lookup (nodup_accumulateBy _) _).mp hmem
  rw [lookup_accumulateBy] at hlookup
  split at hlookup
  · have htotals := Option.some.inj hlookup
    have hasset : f.2.asset = f.1 := by rw [← htotals, asset_foldl]
    rw [hasset]
    exact htotals.symm
  · cases hlookup

/-- The reserved amount counts a reservation each time that it is bound. -/
theorem reservedAmount_eq (h : totals ∈ (readPendingObligations rt obligations options).assetTotals) :
    totals.reservedAmount = ((heldBy options obligations totals.asset).map (·.reservedAmount)).sum := by
  have htotals := congrArg (·.reservedAmount) (mem_assetTotals h)
  simp only [reservedAmount_foldl, zero_add] at htotals
  rw [htotals, heldBy, List.map_flatMap, List.flatMap_def, List.sum_flatten, List.filter_map,
    List.map_map, List.map_map]
  rfl

/-- No held reservation is bound to the obligations of the asset twice, they are
of the asset, and the amounts that are held of it are not negative. -/
structure Unshared (options : ReadPendingObligationsOptions ν) (obligations : List (PendingObligationInput ν))
    (asset : String) : Prop where
  nodup : ((heldBy options obligations asset).map (·.reservationId)).Nodup
  sameAsset : ∀ r ∈ heldBy options obligations asset, r.asset = asset
  nonneg : ∀ r ∈ heldReservations options asset, 0 ≤ r.reservedAmount

theorem reserved_le_held (h : totals ∈ (readPendingObligations rt obligations options).assetTotals)
    (hu : Unshared options obligations totals.asset) :
    totals.reservedAmount ≤ ((heldReservations options totals.asset).map (·.reservedAmount)).sum := by
  rw [reservedAmount_eq h]
  refine sum_map_le_of_subset (hu.nodup.of_map _) (fun r hr => ?_) hu.nonneg
  exact mem_heldReservations hr (hu.sameAsset r hr)

/-- An obligation is settled by a finalized reservation, the payer when every
obligation is, and no more of an asset is reported to be reserved than is held,
unless reservations are shared. -/
theorem reads_by_reservation (rt : Runtime ν) (obligations : List (PendingObligationInput ν))
    (options : ReadPendingObligationsOptions ν) :
    (∀ (i : Nat) (input : PendingObligationInput ν), obligations[i]? = some input →
      ∃ ob : PendingObligation ν, (readPendingObligations rt obligations options).obligations[i]? = some ob ∧
        (ob.state = .settled ↔ ∃ r, Bound options input r ∧ r.status = .finalized)) ∧
      ((readPendingObligations rt obligations options).isSettled = true ↔
        ∀ input ∈ obligations, ∃ r, Bound options input r ∧ r.status = .finalized) ∧
      ∀ totals ∈ (readPendingObligations rt obligations options).assetTotals,
        Unshared options obligations totals.asset →
          totals.reservedAmount ≤ ((heldReservations options totals.asset).map (·.reservedAmount)).sum := by
  refine ⟨fun i input hi => ⟨resolve rt options input, ?_, settled_iff⟩, isSettled_iff, fun totals h hu => ?_⟩
  · rw [readPendingObligations, List.getElem?_map, hi, Option.map_some]
  · exact reserved_le_held h hu

end Read

/-! ## A payment that is not covered -/

/-- A run time whose clock stands still. -/
def exampleRuntime : Runtime Int where
  hashEmployeeReferenceId s := s
  parseDate _ := .nan
  dateNow := .finite 0
  localeCompare _ _ := 0

def exampleObligation : PendingObligationInput Int where
  employeeId := "e"
  amount := 10
  reservationIds := some ["r"]

/-- A tenth of what is owed. -/
def exampleReservation : FundingReservation where
  reservationId := "r"
  reservedAmount := 1
  asset := "native"
  status := .finalized

theorem settled_not_covered :
    (readPendingObligations exampleRuntime [exampleObligation] { reservations := [exampleReservation] }).isSettled =
        true ∧
      exampleReservation.reservedAmount < exampleObligation.amount := by
  decide +kernel

end

end ZkPayroll.Obligations
