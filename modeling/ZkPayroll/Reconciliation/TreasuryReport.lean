import ZkPayroll.Framework.BigIntText
import ZkPayroll.Framework.Decoding
import ZkPayroll.Framework.Guards
import ZkPayroll.Treasury.Readiness

/-!
# Treasury checkpoints and their reconciliation report

`parseTreasuryCheckpoint` of `treasury/checkpoints.ts`. A raw record may have
the status of a checkpoint, which is taken as it is; where it has none, the
amounts tell it.

`generateTreasuryReconciliationReport` of `reconciliation/report.ts`. The
report calls a list reconciled where its totals agree and every checkpoint is
verified (`isReconciled_iff`). A checkpoint is verified where its record says
so, so differences that cancel stay hidden exactly in lists where some record
says `verified` of amounts that differ (`reconciled_only_if_equal_iff`).
-/

namespace ZkPayroll.Treasury

open Framework ZkPayroll.Core

variable {ν : Type}

inductive CheckpointStatus where
  | verified
  | discrepancy
  | pending
  deriving DecidableEq

/-- An amount of a raw record. -/
inductive RawAmount (ν : Type) where
  | text (s : String)
  | bigint (n : Int)
  | number (n : JsNumber ν)

/-- A timestamp as it is stored. -/
inductive RawTimestamp (ν : Type) where
  | number (n : JsNumber ν)
  | text (s : String)

/-- What is read of a `RawCheckpointRecord`. -/
structure RawCheckpointRecord (ν : Type) where
  checkpointId : Option String := none
  id : Option String := none
  allocatedAmount : Option (RawAmount ν) := none
  disbursedAmount : Option (RawAmount ν) := none
  timestamp : Option (RawTimestamp ν) := none
  status : Option String := none

structure TreasuryCheckpoint (ν : Type) where
  id : String
  allocated : Int
  disbursed : Int
  timestamp : JsNumber ν
  status : CheckpointStatus

/-- A text of a record that is not empty. -/
def nonEmpty (o : Option String) : Option String := o.filter (· ≠ "")

def statusOf : String → Option CheckpointStatus
  | "verified" => some .verified
  | "discrepancy" => some .discrepancy
  | "pending" => some .pending
  | _ => none

variable [NumberFormat ν] [CommRing ν] [LinearOrder ν] [FloorRing ν]

/-- `BigInt(amount ?? 0)`. -/
def readAmount : Option (RawAmount ν) → Except SdkError Int
  | none => .ok 0
  | some (.bigint n) => .ok n
  | some (.text s) =>
    orThrow { genericError s!"Cannot convert {s} to a BigInt" with name := "SyntaxError" } (bigIntOf s)
  | some (.number n) => orThrow (bigIntError (numberText n)) n.toInteger

/-- `parseTreasuryCheckpoint` of a record, or of `null`. -/
def parseTreasuryCheckpoint (now : ν) : Option (RawCheckpointRecord ν) → Except SdkError (TreasuryCheckpoint ν)
  | none => .error (genericError "Invalid checkpoint record")
  | some raw => do
    let id := ((nonEmpty raw.checkpointId).or (nonEmpty raw.id)).getD "unknown"
    let allocated ← readAmount raw.allocatedAmount
    let disbursed ← readAmount raw.disbursedAmount
    let timestamp := match raw.timestamp with
      | some (.number n) => n
      | _ => .finite now
    let status := (raw.status.bind statusOf).getD (if allocated = disbursed then .verified else .discrepancy)
    return {
      id := id
      allocated := allocated
      disbursed := disbursed
      timestamp := timestamp
      status := status }

def parseTreasuryCheckpoints (now : ν) (rawItems : List (Option (RawCheckpointRecord ν))) :
    Except SdkError (List (TreasuryCheckpoint ν)) :=
  rawItems.mapM (parseTreasuryCheckpoint now)

/-- What a record that is parsed becomes. -/
theorem parseTreasuryCheckpoint_eq_ok {now : ν} {raw : Option (RawCheckpointRecord ν)} {cp : TreasuryCheckpoint ν}
    (h : parseTreasuryCheckpoint now raw = .ok cp) : ∃ record, raw = some record ∧
      readAmount record.allocatedAmount = .ok cp.allocated ∧ readAmount record.disbursedAmount = .ok cp.disbursed ∧
      cp.status = (record.status.bind statusOf).getD (if cp.allocated = cp.disbursed then .verified else .discrepancy) := by
  cases raw with
  | none => cases h
  | some record =>
    obtain ⟨allocated, hallocated, h⟩ := except_bind_eq_ok.mp h
    obtain ⟨disbursed, hdisbursed, h⟩ := except_bind_eq_ok.mp h
    cases h
    exact ⟨record, rfl, hallocated, hdisbursed, rfl⟩

end ZkPayroll.Treasury

namespace ZkPayroll.Reconciliation

open Framework ZkPayroll.Core Treasury

variable {ν : Type}

/-- A checkpoint as it is reported. -/
structure ReportedCheckpoint (ν : Type) where
  id : String
  allocated : String
  disbursed : String
  timestamp : JsNumber ν
  status : CheckpointStatus

structure TreasuryReconciliationReport (ν : Type) where
  totalAllocated : String
  totalDisbursed : String
  variance : String
  isReconciled : Bool
  checkpoints : List (ReportedCheckpoint ν)
  generatedAt : ν

/-- What the report is made of: raw records, of which one may be `null`, or
checkpoints that are parsed. -/
inductive CheckpointRecords (ν : Type) where
  | raw (records : List (Option (RawCheckpointRecord ν)))
  | parsed (checkpoints : List (TreasuryCheckpoint ν))

variable [NumberFormat ν] [CommRing ν] [LinearOrder ν] [FloorRing ν]

/-- The checkpoints of the records. The first record tells whether they are
parsed, so it may not be `null`. -/
def checkpointsOf (now : ν) : CheckpointRecords ν → Except SdkError (List (TreasuryCheckpoint ν))
  | .parsed checkpoints => .ok checkpoints
  | .raw (none :: _) =>
    .error { genericError "Cannot use 'in' operator to search for 'allocated' in null" with name := "TypeError" }
  | .raw records => parseTreasuryCheckpoints now records

def formatCheckpoint (cp : TreasuryCheckpoint ν) : ReportedCheckpoint ν where
  id := cp.id
  allocated := toString cp.allocated
  disbursed := toString cp.disbursed
  timestamp := cp.timestamp
  status := cp.status

/-- The totals that the loop over the checkpoints keeps. -/
structure Totals where
  totalAllocated : Int := 0
  totalDisbursed : Int := 0

/-- The totals with one checkpoint more. -/
def Totals.add (t : Totals) (cp : TreasuryCheckpoint ν) : Totals where
  totalAllocated := t.totalAllocated + cp.allocated
  totalDisbursed := t.totalDisbursed + cp.disbursed

def generateTreasuryReconciliationReport (now generatedAt : ν) (records : CheckpointRecords ν) :
    Except SdkError (TreasuryReconciliationReport ν) := do
  let checkpoints ← checkpointsOf now records
  let totals := checkpoints.foldl Totals.add {}
  let variance := totals.totalAllocated - totals.totalDisbursed
  return {
    totalAllocated := toString totals.totalAllocated
    totalDisbursed := toString totals.totalDisbursed
    variance := toString variance
    isReconciled := decide (variance = 0) && checkpoints.all fun c => c.status = .verified
    checkpoints := checkpoints.map formatCheckpoint
    generatedAt := generatedAt }

/-! ## Totals -/

/-- What was allocated and not disbursed. -/
def difference (cp : TreasuryCheckpoint ν) : Int := cp.allocated - cp.disbursed

omit [NumberFormat ν] [CommRing ν] [LinearOrder ν] [FloorRing ν] in
theorem foldl_add (cps : List (TreasuryCheckpoint ν)) : ∀ t : Totals,
    cps.foldl Totals.add t = {
      totalAllocated := t.totalAllocated + (cps.map (·.allocated)).sum
      totalDisbursed := t.totalDisbursed + (cps.map (·.disbursed)).sum } := by
  induction cps with
  | nil => simp
  | cons cp cps ih =>
    intro t
    rw [List.foldl_cons, ih]
    simp only [Totals.add, List.map_cons, List.sum_cons, Totals.mk.injEq]
    omega

omit [NumberFormat ν] [CommRing ν] [LinearOrder ν] [FloorRing ν] in
/-- What the totals differ by is the sum of what the checkpoints differ by. -/
theorem variance_eq (cps : List (TreasuryCheckpoint ν)) :
    (cps.foldl Totals.add {}).totalAllocated - (cps.foldl Totals.add {}).totalDisbursed = (cps.map difference).sum := by
  rw [foldl_add]
  show 0 + (cps.map (·.allocated)).sum - (0 + (cps.map (·.disbursed)).sum) = _
  induction cps with
  | nil => rfl
  | cons cp cps ih =>
    simp only [List.map_cons, List.sum_cons, difference] at ih ⊢
    omega

variable {cps : List (TreasuryCheckpoint ν)} {records : CheckpointRecords ν}

/-- A report calls its checkpoints reconciled where the differences cancel and
all are verified. -/
theorem isReconciled_iff {now generatedAt : ν}
    {report : TreasuryReconciliationReport ν} (hcps : checkpointsOf now records = .ok cps)
    (h : generateTreasuryReconciliationReport now generatedAt records = .ok report) :
    report.isReconciled = true ↔ (cps.map difference).sum = 0 ∧ ∀ cp ∈ cps, cp.status = .verified := by
  rw [generateTreasuryReconciliationReport, hcps] at h
  cases h
  show (decide (_ = 0) && _) = true ↔ _
  rw [Bool.and_eq_true, decide_eq_true_iff, variance_eq, List.all_eq_true]
  simp only [decide_eq_true_iff]

/-! ## What records say of themselves -/

/-- The amounts of a record, and the status it has itself. -/
structure Told where
  allocated : Int
  disbursed : Int
  status : Option CheckpointStatus

/-- What a raw record tells. -/
def tellRaw : Option (RawCheckpointRecord ν) → Except SdkError Told
  | none => .error (genericError "Invalid checkpoint record")
  | some raw => do
    let allocated ← readAmount raw.allocatedAmount
    let disbursed ← readAmount raw.disbursedAmount
    return { allocated := allocated, disbursed := disbursed, status := raw.status.bind statusOf }

/-- What the records tell. -/
def tell : CheckpointRecords ν → Except SdkError (List Told)
  | .parsed checkpoints => .ok (checkpoints.map fun cp => ⟨cp.allocated, cp.disbursed, some cp.status⟩)
  | .raw records => records.mapM tellRaw

/-- Some record says `verified` of amounts that differ, no record has another
status or none with amounts that differ, and the differences cancel. -/
structure Hides (told : List Told) : Prop where
  mismarked : ∃ t ∈ told, t.status = some .verified ∧ t.allocated ≠ t.disbursed
  unquestioned : ∀ t ∈ told, t.status = some .verified ∨ t.status = none ∧ t.allocated = t.disbursed
  cancel : (told.map fun t => t.allocated - t.disbursed).sum = 0

/-- The checkpoint that a record tells of. -/
def Told.Of (t : Told) (cp : TreasuryCheckpoint ν) : Prop :=
  cp.allocated = t.allocated ∧ cp.disbursed = t.disbursed ∧
    cp.status = t.status.getD (if t.allocated = t.disbursed then .verified else .discrepancy)

omit [NumberFormat ν] [CommRing ν] [LinearOrder ν] [FloorRing ν] in
theorem Told.Of.verified_iff {t : Told} {cp : TreasuryCheckpoint ν} (h : t.Of cp) :
    cp.status = .verified ↔ t.status = some .verified ∨ t.status = none ∧ t.allocated = t.disbursed := by
  rw [h.2.2]
  cases t.status with
  | some status => simp
  | none =>
    rw [Option.getD_none]
    split <;> simp [*]

/-- A record is parsed exactly where it tells something, which is what it is
parsed to. -/
theorem tellRaw_of_parse {now : ν} {raw : Option (RawCheckpointRecord ν)} {cp : TreasuryCheckpoint ν}
    (h : parseTreasuryCheckpoint now raw = .ok cp) : ∃ t, tellRaw raw = .ok t ∧ t.Of cp := by
  obtain ⟨record, rfl, hallocated, hdisbursed, hstatus⟩ := parseTreasuryCheckpoint_eq_ok h
  refine ⟨⟨cp.allocated, cp.disbursed, record.status.bind statusOf⟩, ?_, rfl, rfl, hstatus⟩
  rw [tellRaw, hallocated, hdisbursed]
  rfl

theorem parse_of_tellRaw (now : ν) {raw : Option (RawCheckpointRecord ν)} {t : Told} (h : tellRaw raw = .ok t) :
    ∃ cp, parseTreasuryCheckpoint now raw = .ok cp ∧ t.Of cp := by
  obtain ⟨cp, hcp⟩ : ∃ cp, parseTreasuryCheckpoint now raw = .ok cp := by
    cases raw with
    | none => cases h
    | some record =>
      obtain ⟨allocated, hallocated, h⟩ := except_bind_eq_ok.mp h
      obtain ⟨disbursed, hdisbursed, h⟩ := except_bind_eq_ok.mp h
      rw [parseTreasuryCheckpoint, hallocated, hdisbursed]
      exact ⟨_, rfl⟩
  obtain ⟨t', ht', hof⟩ := tellRaw_of_parse hcp
  rw [h, Except.ok.injEq] at ht'
  exact ⟨cp, hcp, ht' ▸ hof⟩

/-- The checkpoints of a list are those its records tell of. -/
theorem tell_of_checkpointsOf {now : ν}
    (h : checkpointsOf now records = .ok cps) : ∃ told, tell records = .ok told ∧ List.Forall₂ Told.Of told cps := by
  cases records with
  | parsed checkpoints =>
    cases h
    refine ⟨_, rfl, List.forall₂_map_left_iff.mpr ?_⟩
    exact List.forall₂_same.mpr fun cp _ => ⟨rfl, rfl, rfl⟩
  | raw records =>
    have hparse : parseTreasuryCheckpoints now records = .ok cps := by
      match records, h with
      | [], h => exact h
      | some _ :: _, h => exact h
    clear h
    have hparsed := mapM_eq_ok_iff.mp hparse
    clear hparse
    induction hparsed with
    | nil => exact ⟨[], rfl, .nil⟩
    | cons hcp _ ih =>
      obtain ⟨t, ht, hof⟩ := tellRaw_of_parse hcp
      obtain ⟨told, htold, hofs⟩ := ih
      exact ⟨t :: told, mapM_eq_ok_iff.mpr (.cons ht (mapM_eq_ok_iff.mp htold)), .cons hof hofs⟩

theorem checkpointsOf_of_tell (now : ν) {told : List Told}
    (h : tell records = .ok told) : ∃ cps, checkpointsOf now records = .ok cps := by
  cases records with
  | parsed checkpoints => exact ⟨checkpoints, rfl⟩
  | raw records =>
    have hall : ∀ raw ∈ records, ∃ cp, parseTreasuryCheckpoint now raw = .ok cp := by
      intro raw hraw
      obtain ⟨t, ht⟩ := exists_mapM_ok_iff.mp ⟨told, h⟩ raw hraw
      obtain ⟨cp, hcp, -⟩ := parse_of_tellRaw now ht
      exact ⟨cp, hcp⟩
    match records, hall with
    | [], _ => exact ⟨[], rfl⟩
    | none :: _, hall =>
      obtain ⟨cp, hcp⟩ := hall none List.mem_cons_self
      cases hcp
    | some record :: records, hall => exact exists_mapM_ok_iff.mpr hall

omit [NumberFormat ν] [CommRing ν] [LinearOrder ν] [FloorRing ν] in
theorem hides_iff {told : List Told} (h : List.Forall₂ Told.Of told cps) :
    Hides told ↔ ((cps.map difference).sum = 0 ∧ ∀ cp ∈ cps, cp.status = .verified) ∧
      ¬∀ cp ∈ cps, cp.allocated = cp.disbursed := by
  have hsum : (told.map fun t => t.allocated - t.disbursed).sum = (cps.map difference).sum := by
    induction h with
    | nil => rfl
    | cons hof _ ih =>
      rw [List.map_cons, List.map_cons, List.sum_cons, List.sum_cons, ih, difference, hof.1, hof.2.1]
  have hall : (∀ t ∈ told, t.status = some .verified ∨ t.status = none ∧ t.allocated = t.disbursed) ↔
      ∀ cp ∈ cps, cp.status = .verified := by
    clear hsum
    induction h with
    | nil => simp
    | cons hof _ ih => simp only [List.forall_mem_cons, ih, hof.verified_iff]
  have hequal : (∀ t ∈ told, t.allocated = t.disbursed) ↔ ∀ cp ∈ cps, cp.allocated = cp.disbursed := by
    clear hsum hall
    induction h with
    | nil => simp
    | cons hof _ ih => simp only [List.forall_mem_cons, ih, hof.1, hof.2.1]
  rw [← hsum, ← hall, ← hequal]
  constructor
  · intro hides
    obtain ⟨t, ht, -, hne⟩ := hides.mismarked
    exact ⟨⟨hides.cancel, hides.unquestioned⟩, fun heq => hne (heq t ht)⟩
  · rintro ⟨⟨hcancel, hquiet⟩, hne⟩
    push Not at hne
    obtain ⟨t, ht, hne⟩ := hne
    exact ⟨⟨t, ht, (hquiet t ht).resolve_right fun h => hne h.2, hne⟩, hquiet, hcancel⟩

/-! ## Reconciled lists -/

/-- A report calls the list reconciled only if every checkpoint has disbursed
what it was allocated. -/
def ReconciledOnlyIfEqual (now generatedAt : ν) (records : CheckpointRecords ν) : Prop :=
  ∀ cps report, checkpointsOf now records = .ok cps →
    generateTreasuryReconciliationReport now generatedAt records = .ok report → report.isReconciled = true →
    ∀ cp ∈ cps, cp.allocated = cp.disbursed

/-- Every list but those that hide a difference is called reconciled only if
each checkpoint has disbursed what it was allocated. -/
theorem reconciled_only_if_equal_iff (now generatedAt : ν) (records : CheckpointRecords ν) :
    ReconciledOnlyIfEqual now generatedAt records ↔ ∀ told, tell records = .ok told → ¬Hides told := by
  constructor
  · intro h told htold hides
    obtain ⟨cps, hcps⟩ := checkpointsOf_of_tell now htold
    obtain ⟨told', htold', hof⟩ := tell_of_checkpointsOf hcps
    rw [htold, Except.ok.injEq] at htold'
    obtain ⟨hreconciled, hne⟩ := (hides_iff (htold' ▸ hof)).mp hides
    obtain ⟨report, hreport⟩ : ∃ report, generateTreasuryReconciliationReport now generatedAt records = .ok report := by
      rw [generateTreasuryReconciliationReport, hcps]
      exact ⟨_, rfl⟩
    exact hne (h cps report hcps hreport ((isReconciled_iff hcps hreport).mpr hreconciled))
  · intro h cps report hcps hreport hreconciled
    obtain ⟨told, htold, hof⟩ := tell_of_checkpointsOf hcps
    have hshown := h told htold
    rw [hides_iff hof, not_and, not_not] at hshown
    exact hshown ((isReconciled_iff hcps hreport).mp hreconciled)

/-- A surplus of ten that hides a shortfall of ten. -/
def surplusAndShortfall : List (Option (RawCheckpointRecord Int)) :=
  [some { id := some "cp-1", allocatedAmount := some (.text "100"), disbursedAmount := some (.text "90"), status := some "verified" },
   some { id := some "cp-2", allocatedAmount := some (.text "90"), disbursedAmount := some (.text "100"), status := some "verified" }]

theorem surplus_hides_shortfall : ¬ReconciledOnlyIfEqual 0 0 (.raw surplusAndShortfall) := by
  intro h
  obtain ⟨report, hreport, hreconciled⟩ : ∃ report, generateTreasuryReconciliationReport 0 0 (.raw surplusAndShortfall) =
      .ok report ∧ report.isReconciled = true := ⟨_, rfl, rfl⟩
  have hequal := h _ report rfl hreport hreconciled ⟨"cp-1", 100, 90, .finite 0, .verified⟩ List.mem_cons_self
  exact absurd hequal (by decide)

end ZkPayroll.Reconciliation
