import ZkPayroll.Core.Errors
import ZkPayroll.Framework.Json
import ZkPayroll.Framework.Maps
import ZkPayroll.Framework.Paging
import ZkPayroll.Remediation.Mapper

/-!
# Data of the contract state indexer and their consistency

The types of `indexer/types.ts`. Of the records only the fields are here that
the indexer reads.

`addConsistencyDiagnostics` of the contract state indexer: what a view reports
about references between its records. Each check of the source is a function
from a record to the diagnostics that it adds.
-/

namespace ZkPayroll.Indexer

section

open Framework ZkPayroll.Core

/-! ## Records -/

structure IndexedCompany where
  id : String
  deriving DecidableEq

structure IndexedEmployee where
  id : String
  companyId : String
  deriving DecidableEq

structure IndexedPayrollRun where
  id : String
  companyId : String
  employeeIds : List String
  totalAmount : Option Int := none
  deriving DecidableEq

structure IndexedCommitmentRecord where
  id : String
  companyId : String
  employeeId : String
  payrollRunId : Option String := none
  commitmentHash : String
  deriving DecidableEq

structure IndexedAuditPermission where
  id : String
  companyId : String
  expiresAt : Option Int := none
  revokedAt : Option Int := none
  deriving DecidableEq

structure IndexedContractEvent where
  id : String
  type : String
  companyId : Option String := none
  employeeId : Option String := none
  payrollRunId : Option String := none
  amount : Option Int := none
  /-- `none` where it is not finite. -/
  occurredAt : Option Int
  /-- `payload.payrollRunTotal`, where it is a bigint. -/
  payrollRunTotal : Option Int := none
  deriving DecidableEq

/-! ## Readers -/

structure ContractStatePageRequest where
  cursor : Option String
  limit : Nat

/-- A reader of contract state that always answers the same; a call that
rejects is an `Except.error`. -/
structure ContractStateReader where
  /-- The method is optional. -/
  getCompany : Option (String → Except SdkError (Option IndexedCompany))
  listCompanies : ContractStatePageRequest → Except SdkError (Page IndexedCompany)
  listEmployees : String → ContractStatePageRequest → Except SdkError (Page IndexedEmployee)
  listPayrollRuns : String → ContractStatePageRequest → Except SdkError (Page IndexedPayrollRun)
  listContractEvents : String → ContractStatePageRequest → Except SdkError (Page IndexedContractEvent)
  listCommitments : String → ContractStatePageRequest → Except SdkError (Page IndexedCommitmentRecord)
  listAuditPermissions : String → ContractStatePageRequest → Except SdkError (Page IndexedAuditPermission)

/-! ## Checkpoints -/

structure CompanyIndexingCheckpoint where
  employeesCursor : Option String := none
  payrollRunsCursor : Option String := none
  eventsCursor : Option String := none
  commitmentsCursor : Option String := none
  auditPermissionsCursor : Option String := none
  complete : Option Bool := none
  deriving DecidableEq

structure IndexingCheckpoint where
  companyCursor : Option String := none
  activeCompanyId : Option String := none
  companyCursors : List (String × CompanyIndexingCheckpoint) := []
  completedCompanyIds : List String := []
  complete : Bool := false
  updatedAt : Int
  deriving DecidableEq

/-- The options, with the clock's reading where `indexedAt` is not given. -/
structure ContractStateIndexerOptions where
  pageSize : Option Nat := none
  maxPages : Option Nat := none
  indexedAt : Int := 0
  checkpoint : Option IndexingCheckpoint := none
  /-- What stands in the functions that every object inherits, by their names:
  `companyCursors[company.id]` finds them too. -/
  inherited : String → CompanyIndexingCheckpoint := fun _ => {}

/-- What every object inherits. `Object.prototype` itself, which has the name
`__proto__`, has none of the properties when a call begins. -/
def ContractStateIndexerOptions.inheritedEntries (options : ContractStateIndexerOptions) :
    List (String × CompanyIndexingCheckpoint) :=
  Remediation.inheritedNames.map fun name => (name, if name = "__proto__" then {} else options.inherited name)

/-- What the caller's `companyCursors` gives, by the ids: its own entries, and
what it inherits under other names. -/
def ContractStateIndexerOptions.callerEntries (options : ContractStateIndexerOptions) :
    List (String × CompanyIndexingCheckpoint) :=
  let own := (options.checkpoint.map (·.companyCursors)).getD []
  own ++ options.inheritedEntries.filter fun entry => (own.lookup entry.1).isNone

/-! ## Results -/

inductive IndexerDiagnosticSeverity where
  | warning
  | recoverable_error
  | fatal_error
  deriving DecidableEq

inductive IndexerDiagnosticCode where
  | MISSING_COMPANY_REFERENCE
  | MISSING_EMPLOYEE_REFERENCE
  | ORPHAN_PAYROLL_RUN
  | MISSING_PAYROLL_RUN_REFERENCE
  | MISMATCHED_EVENT_DATA
  | DUPLICATE_COMMITMENT
  | STALE_AUDIT_PERMISSION
  | CORRUPTED_EVENT_DATA
  | CHECKPOINT_REQUIRES_COMPANY_LOOKUP
  deriving DecidableEq

structure IndexerDiagnostic where
  severity : IndexerDiagnosticSeverity
  code : IndexerDiagnosticCode
  message : String
  companyId : Option String := none
  employeeId : Option String := none
  payrollRunId : Option String := none
  recordId : Option String := none
  /-- The properties of `details`; a missing number is `null`. -/
  details : List (String × Json Int) := []

structure IndexedPayrollDomainView where
  companies : List IndexedCompany := []
  employees : List IndexedEmployee := []
  payrollRuns : List IndexedPayrollRun := []
  events : List IndexedContractEvent := []
  commitments : List IndexedCommitmentRecord := []
  auditPermissions : List IndexedAuditPermission := []
  deriving DecidableEq

structure ContractStateIndexResult extends IndexedPayrollDomainView where
  indexedAt : Int
  checkpoint : IndexingCheckpoint
  /-- `diagnostics.all`; the three other lists are its parts by severity. -/
  diagnostics : List IndexerDiagnostic

/-! ## Snapshots taken together -/

namespace IndexedPayrollDomainView

/-- The records of two views. -/
protected def append (d e : IndexedPayrollDomainView) : IndexedPayrollDomainView where
  companies := d.companies ++ e.companies
  employees := d.employees ++ e.employees
  payrollRuns := d.payrollRuns ++ e.payrollRuns
  events := d.events ++ e.events
  commitments := d.commitments ++ e.commitments
  auditPermissions := d.auditPermissions ++ e.auditPermissions

instance : Append IndexedPayrollDomainView := ⟨IndexedPayrollDomainView.append⟩

theorem append_def (d e : IndexedPayrollDomainView) : d ++ e =
    { companies := d.companies ++ e.companies
      employees := d.employees ++ e.employees
      payrollRuns := d.payrollRuns ++ e.payrollRuns
      events := d.events ++ e.events
      commitments := d.commitments ++ e.commitments
      auditPermissions := d.auditPermissions ++ e.auditPermissions } := rfl

@[simp] theorem append_empty (d : IndexedPayrollDomainView) : d ++ ({} : IndexedPayrollDomainView) = d := by
  simp [append_def]

@[simp] theorem empty_append (d : IndexedPayrollDomainView) : ({} : IndexedPayrollDomainView) ++ d = d := by
  simp [append_def]

theorem append_assoc (d e f : IndexedPayrollDomainView) : d ++ e ++ f = d ++ (e ++ f) := by
  simp [append_def]

end IndexedPayrollDomainView

end

section

open Framework

/-! ## Keys -/

def employeeKey (companyId employeeId : String) : String := s!"{companyId}:{employeeId}"

def payrollRunKey (companyId payrollRunId : String) : String := s!"{companyId}:{payrollRunId}"

/-- `value ?? null`, as it is written in the details. -/
def jsonOption : Option Int → Json Int
  | some n => .num n
  | none => .null

/-- The sets that the checks look records up in. -/
structure KnownKeys where
  companyIds : List String
  employeeKeys : List String
  payrollRunKeys : List String

/-- The keys that the records have. -/
def knownKeys (domain : IndexedPayrollDomainView) : KnownKeys where
  companyIds := domain.companies.map (·.id)
  employeeKeys := domain.employees.map fun e => employeeKey e.companyId e.id
  payrollRunKeys := domain.payrollRuns.map fun r => payrollRunKey r.companyId r.id

/-- The diagnostic, where the condition holds. -/
def reportIf (c : Bool) (d : IndexerDiagnostic) : List IndexerDiagnostic := if c then [d] else []

variable (known : KnownKeys)

/-- The record names a company that is not in the view. -/
def missingCompany (record id companyId : String) (employeeId : Option String := none) :
    List IndexerDiagnostic :=
  reportIf (!known.companyIds.contains companyId)
    { severity := .recoverable_error
      code := .MISSING_COMPANY_REFERENCE
      message := s!"{record} {id} references missing company {companyId}."
      companyId := some companyId
      employeeId := employeeId
      recordId := some id }

/-! ## Records -/

def employeeDiagnostics (e : IndexedEmployee) : List IndexerDiagnostic :=
  missingCompany known "Employee" e.id e.companyId (some e.id)

def payrollRunDiagnostics (run : IndexedPayrollRun) : List IndexerDiagnostic :=
  reportIf (!known.companyIds.contains run.companyId)
    { severity := .recoverable_error
      code := .ORPHAN_PAYROLL_RUN
      message := s!"Payroll run {run.id} references missing company {run.companyId}."
      companyId := some run.companyId
      payrollRunId := some run.id
      recordId := some run.id } ++
  run.employeeIds.flatMap fun employeeId =>
    reportIf (!known.employeeKeys.contains (employeeKey run.companyId employeeId))
      { severity := .warning
        code := .MISSING_EMPLOYEE_REFERENCE
        message := s!"Payroll run {run.id} references missing employee {employeeId}."
        companyId := some run.companyId
        employeeId := some employeeId
        payrollRunId := some run.id
        recordId := some run.id }

/-- What makes two commitments the same. -/
def duplicateKey (c : IndexedCommitmentRecord) : String :=
  let payrollRunId := c.payrollRunId.getD ""
  s!"{c.companyId}:{c.employeeId}:{payrollRunId}:{c.commitmentHash}"

/-- The checks of a commitment after `earlier` ones. -/
def commitmentDiagnostics (earlier : List IndexedCommitmentRecord)
    (c : IndexedCommitmentRecord) : List IndexerDiagnostic :=
  missingCompany known "Commitment" c.id c.companyId ++
  reportIf (!known.employeeKeys.contains (employeeKey c.companyId c.employeeId))
    { severity := .recoverable_error
      code := .MISSING_EMPLOYEE_REFERENCE
      message := s!"Commitment {c.id} references missing employee {c.employeeId}."
      companyId := some c.companyId
      employeeId := some c.employeeId
      payrollRunId := c.payrollRunId
      recordId := some c.id } ++
  (match c.payrollRunId with
    | none => []
    | some runId =>
      reportIf (runId != "" && !known.payrollRunKeys.contains (payrollRunKey c.companyId runId))
        { severity := .recoverable_error
          code := .MISSING_PAYROLL_RUN_REFERENCE
          message := s!"Commitment {c.id} references missing payroll run {runId}."
          companyId := some c.companyId
          employeeId := some c.employeeId
          payrollRunId := some runId
          recordId := some c.id }) ++
  match earlier.find? fun d => duplicateKey d = duplicateKey c with
  | none => []
  | some existing =>
    [{ severity := .warning
       code := .DUPLICATE_COMMITMENT
       message := s!"Commitments {existing.id} and {c.id} share the same employee/run/hash identity."
       companyId := some c.companyId
       employeeId := some c.employeeId
       payrollRunId := c.payrollRunId
       recordId := some c.id
       details := [("duplicateOf", .str existing.id)] }]

def allCommitmentDiagnostics (known : KnownKeys) :
    List IndexedCommitmentRecord → List IndexedCommitmentRecord → List IndexerDiagnostic
  | _, [] => []
  | earlier, c :: cs =>
    commitmentDiagnostics known earlier c ++ allCommitmentDiagnostics known (earlier ++ [c]) cs

/-! ## Events -/

/-- A diagnostic of an event. -/
def eventDiagnostic (event : IndexedContractEvent) (severity : IndexerDiagnosticSeverity)
    (code : IndexerDiagnosticCode) (message : String) : IndexerDiagnostic where
  severity := severity
  code := code
  message := s!"Event {event.id} " ++ message
  companyId := event.companyId
  employeeId := event.employeeId
  payrollRunId := event.payrollRunId
  recordId := some event.id

/-- The string, where it is there and not empty. -/
def truthy : Option String → Option String := Option.filter (· ≠ "")

/-- The checks of an event against its payroll run. -/
def eventRunDiagnostics (event : IndexedContractEvent) (payrollRun : IndexedPayrollRun) :
    List IndexerDiagnostic :=
  (match truthy event.employeeId with
    | none => []
    | some employeeId =>
      reportIf (!payrollRun.employeeIds.contains employeeId)
        (eventDiagnostic event .warning .MISMATCHED_EVENT_DATA
          s!"references employee {employeeId}, which is not part of payroll run {payrollRun.id}.")) ++
  match payrollRun.totalAmount, event.amount with
  | some totalAmount, some _ =>
    reportIf (event.payrollRunTotal.getD totalAmount != totalAmount)
      (eventDiagnostic event .warning .MISMATCHED_EVENT_DATA
        s!"reports a payroll total that differs from payroll run {payrollRun.id}.")
  | _, _ => []

/-- `validateEvent`. -/
def validateEvent (payrollRuns : List IndexedPayrollRun) (event : IndexedContractEvent) :
    List IndexerDiagnostic :=
  if event.id = "" ∨ event.type = "" ∨ event.occurredAt = none then
    let shown := if event.id = "" then "<unknown>" else event.id
    [{ severity := .fatal_error
       code := .CORRUPTED_EVENT_DATA
       message := s!"Event {shown} is missing a stable id, type, or timestamp."
       recordId := some event.id }]
  else
    let negative := reportIf (event.amount.any fun amount => decide (amount < 0))
      (eventDiagnostic event .fatal_error .CORRUPTED_EVENT_DATA "contains a negative amount.")
    let company := match truthy event.companyId with
      | none => []
      | some companyId => missingCompany known "Event" event.id companyId
    let employee := match truthy event.companyId, truthy event.employeeId with
      | some companyId, some employeeId =>
        reportIf (!known.employeeKeys.contains (employeeKey companyId employeeId))
          (eventDiagnostic event .recoverable_error .MISSING_EMPLOYEE_REFERENCE
            s!"references missing employee {employeeId}.")
      | _, _ => []
    let run := match truthy event.companyId, truthy event.payrollRunId with
      | some companyId, some runId =>
        reportIf (!known.payrollRunKeys.contains (payrollRunKey companyId runId))
          (eventDiagnostic event .recoverable_error .MISSING_PAYROLL_RUN_REFERENCE
            s!"references missing payroll run {runId}.")
      | _, _ => []
    let found := payrollRuns.find? fun r => some r.companyId = event.companyId ∧ some r.id = event.payrollRunId
    negative ++ company ++ employee ++
      -- a missing run ends the checks
      if run.isEmpty then (found.map (eventRunDiagnostics event)).getD [] else run

/-! ## Permissions -/

def permissionDiagnostics (indexedAt : Int) (p : IndexedAuditPermission) : List IndexerDiagnostic :=
  let isExpired := p.expiresAt.any fun t => decide (t ≤ indexedAt)
  let isRevoked := p.revokedAt.any fun t => decide (t ≤ indexedAt)
  let state := if isRevoked then "revoked" else "expired"
  missingCompany known "Audit permission" p.id p.companyId ++
  reportIf (isExpired || isRevoked)
    { severity := .warning
      code := .STALE_AUDIT_PERMISSION
      message := s!"Audit permission {p.id} is {state}."
      companyId := some p.companyId
      recordId := some p.id
      details := [("expiresAt", jsonOption p.expiresAt), ("revokedAt", jsonOption p.revokedAt)] }

/-- `addConsistencyDiagnostics`. -/
def consistencyDiagnostics (domain : IndexedPayrollDomainView) (indexedAt : Int) : List IndexerDiagnostic :=
  let known := knownKeys domain
  domain.employees.flatMap (employeeDiagnostics known) ++
  domain.payrollRuns.flatMap (payrollRunDiagnostics known) ++
  allCommitmentDiagnostics known [] domain.commitments ++
  domain.events.flatMap (validateEvent known domain.payrollRuns) ++
  domain.auditPermissions.flatMap (permissionDiagnostics known indexedAt)

end

end ZkPayroll.Indexer
