import ZkPayroll.Framework.Guards
import ZkPayroll.Indexer.Types

/-!
# The contract state indexer

`ContractStateIndexer` of `indexer/ContractStateIndexer.ts`, as methods of the
state of one call of `index` (`IndexState`). The checkpoint that the caller
passed in is copied, but not the checkpoints of its companies: the call writes
to those of the caller too (`callerCursors`). Under the name of a property that
every object inherits, it writes to what is inherited. The loop over the pages of
a collection is bounded by `fuel`.
-/

namespace ZkPayroll.Indexer

open Framework ZkPayroll.Core

def DEFAULT_INDEXER_PAGE_SIZE : Nat := 100

/-- Why a call of `index` gives no result. -/
inductive IndexFailure where
  | rejected (e : SdkError)
  /-- A collection has more pages than the model's loop reads. -/
  | outOfFuel

/-- What a call of the indexer works on. -/
structure IndexState where
  checkpoint : IndexingCheckpoint
  domain : IndexedPayrollDomainView := {}
  remainingPages : Option Nat
  diagnostics : List IndexerDiagnostic := []
  /-- What `companyCursors` of the caller's checkpoint gives, by the ids. -/
  callerCursors : List (String × CompanyIndexingCheckpoint) := []

structure ReadPagesResult (α : Type) where
  items : List α
  nextCursor : Option String := none

/-! ## Pages -/

def isBudgetExhausted (remainingPages : Option Nat) : Bool := remainingPages.any fun n => n == 0

variable (s : IndexState)

def consumePage : IndexState :=
  { s with remainingPages := s.remainingPages.map (· - 1) }

variable {α : Type}

/-- `await readPage(request)`. -/
def readPage (read : ContractStatePageRequest → Except SdkError (Page α)) (request : ContractStatePageRequest) :
    Except IndexFailure (Page α) :=
  (read request).mapError .rejected

def readPages (read : ContractStatePageRequest → Except SdkError (Page α)) (limit : Nat) :
    Nat → Option String → Method IndexFailure IndexState (ReadPagesResult α)
  | 0, _ => throw .outOfFuel
  | fuel + 1, cursor => do
    let s ← get
    if isBudgetExhausted s.remainingPages then pure { items := [], nextCursor := cursor }
    else
      let page ← liftM (readPage read { cursor := cursor, limit := limit })
      modify consumePage
      match page.nextCursor with
      | none => pure { items := page.items }
      | some next =>
        let rest ← readPages read limit fuel (some next)
        pure { rest with items := page.items ++ rest.items }

/-! ## One company -/

/-- A collection of records of a company. -/
structure RecordStream (α : Type) where
  list : ContractStateReader → String → ContractStatePageRequest → Except SdkError (Page α)
  cursor : CompanyIndexingCheckpoint → Option String
  setCursor : CompanyIndexingCheckpoint → Option String → CompanyIndexingCheckpoint
  push : IndexedPayrollDomainView → List α → IndexedPayrollDomainView

def employees : RecordStream IndexedEmployee where
  list := (·.listEmployees)
  cursor := (·.employeesCursor)
  setCursor c x := { c with employeesCursor := x }
  push d items := { d with employees := d.employees ++ items }

def payrollRuns : RecordStream IndexedPayrollRun where
  list := (·.listPayrollRuns)
  cursor := (·.payrollRunsCursor)
  setCursor c x := { c with payrollRunsCursor := x }
  push d items := { d with payrollRuns := d.payrollRuns ++ items }

def events : RecordStream IndexedContractEvent where
  list := (·.listContractEvents)
  cursor := (·.eventsCursor)
  setCursor c x := { c with eventsCursor := x }
  push d items := { d with events := d.events ++ items }

def commitments : RecordStream IndexedCommitmentRecord where
  list := (·.listCommitments)
  cursor := (·.commitmentsCursor)
  setCursor c x := { c with commitmentsCursor := x }
  push d items := { d with commitments := d.commitments ++ items }

def auditPermissions : RecordStream IndexedAuditPermission where
  list := (·.listAuditPermissions)
  cursor := (·.auditPermissionsCursor)
  setCursor c x := { c with auditPermissionsCursor := x }
  push d items := { d with auditPermissions := d.auditPermissions ++ items }

/-- `checkpoint.companyCursors[id]`. What the copy inherits, the caller's
`companyCursors` does too. -/
def IndexState.entry (id : String) : Option CompanyIndexingCheckpoint :=
  (s.checkpoint.companyCursors.lookup id).or
    (if id ∈ Remediation.inheritedNames then s.callerCursors.lookup id else none)

/-- The checkpoint of the company that the call works on. -/
def IndexState.companyCheckpoint (id : String) : CompanyIndexingCheckpoint :=
  (s.entry id).getD {}

/-- The checkpoint of the company is written to. Where the caller has one, or
inherits one, it is the same object. The entry `__proto__` stands for what the
copy inherits, which is no entry of the copy. -/
def IndexState.writeCompanyCheckpoint (id : String) (c : CompanyIndexingCheckpoint) : IndexState :=
  { s with
    checkpoint := { s.checkpoint with companyCursors := setKey id c s.checkpoint.companyCursors }
    callerCursors :=
      if (s.callerCursors.lookup id).isSome then setKey id c s.callerCursors else s.callerCursors }

variable (reader : ContractStateReader)

/-- One of the five parts of `indexCompany`: it reads the collection from its
cursor, and returns the cursor at which it stopped. -/
def readStream (limit fuel : Nat) (stream : RecordStream α) (id : String) :
    Method IndexFailure IndexState (Option String) := do
  let s ← get
  let read ← readPages (stream.list reader id) limit fuel (stream.cursor (s.companyCheckpoint id))
  modify fun s =>
    { s with domain := stream.push s.domain read.items }.writeCompanyCheckpoint id
      (stream.setCursor (s.companyCheckpoint id) read.nextCursor)
  pure read.nextCursor

/-- `if (nextCursor)`. -/
def isTruthy (cursor : Option String) : Bool := cursor.any (· ≠ "")

def indexCompany (limit fuel : Nat) (company : IndexedCompany) :
    Method IndexFailure IndexState Bool := do
  modify fun s => s.writeCompanyCheckpoint company.id (s.companyCheckpoint company.id)
  let next ← readStream reader limit fuel employees company.id
  if isTruthy next then pure false
  else
    let next ← readStream reader limit fuel payrollRuns company.id
    if isTruthy next then pure false
    else
      let next ← readStream reader limit fuel events company.id
      if isTruthy next then pure false
      else
        let next ← readStream reader limit fuel commitments company.id
        if isTruthy next then pure false
        else
          let next ← readStream reader limit fuel auditPermissions company.id
          modify fun s => s.writeCompanyCheckpoint company.id
            { s.companyCheckpoint company.id with complete := some next.isNone }
          pure next.isNone

/-- A company is marked as complete. -/
def IndexState.completeCompany (id : String) : IndexState :=
  { s with
    checkpoint :=
      { s.checkpoint with
        completedCompanyIds := s.checkpoint.completedCompanyIds ++ [id]
        companyCursors := setKey id { complete := some true } s.checkpoint.companyCursors } }

/-! ## All companies -/

/-- The loop over the companies that were listed; whether it came to its end. -/
def indexCompanies (reader : ContractStateReader) (limit fuel : Nat) :
    List IndexedCompany → Method IndexFailure IndexState Bool
  | [] => pure true
  | company :: companies => do
    let s ← get
    if isBudgetExhausted s.remainingPages then
      modify fun s => { s with checkpoint.activeCompanyId := some company.id, checkpoint.complete := false }
      pure false
    else if s.checkpoint.completedCompanyIds.contains company.id then
      indexCompanies reader limit fuel companies
    else
      let complete ← indexCompany reader limit fuel company
      if complete then
        modify fun s => s.completeCompany company.id
        indexCompanies reader limit fuel companies
      else
        modify fun s => { s with checkpoint.activeCompanyId := some company.id, checkpoint.complete := false }
        pure false

def IndexState.fail (d : IndexerDiagnostic) : IndexState :=
  { s with diagnostics := s.diagnostics ++ [d], checkpoint.complete := false }

def resumeActiveCompany (limit fuel : Nat) (companyId : String) :
    Method IndexFailure IndexState Bool :=
  match reader.getCompany with
  | none => do
    modify fun s => s.fail
      { severity := .fatal_error
        code := .CHECKPOINT_REQUIRES_COMPANY_LOOKUP
        message := "Cannot resume an active company checkpoint because the reader does not implement getCompany()."
        companyId := some companyId }
    pure false
  | some getCompany => do
    let found ← liftM ((getCompany companyId).mapError IndexFailure.rejected)
    match found with
    | none =>
      modify fun s => s.fail
        { severity := .fatal_error
          code := .MISSING_COMPANY_REFERENCE
          message := s!"Cannot resume checkpoint because company {companyId} is no longer readable."
          companyId := some companyId }
      pure false
    | some company =>
      modify fun s => { s with domain.companies := s.domain.companies ++ [company] }
      let complete ← indexCompany reader limit fuel company
      if complete then
        modify fun s => { s.completeCompany company.id with checkpoint.activeCompanyId := none }
        pure true
      else pure false

/-- The companies are listed from the cursor, and indexed. -/
def indexListedCompanies (limit fuel : Nat) (indexedAt : Int) :
    Method IndexFailure IndexState Unit := do
  let s ← get
  let companyPages ← readPages reader.listCompanies limit fuel s.checkpoint.companyCursor
  modify fun s =>
    { s with
      domain.companies := s.domain.companies ++ companyPages.items
      checkpoint.companyCursor := companyPages.nextCursor }
  let done ← indexCompanies reader limit fuel companyPages.items
  if done then
    modify fun s =>
      { s with
        checkpoint.activeCompanyId := none
        checkpoint.complete := s.checkpoint.companyCursor.isNone
        diagnostics := s.diagnostics ++ consistencyDiagnostics s.domain indexedAt }
  else pure ()

def createCheckpoint (input : Option IndexingCheckpoint) (indexedAt : Int) : IndexingCheckpoint where
  companyCursor := input.bind (·.companyCursor)
  activeCompanyId := input.bind (·.activeCompanyId)
  companyCursors := (input.map (·.companyCursors)).getD []
  completedCompanyIds := (input.map (·.completedCompanyIds)).getD []
  complete := false
  updatedAt := indexedAt

/-- The state in which a call begins. -/
def initialState (options : ContractStateIndexerOptions) : IndexState where
  checkpoint := createCheckpoint options.checkpoint options.indexedAt
  remainingPages := options.maxPages
  callerCursors := options.callerEntries

def toResult (indexedAt : Int) : ContractStateIndexResult where
  toIndexedPayrollDomainView := s.domain
  indexedAt := indexedAt
  checkpoint := s.checkpoint
  diagnostics := s.diagnostics

/-- `index`, up to its result. -/
def indexFrom (limit fuel : Nat) (indexedAt : Int) : Method IndexFailure IndexState Unit := do
  let s ← get
  match truthy s.checkpoint.activeCompanyId with
  | none => indexListedCompanies reader limit fuel indexedAt
  | some companyId =>
    let resumed ← resumeActiveCompany reader limit fuel companyId
    if resumed then indexListedCompanies reader limit fuel indexedAt else pure ()

/-- `index`, with the state that it leaves. -/
def index (fuel : Nat) (options : ContractStateIndexerOptions) :
    EStateM.Result IndexFailure IndexState ContractStateIndexResult :=
  let limit := options.pageSize.getD DEFAULT_INDEXER_PAGE_SIZE
  match indexFrom reader limit fuel options.indexedAt (initialState options) with
  | .ok _ s => .ok (toResult s options.indexedAt) s
  | .error e s => .error e s

end ZkPayroll.Indexer
