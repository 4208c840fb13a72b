import Mathlib.Algebra.GroupWithZero.Nat
import ZkPayroll.Framework.Transition
import ZkPayroll.Indexer.ContractStateIndexer

/-!
# Snapshots of a contract

Calls of `index`, each with the checkpoint of the one before, over a reader
whose collections do not change (`Reads`). A page budget that is spent in the
listing before any company is listed is harmless; one that is spent later loses
or repeats records, unless nothing is left to be read (`Sufficient`). As long
as every budget is sufficient, the snapshots hold every company and every
record once when a result is complete (`every_record_once`).
-/

namespace ZkPayroll.Indexer

open Framework ZkPayroll.Core

variable {α : Type} {reader : ContractStateReader} {limit fuel : Nat} {s : IndexState}

/-! ## Pages and the budget -/

/-- The budget allows for so many pages. -/
def CanRead (remainingPages : Option Nat) (pages : Nat) : Prop := ∀ n ∈ remainingPages, pages ≤ n

theorem CanRead.not_exhausted {b : Option Nat} {n : Nat} (h : CanRead b n) (hn : 0 < n) :
    isBudgetExhausted b = false := by
  cases b with
  | none => rfl
  | some m =>
    have := h m rfl
    simp only [isBudgetExhausted, Option.any_some, beq_eq_false_iff_ne]
    omega

theorem CanRead.rest {b : Option Nat} {n m : Nat} (h : CanRead b (n + m)) : CanRead (b.map (· - n)) m := by
  intro l hl
  obtain ⟨k, hk, rfl⟩ := Option.map_eq_some_iff.mp hl
  have := h k hk
  omega

def IndexState.spend (s : IndexState) (pages : Nat) : IndexState :=
  { s with remainingPages := s.remainingPages.map (· - pages) }

theorem spend_spend (s : IndexState) (n m : Nat) : (s.spend n).spend m = s.spend (n + m) := by
  cases h : s.remainingPages <;> simp [IndexState.spend, h, Nat.sub_sub]

variable {read : ContractStatePageRequest → Except SdkError (Page α)} {c : Option String} {ps : List (List α)}

theorem readPages_exhausted (h : isBudgetExhausted s.remainingPages = true) (c : Option String) :
    readPages read limit (fuel + 1) c s = .ok { items := [], nextCursor := c } s := by
  rw [readPages, Method.get_bind, if_pos h]
  rfl

theorem readPages_succ (h : isBudgetExhausted s.remainingPages = false) {items : List α} {next : Option String}
    (hc : read { cursor := c, limit := limit } = .ok { items := items, nextCursor := next }) :
    readPages read limit (fuel + 1) c s =
      match next with
      | none => .ok { items := items } (s.spend 1)
      | some next =>
        (readPages read limit fuel (some next) >>= fun rest =>
          pure { rest with items := items ++ rest.items } : Method _ _ _) (s.spend 1) := by
  have hread : (liftM (readPage read { cursor := c, limit := limit }) : Method IndexFailure IndexState (Page α)) s =
      .ok { items := items, nextCursor := next } s := by
    rw [readPage, hc]
    rfl
  rw [readPages, Method.get_bind, if_neg (by simp [h]), Method.bind_of_ok hread, Method.modify_bind]
  cases next <;> rfl

/-- With a sufficient budget, all pages are read. -/
theorem readPages_all (h : Pages (fun c => read { cursor := c, limit := limit }) c ps) (hf : ps.length ≤ fuel)
    (hb : CanRead s.remainingPages ps.length) :
    readPages read limit fuel c s = .ok { items := ps.flatten } (s.spend ps.length) := by
  induction h generalizing fuel s with
  | @last c items hc =>
    obtain ⟨fuel, rfl⟩ : ∃ f, fuel = f + 1 := ⟨fuel - 1, by simp only [List.length_singleton] at hf; omega⟩
    rw [readPages_succ (hb.not_exhausted (by simp)) hc]
    simp
  | @more c next items ps hc hps ih =>
    rw [List.length_cons] at hf hb
    obtain ⟨fuel, rfl⟩ : ∃ f, fuel = f + 1 := ⟨fuel - 1, by omega⟩
    have hrest : CanRead (s.spend 1).remainingPages ps.length := CanRead.rest (by rwa [Nat.add_comm] at hb)
    rw [readPages_succ (hb.not_exhausted (by omega)) hc]
    simp only
    rw [Method.bind_of_ok (@ih fuel _ (by omega) hrest), spend_spend, Nat.add_comm 1]
    simp [pure, EStateM.pure]

/-- A budget that is spent before the last page stops the reading there. -/
theorem readPages_some (h : Pages (fun c => read { cursor := c, limit := limit }) c ps) (hf : ps.length ≤ fuel)
    {n : Nat} (hb : s.remainingPages = some n) (hn : n < ps.length) :
    ∃ c', readPages read limit fuel c s =
        .ok { items := (ps.take n).flatten, nextCursor := c' } { s with remainingPages := some 0 } ∧
      Pages (fun c => read { cursor := c, limit := limit }) c' (ps.drop n) ∧
      (0 < n ∨ c.isSome = true → c'.isSome = true) := by
  induction n generalizing c ps fuel s with
  | zero =>
    obtain ⟨fuel, rfl⟩ : ∃ f, fuel = f + 1 := ⟨fuel - 1, by omega⟩
    have hs : s = { s with remainingPages := some 0 } := by rw [← hb]
    refine ⟨c, ?_, h, fun hc => hc.resolve_left (lt_irrefl 0)⟩
    rw [readPages_exhausted (by simp [isBudgetExhausted, hb]), ← hs]
    simp
  | succ n ih =>
    cases h with
    | last hc => simp at hn
    | @more _ next items ps hc hps =>
      rw [List.length_cons] at hf hn
      obtain ⟨fuel, rfl⟩ : ∃ f, fuel = f + 1 := ⟨fuel - 1, by omega⟩
      have hspent : (s.spend 1).remainingPages = some n := by simp [IndexState.spend, hb]
      obtain ⟨c', hread, hrest, hsome⟩ := @ih fuel _ _ _ hps (by omega) hspent (by omega)
      refine ⟨c', ?_, hrest, fun _ => hsome (.inr rfl)⟩
      rw [readPages_succ (by simp [isBudgetExhausted, hb]) hc]
      simp only
      rw [Method.bind_of_ok hread]
      rfl

/-! ## The contract -/

/-- The pages of the collections of a company. -/
structure CompanyPages where
  employees : List (List IndexedEmployee)
  payrollRuns : List (List IndexedPayrollRun)
  events : List (List IndexedContractEvent)
  commitments : List (List IndexedCommitmentRecord)
  auditPermissions : List (List IndexedAuditPermission)

/-- What is stored: the pages of companies, and those of each company. -/
structure Contract where
  listing : List (List IndexedCompany)
  pages : String → CompanyPages

/-- The pages of a collection of a company, from the first one on. -/
def StreamPages (reader : ContractStateReader) (limit fuel : Nat) (stream : RecordStream α) (id : String)
    (ps : List (List α)) : Prop :=
  Pages (fun c => stream.list reader id { cursor := c, limit := limit }) none ps ∧ ps.length ≤ fuel

/-- The reader reads the contract, in pages of the given limit; no company is
listed twice, and no collection has more than `fuel` pages. -/
structure Reads (reader : ContractStateReader) (limit fuel : Nat) (contract : Contract) : Prop where
  listing : Pages (fun c => reader.listCompanies { cursor := c, limit := limit }) none contract.listing
  length_le : contract.listing.length ≤ fuel
  nodup : (contract.listing.flatten.map (·.id)).Nodup
  employees (id : String) : StreamPages reader limit fuel employees id (contract.pages id).employees
  payrollRuns (id : String) : StreamPages reader limit fuel payrollRuns id (contract.pages id).payrollRuns
  events (id : String) : StreamPages reader limit fuel events id (contract.pages id).events
  commitments (id : String) : StreamPages reader limit fuel commitments id (contract.pages id).commitments
  auditPermissions (id : String) :
    StreamPages reader limit fuel auditPermissions id (contract.pages id).auditPermissions

/-- The records on the pages. -/
def CompanyPages.records (p : CompanyPages) : IndexedPayrollDomainView where
  employees := p.employees.flatten
  payrollRuns := p.payrollRuns.flatten
  events := p.events.flatten
  commitments := p.commitments.flatten
  auditPermissions := p.auditPermissions.flatten

/-- The records of some companies, company by company. -/
def Contract.records (contract : Contract) : List IndexedCompany → IndexedPayrollDomainView
  | [] => {}
  | company :: companies => (contract.pages company.id).records ++ contract.records companies

/-- Every company and every record of the contract. -/
def Contract.all (contract : Contract) : IndexedPayrollDomainView :=
  { companies := contract.listing.flatten } ++ contract.records contract.listing.flatten

/-- For each collection its number of pages, and whether it has no record. -/
def CompanyPages.shape (p : CompanyPages) : List (Nat × Bool) :=
  [(p.employees.length, p.employees.flatten.isEmpty),
    (p.payrollRuns.length, p.payrollRuns.flatten.isEmpty),
    (p.events.length, p.events.flatten.isEmpty),
    (p.commitments.length, p.commitments.flatten.isEmpty),
    (p.auditPermissions.length, p.auditPermissions.flatten.isEmpty)]

/-- How many pages there are. -/
def pageCount (shape : List (Nat × Bool)) : Nat := (shape.map Prod.fst).sum

/-! ## Sufficient budgets -/

/-- The budget allows for all pages of the collections, or is spent at the end
of one after which there are no more records. -/
def ReadsStreams : Option Nat → List (Nat × Bool) → Prop
  | _, [] => True
  | b, (pages, isEmpty) :: shape =>
    (if isBudgetExhausted b then isEmpty = true else CanRead b pages) ∧ ReadsStreams (b.map (· - pages)) shape

/-- The budget allows for the companies: it is not spent before one is begun,
and allows for the collections of each. None has the name of a property that
every object inherits. -/
def ReadsCompanies (contract : Contract) : Option Nat → List IndexedCompany → Prop
  | _, [] => True
  | b, company :: companies =>
    let shape := (contract.pages company.id).shape
    company.id ∉ Remediation.inheritedNames ∧ isBudgetExhausted b = false ∧ ReadsStreams b shape ∧
      ReadsCompanies contract (b.map (· - pageCount shape)) companies

/-- The budget of a call that has the pages `ps` of the listing before it is
enough for what is left, or is spent in the listing before a company is listed. -/
def Sufficient (contract : Contract) (maxPages : Option Nat) (ps : List (List IndexedCompany)) : Prop :=
  CanRead maxPages ps.length ∧ ReadsCompanies contract (maxPages.map (· - ps.length)) ps.flatten ∨
    ∃ n, maxPages = some n ∧ 0 < n ∧ n < ps.length ∧ (ps.take n).flatten = []

/-! ## One company -/

/-- What the work on a company leaves as it is. -/
structure Frame (id : String) (s s' : IndexState) : Prop where
  companyCursor : s'.checkpoint.companyCursor = s.checkpoint.companyCursor
  completed : s'.checkpoint.completedCompanyIds = s.checkpoint.completedCompanyIds
  others {j : String} : j ≠ id → s'.checkpoint.companyCursors.lookup j = s.checkpoint.companyCursors.lookup j

theorem Frame.trans {id : String} {s s₁ s₂ : IndexState} (h : Frame id s s₁) (h' : Frame id s₁ s₂) :
    Frame id s s₂ where
  companyCursor := h'.companyCursor.trans h.companyCursor
  completed := h'.completed.trans h.completed
  others hj := (h'.others hj).trans (h.others hj)

theorem frame_write {s s₁ : IndexState} (h : s₁.checkpoint = s.checkpoint) (id : String)
    (c : CompanyIndexingCheckpoint) : Frame id s (s₁.writeCompanyCheckpoint id c) where
  companyCursor := by rw [← h]; rfl
  completed := by rw [← h]; rfl
  others hj := by simp [IndexState.writeCompanyCheckpoint, hj, h]

@[simp] theorem companyCheckpoint_write (s : IndexState) (id : String) (c : CompanyIndexingCheckpoint) :
    (s.writeCompanyCheckpoint id c).companyCheckpoint id = c := by
  simp [IndexState.writeCompanyCheckpoint, IndexState.companyCheckpoint, IndexState.entry]

/-- A collection is read to its end, or has nothing to be read. -/
theorem readStream_all {stream : RecordStream α} {id : String} {ps : List (List α)}
    (hps : StreamPages reader limit fuel stream id ps) (hcursor : stream.cursor {} = none)
    (hset : stream.setCursor {} none = {}) (hs : s.companyCheckpoint id = {})
    (hb : if isBudgetExhausted s.remainingPages then ps.flatten.isEmpty = true
      else CanRead s.remainingPages ps.length) :
    ∃ s', readStream reader limit fuel stream id s = .ok none s' ∧ s'.companyCheckpoint id = {} ∧
      s'.domain = stream.push s.domain ps.flatten ∧ s'.remainingPages = s.remainingPages.map (· - ps.length) ∧
      Frame id s s' := by
  have hread : readPages (stream.list reader id) limit fuel (stream.cursor (s.companyCheckpoint id)) s =
      .ok { items := ps.flatten } (s.spend ps.length) := by
    rw [hs, hcursor]
    split at hb
    · rename_i hex
      -- nothing is read, and there is nothing
      obtain ⟨m, hm⟩ : ∃ m, s.remainingPages = some m := by
        cases h : s.remainingPages with
        | none => simp [isBudgetExhausted, h] at hex
        | some m => exact ⟨m, rfl⟩
      obtain rfl : m = 0 := by simpa [isBudgetExhausted, hm] using hex
      obtain ⟨fuel, rfl⟩ : ∃ f, fuel = f + 1 := ⟨fuel - 1, by have := hps.1.length_pos; have := hps.2; omega⟩
      have hleft : s.remainingPages.map (· - ps.length) = s.remainingPages := by simp [hm]
      have hspend : s.spend ps.length = s := by rw [IndexState.spend, hleft]
      rw [readPages_exhausted hex, hspend, List.isEmpty_iff.mp hb]
    · exact readPages_all hps.1 hps.2 hb
  refine ⟨{ s.spend ps.length with domain := stream.push s.domain ps.flatten }.writeCompanyCheckpoint id {},
    ?_, by simp, rfl, rfl, frame_write (by rfl) _ _⟩
  rw [readStream, Method.get_bind, Method.bind_of_ok hread, Method.modify_bind]
  have hcheck : (s.spend ps.length).companyCheckpoint id = {} := hs
  simp only [hcheck, hset]
  rfl

variable {contract : Contract}

/-- A company that was not begun is indexed as a whole. -/
theorem indexCompany_all (h : Reads reader limit fuel contract) {company : IndexedCompany}
    (hid : company.id ∉ Remediation.inheritedNames) (hs : s.checkpoint.companyCursors.lookup company.id = none)
    (hb : ReadsStreams s.remainingPages (contract.pages company.id).shape) :
    ∃ s', indexCompany reader limit fuel company s = .ok true s' ∧
      s'.domain = s.domain ++ (contract.pages company.id).records ∧
      s'.remainingPages = s.remainingPages.map (· - pageCount (contract.pages company.id).shape) ∧
      Frame company.id s s' := by
  have h₀ : s.companyCheckpoint company.id = {} := by
    rw [IndexState.companyCheckpoint, IndexState.entry, hs, if_neg hid]
    rfl
  obtain ⟨hb₁, hb₂, hb₃, hb₄, hb₅, -⟩ := hb
  let s₀ := s.writeCompanyCheckpoint company.id {}
  obtain ⟨s₁, hr₁, hc₁, hd₁, hp₁, hf₁⟩ := readStream_all (s := s₀) (h.employees company.id) rfl rfl (by simp [s₀]) hb₁
  obtain ⟨s₂, hr₂, hc₂, hd₂, hp₂, hf₂⟩ := readStream_all (h.payrollRuns company.id) rfl rfl hc₁ (hp₁ ▸ hb₂)
  rw [hp₁] at hp₂
  obtain ⟨s₃, hr₃, hc₃, hd₃, hp₃, hf₃⟩ := readStream_all (h.events company.id) rfl rfl hc₂ (hp₂ ▸ hb₃)
  rw [hp₂] at hp₃
  obtain ⟨s₄, hr₄, hc₄, hd₄, hp₄, hf₄⟩ := readStream_all (h.commitments company.id) rfl rfl hc₃ (hp₃ ▸ hb₄)
  rw [hp₃] at hp₄
  obtain ⟨s₅, hr₅, hc₅, hd₅, hp₅, hf₅⟩ :=
    readStream_all (h.auditPermissions company.id) rfl rfl hc₄ (hp₄ ▸ hb₅)
  rw [hp₄] at hp₅
  have hframe := ((((frame_write rfl _ _).trans hf₁).trans hf₂).trans hf₃).trans (hf₄.trans hf₅)
  refine ⟨s₅.writeCompanyCheckpoint company.id { s₅.companyCheckpoint company.id with complete := some true },
    ?_, ?_, ?_, hframe.trans (frame_write rfl _ _)⟩
  · rw [indexCompany, Method.modify_bind, h₀, Method.bind_of_ok hr₁, if_neg (by simp [isTruthy]),
      Method.bind_of_ok hr₂, if_neg (by simp [isTruthy]), Method.bind_of_ok hr₃, if_neg (by simp [isTruthy]),
      Method.bind_of_ok hr₄, if_neg (by simp [isTruthy]), Method.bind_of_ok hr₅, Method.modify_bind]
    rfl
  · change s₅.domain = _
    rw [hd₅, hd₄, hd₃, hd₂, hd₁]
    simp [IndexedPayrollDomainView.append_def, CompanyPages.records, employees, payrollRuns, events,
      commitments, auditPermissions, s₀, IndexState.writeCompanyCheckpoint]
  · change s₅.remainingPages = _
    rw [hp₅]
    cases hr : s.remainingPages <;>
      simp [s₀, IndexState.writeCompanyCheckpoint, pageCount, CompanyPages.shape, hr, Nat.sub_sub, Nat.add_assoc]

/-! ## One call -/

theorem indexCompanies_all {contract : Contract} (h : Reads reader limit fuel contract) :
    ∀ (companies : List IndexedCompany) (s : IndexState), (companies.map (·.id)).Nodup →
      (∀ company ∈ companies, s.checkpoint.companyCursors.lookup company.id = none ∧
        company.id ∉ s.checkpoint.completedCompanyIds) →
      ReadsCompanies contract s.remainingPages companies →
      ∃ s', indexCompanies reader limit fuel companies s = .ok true s' ∧
        s'.domain = s.domain ++ contract.records companies ∧
        s'.checkpoint.companyCursor = s.checkpoint.companyCursor
  | [], s, _, _, _ => ⟨s, rfl, by simp [Contract.records], rfl⟩
  | company :: companies, s, hnodup, hfresh, hb => by
    obtain ⟨hid, hex, hstreams, hrest⟩ := hb
    obtain ⟨hlookup, hnot⟩ := hfresh company List.mem_cons_self
    obtain ⟨hne, hnodup⟩ := List.nodup_cons.mp hnodup
    obtain ⟨s₁, hr, hd, hp, hf⟩ := indexCompany_all h hid hlookup hstreams
    have hfresh₁ : ∀ c ∈ companies, (s₁.completeCompany company.id).checkpoint.companyCursors.lookup c.id = none ∧
        c.id ∉ (s₁.completeCompany company.id).checkpoint.completedCompanyIds := by
      intro c hc
      obtain ⟨hl, hn⟩ := hfresh c (List.mem_cons_of_mem _ hc)
      have hid : c.id ≠ company.id := fun he => hne (List.mem_map.mpr ⟨c, hc, he⟩)
      simp [IndexState.completeCompany, hid, hf.others hid, hf.completed, hl, hn]
    obtain ⟨s', hr', hd', hc'⟩ := indexCompanies_all h companies (s₁.completeCompany company.id) hnodup hfresh₁
      (by change ReadsCompanies contract s₁.remainingPages companies; rw [hp]; exact hrest)
    refine ⟨s', ?_, ?_, hc'.trans hf.companyCursor⟩
    · rw [indexCompanies, Method.get_bind, if_neg (by simp [hex]), if_neg (by simpa using hnot),
        Method.bind_of_ok hr, if_pos rfl, Method.modify_bind]
      exact hr'
    · rw [hd', Contract.records]
      change s₁.domain ++ _ = _
      rw [hd, IndexedPayrollDomainView.append_assoc]

/-- No company has been begun. -/
structure Fresh (c : IndexingCheckpoint) : Prop where
  activeCompanyId : c.activeCompanyId = none
  companyCursors : c.companyCursors = []
  completedCompanyIds : c.completedCompanyIds = []

/-- A call that is enough for what is left. -/
theorem indexListedCompanies_all (h : Reads reader limit fuel contract)
    (hfresh : Fresh s.checkpoint) (hdomain : s.domain = {}) {ps : List (List IndexedCompany)}
    (hps : Pages (fun c => reader.listCompanies { cursor := c, limit := limit }) s.checkpoint.companyCursor ps)
    (hf : ps.length ≤ fuel) (hnodup : (ps.flatten.map (·.id)).Nodup)
    (hb : CanRead s.remainingPages ps.length)
    (hc : ReadsCompanies contract (s.remainingPages.map (· - ps.length)) ps.flatten) (indexedAt : Int) :
    ∃ s', indexListedCompanies reader limit fuel indexedAt s = .ok () s' ∧ s'.checkpoint.complete = true ∧
      s'.domain = { companies := ps.flatten } ++ contract.records ps.flatten := by
  let s₁ : IndexState := { s.spend ps.length with
    domain.companies := s.domain.companies ++ ps.flatten
    checkpoint.companyCursor := none }
  obtain ⟨s₂, hr, hd, hcursor⟩ := indexCompanies_all h ps.flatten s₁ hnodup
    (fun company _ => by simp [s₁, IndexState.spend, hfresh.companyCursors, hfresh.completedCompanyIds]) hc
  refine ⟨{ s₂ with
    checkpoint.activeCompanyId := none
    checkpoint.complete := s₂.checkpoint.companyCursor.isNone
    diagnostics := s₂.diagnostics ++ consistencyDiagnostics s₂.domain indexedAt }, ?_, ?_, ?_⟩
  · rw [indexListedCompanies, Method.get_bind, Method.bind_of_ok (readPages_all hps hf hb), Method.modify_bind]
    exact (Method.bind_of_ok hr).trans rfl
  · simp [hcursor, s₁]
  · change s₂.domain = _
    rw [hd]
    simp [s₁, IndexState.spend, hdomain]

/-- A call whose budget is spent in the listing, before a company is listed. -/
theorem indexListedCompanies_none (hfresh : Fresh s.checkpoint) (hdomain : s.domain = {})
    {ps : List (List IndexedCompany)}
    (hps : Pages (fun c => reader.listCompanies { cursor := c, limit := limit }) s.checkpoint.companyCursor ps)
    (hf : ps.length ≤ fuel) {n : Nat} (hb : s.remainingPages = some n) (hpos : 0 < n) (hn : n < ps.length)
    (hempty : (ps.take n).flatten = []) (indexedAt : Int) :
    ∃ s', indexListedCompanies reader limit fuel indexedAt s = .ok () s' ∧ s'.checkpoint.complete = false ∧
      s'.domain = {} ∧ Fresh s'.checkpoint ∧
      Pages (fun c => reader.listCompanies { cursor := c, limit := limit }) s'.checkpoint.companyCursor
        (ps.drop n) := by
  obtain ⟨c', hread, hrest, hsome⟩ := readPages_some hps hf hb hn
  rw [hempty] at hread
  let s₁ : IndexState := { s with
    remainingPages := some 0
    checkpoint := { s.checkpoint with activeCompanyId := none, companyCursor := c', complete := c'.isNone }
    diagnostics := s.diagnostics ++ consistencyDiagnostics {} indexedAt }
  refine ⟨s₁, ?_, ?_, hdomain, ⟨rfl, hfresh.companyCursors, hfresh.completedCompanyIds⟩, hrest⟩
  · obtain ⟨checkpoint, domain, remainingPages, diagnostics, callerCursors⟩ := s
    obtain rfl : domain = {} := hdomain
    rw [indexListedCompanies, Method.get_bind, Method.bind_of_ok hread]
    rfl
  · simpa [s₁] using hsome (.inl hpos)

/-! ## Runs -/

variable (results : List ContractStateIndexResult)

/-- The checkpoint that the results so far end in. -/
def lastCheckpoint : Option IndexingCheckpoint :=
  results.getLast?.map (·.checkpoint)

/-- The last checkpoint is complete. -/
def isComplete : Bool :=
  (lastCheckpoint results).any (·.complete)

/-- What the snapshots hold together. -/
def snapshots : IndexedPayrollDomainView :=
  results.foldr (fun result d => result.toIndexedPayrollDomainView ++ d) {}

/-- A further call of `index`, while no result is complete. -/
def NextCall (reader : ContractStateReader) (limit fuel : Nat) (maxPages : Option Nat)
    (results results' : List ContractStateIndexResult) : Prop :=
  isComplete results = false ∧ ∃ indexedAt inherited result s,
    index reader fuel
      { pageSize := some limit
        maxPages := maxPages
        indexedAt := indexedAt
        checkpoint := lastCheckpoint results
        inherited := inherited } = .ok result s ∧
    results' = results ++ [result]

/-- The budget is sufficient from where the listing is to go on. -/
def Enough (reader : ContractStateReader) (limit : Nat) (contract : Contract)
    (results : List ContractStateIndexResult) (maxPages : Option Nat) : Prop :=
  ∃ ps, Pages (fun c => reader.listCompanies { cursor := c, limit := limit })
    ((lastCheckpoint results).bind (·.companyCursor)) ps ∧ Sufficient contract maxPages ps

/-- The results of calls whose budgets were all sufficient. -/
abbrev ReachableResults (reader : ContractStateReader) (limit fuel : Nat) (contract : Contract)
    (results : List ContractStateIndexResult) : Prop :=
  Reachable (· = []) (fun results results' => ∃ maxPages, Enough reader limit contract results maxPages ∧
    NextCall reader limit fuel maxPages results results') results

theorem snapshots_concat (result : ContractStateIndexResult) :
    snapshots (results ++ [result]) = snapshots results ++ result.toIndexedPayrollDomainView := by
  induction results with
  | nil => simp [snapshots]
  | cons r results ih =>
    change r.toIndexedPayrollDomainView ++ snapshots (results ++ [result]) = _
    rw [ih, ← IndexedPayrollDomainView.append_assoc]
    rfl

@[simp] theorem lastCheckpoint_concat (result : ContractStateIndexResult)
    : lastCheckpoint (results ++ [result]) = some result.checkpoint := by
  simp [lastCheckpoint]

/-- What holds while no result is complete: some empty pages of the listing
were read, at least one by each call. -/
structure InListing (reader : ContractStateReader) (limit : Nat) (contract : Contract)
    (results : List ContractStateIndexResult) : Prop where
  incomplete : isComplete results = false
  fresh (c : IndexingCheckpoint) : c ∈ lastCheckpoint results → Fresh c
  empty : snapshots results = {}
  position : ∃ n, results.length ≤ n ∧ n < contract.listing.length ∧
    (contract.listing.take n).flatten = [] ∧
    Pages (fun c => reader.listCompanies { cursor := c, limit := limit })
      ((lastCheckpoint results).bind (·.companyCursor)) (contract.listing.drop n)

theorem index_eq (options : ContractStateIndexerOptions) (hlimit : options.pageSize = some limit)
    (hactive : (initialState options).checkpoint.activeCompanyId = none) {s' : IndexState}
    (h : indexListedCompanies reader limit fuel options.indexedAt (initialState options) = .ok () s') :
    index reader fuel options = .ok (toResult s' options.indexedAt) s' := by
  have hfrom : indexFrom reader limit fuel options.indexedAt (initialState options) = .ok () s' := by
    rw [indexFrom, Method.get_bind, hactive]
    exact h
  simp only [index, hlimit, Option.getD_some, hfrom]

/-- What one call with a sufficient budget does. -/
theorem InListing.next (h : Reads reader limit fuel contract)
    {results : List ContractStateIndexResult} (hin : InListing reader limit contract results)
    {maxPages : Option Nat} (hb : Enough reader limit contract results maxPages) (indexedAt : Int)
    (inherited : String → CompanyIndexingCheckpoint) :
    ∃ result s, index reader fuel
        { pageSize := some limit
          maxPages := maxPages
          indexedAt := indexedAt
          checkpoint := lastCheckpoint results
          inherited := inherited } = .ok result s ∧
      ((isComplete (results ++ [result]) = true ∧ snapshots (results ++ [result]) = contract.all) ∨
        InListing reader limit contract (results ++ [result])) := by
  obtain ⟨n, hlen, hn, hempty, hpages⟩ := hin.position
  obtain ⟨ps, hps, hsuff⟩ := hb
  obtain rfl := hpages.unique hps
  let options : ContractStateIndexerOptions :=
    { pageSize := some limit
      maxPages := maxPages
      indexedAt := indexedAt
      checkpoint := lastCheckpoint results
      inherited := inherited }
  have hfresh : Fresh (initialState options).checkpoint := by
    cases hl : lastCheckpoint results with
    | none => constructor <;> simp [initialState, createCheckpoint, options, hl]
    | some c =>
      obtain ⟨h₁, h₂, h₃⟩ := hin.fresh c hl
      constructor <;> simp [initialState, createCheckpoint, options, hl, h₁, h₂, h₃]
  have hall : contract.listing.flatten = (contract.listing.drop n).flatten := by
    conv_lhs => rw [← List.take_append_drop n contract.listing]
    rw [List.flatten_append, hempty, List.nil_append]
  have hfuel : (contract.listing.drop n).length ≤ fuel := by
    have := h.length_le
    rw [List.length_drop]
    omega
  rcases hsuff with ⟨hcan, hcomp⟩ | ⟨m, hm, hpos, hlt, hnone⟩
  · obtain ⟨s', hr, hc, hd⟩ := indexListedCompanies_all h hfresh rfl hps hfuel (hall ▸ h.nodup) hcan hcomp
      indexedAt
    refine ⟨_, s', index_eq options rfl hfresh.activeCompanyId hr, .inl ⟨?_, ?_⟩⟩
    · simpa [isComplete, toResult] using hc
    · rw [snapshots_concat, hin.empty, IndexedPayrollDomainView.empty_append, Contract.all, hall]
      exact hd
  · obtain ⟨s', hr, hc, hd, hf', hrest⟩ := indexListedCompanies_none hfresh rfl hps hfuel hm hpos hlt hnone
      indexedAt
    refine ⟨_, s', index_eq options rfl hfresh.activeCompanyId hr, .inr ⟨?_, ?_, ?_, n + m, ?_⟩⟩
    · simpa [isComplete, toResult] using hc
    · intro c hc
      rw [lastCheckpoint_concat] at hc
      obtain rfl := Option.mem_some.mp hc
      exact hf'
    · rw [snapshots_concat, hin.empty, IndexedPayrollDomainView.empty_append]
      exact hd
    · rw [List.length_drop] at hlt
      refine ⟨by rw [List.length_append, List.length_singleton]; omega, by omega, ?_, ?_⟩
      · rw [List.take_add, List.flatten_append, hempty, hnone, List.append_nil]
      · rw [lastCheckpoint_concat, ← List.drop_drop]
        exact hrest

/-- The snapshots hold every company and every record once when a result is
complete, which comes after no more calls than the listing has pages. -/
theorem every_record_once {contract : Contract} (h : Reads reader limit fuel contract)
    {results : List ContractStateIndexResult} (hr : ReachableResults reader limit fuel contract results) :
    (isComplete results = true → snapshots results = contract.all) ∧
    (isComplete results = false → results.length < contract.listing.length ∧
      ∀ maxPages, Enough reader limit contract results maxPages →
        ∃ results', NextCall reader limit fuel maxPages results results') := by
  have hinv : (isComplete results = true ∧ snapshots results = contract.all) ∨
      InListing reader limit contract results := by
    refine Reachable.invariant (I := fun results =>
      (isComplete results = true ∧ snapshots results = contract.all) ∨ InListing reader limit contract results)
      (fun results hinit => ?_) (fun results results' hI hstep => ?_) hr
    · subst hinit
      exact .inr ⟨rfl, nofun, rfl, 0, le_rfl, h.listing.length_pos, rfl, h.listing⟩
    · obtain ⟨maxPages, hb, hinc, indexedAt, inherited, result, s, hidx, rfl⟩ := hstep
      rcases hI with ⟨hc, -⟩ | hin
      · rw [hinc] at hc
        cases hc
      · obtain ⟨result', s', hidx', hcase⟩ := hin.next h hb indexedAt inherited
        obtain rfl : result = result' := by injection hidx.symm.trans hidx'
        exact hcase
  rcases hinv with ⟨hc, hall⟩ | hin
  · exact ⟨fun _ => hall, fun hi => by rw [hc] at hi; cases hi⟩
  · refine ⟨fun hc => ?_, fun _ => ⟨?_, fun maxPages hb => ?_⟩⟩
    · rw [hin.incomplete] at hc
      cases hc
    · obtain ⟨n, hlen, hn, -⟩ := hin.position
      omega
    · obtain ⟨result, s, hidx, -⟩ := hin.next h hb 0 fun _ => {}
      exact ⟨_, hin.incomplete, 0, _, result, s, hidx, rfl⟩

/-- A company with one employee and one payroll run, on the second page of the
listing. -/
def acmeContract : Contract where
  listing := [[], [{ id := "acme" }]]
  pages _ :=
    { employees := [[{ id := "ann", companyId := "acme" }]]
      payrollRuns := [[{ id := "run-1", companyId := "acme", employeeIds := ["ann"] }]]
      events := [[]]
      commitments := [[]]
      auditPermissions := [[]] }

/-- A reader of it. -/
def acmeReader : ContractStateReader where
  getCompany := some fun id => .ok (if id = "acme" then some { id := "acme" } else none)
  listCompanies request :=
    match request.cursor with
    | none => .ok { items := [], nextCursor := some "1" }
    | some _ => .ok { items := [{ id := "acme" }] }
  listEmployees _ _ := .ok { items := [{ id := "ann", companyId := "acme" }] }
  listPayrollRuns _ _ := .ok { items := [{ id := "run-1", companyId := "acme", employeeIds := ["ann"] }] }
  listContractEvents _ _ := .ok { items := [] }
  listCommitments _ _ := .ok { items := [] }
  listAuditPermissions _ _ := .ok { items := [] }

theorem reads_acme : Reads acmeReader 50 10 acmeContract where
  listing := .more rfl (.last rfl)
  length_le := by decide
  nodup := by decide
  employees _ := ⟨.last rfl, by simp [acmeContract]⟩
  payrollRuns _ := ⟨.last rfl, by simp [acmeContract]⟩
  events _ := ⟨.last rfl, by simp [acmeContract]⟩
  commitments _ := ⟨.last rfl, by simp [acmeContract]⟩
  auditPermissions _ := ⟨.last rfl, by simp [acmeContract]⟩

/-- One page, which lists no company, and then the three pages that hold
something: the two snapshots are complete. -/
theorem acme_in_two_calls :
    ∃ r₁ r₂ : ContractStateIndexResult, isComplete [r₁] = false ∧ isComplete [r₁, r₂] = true ∧
      snapshots [r₁, r₂] = acmeContract.all := by
  have h₀ : ReachableResults acmeReader 50 10 acmeContract [] := Reachable.start rfl
  have h₁ := Reachable.next h₀ ⟨some 1, ⟨_, reads_acme.listing, .inr ⟨1, rfl, by decide, by decide, rfl⟩⟩,
    rfl, 0, fun _ => {}, _, _, rfl, rfl⟩
  have h₂ := Reachable.next h₁ ⟨some 3, ⟨_, .last rfl, .inl ⟨?_, ?_⟩⟩, rfl, 0, fun _ => {}, _, _, rfl, rfl⟩
  · exact ⟨_, _, rfl, rfl, (every_record_once reads_acme h₂).1 rfl⟩
  · intro n hn
    obtain rfl := Option.mem_some.mp hn
    decide
  · refine ⟨by decide, rfl, ⟨?_, ?_, rfl, rfl, rfl, trivial⟩, trivial⟩
    · intro n hn
      obtain rfl := Option.mem_some.mp hn
      decide
    · intro n hn
      obtain rfl := Option.mem_some.mp hn
      decide

/-- The budget is spent at the end of the employees: the payroll run is never
read, and the result is complete. -/
theorem acme_complete_without_run :
    ∃ r : ContractStateIndexResult, (∃ s, index acmeReader 10 { pageSize := some 50, maxPages := some 3 } = .ok r s) ∧
      isComplete [r] = true ∧ (snapshots [r]).payrollRuns = [] ∧ acmeContract.all.payrollRuns ≠ [] :=
  ⟨_, ⟨_, rfl⟩, rfl, rfl, by decide⟩

end ZkPayroll.Indexer
