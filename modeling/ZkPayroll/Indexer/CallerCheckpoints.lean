import ZkPayroll.Indexer.RejectedCalls
import ZkPayroll.Indexer.RetriedCalls

/-!
# What a rejected call leaves of the caller's checkpoint

The companies that a call visits before it rejects are those that the checkpoint,
the budget and the pages of the reader say (`Interrupted`), and the checkpoint is
left as their visits leave it (`rejects_index`). It is as it was, and the call can
be made again, if and only if no visit has anything to write
(`keptOnRejection_iff`). Under the name of a property that every object inherits,
what is inherited is the entry of the caller's checkpoint.
-/

namespace ZkPayroll.Indexer

open Framework ZkPayroll.Core

variable {α β : Type} {reader : ContractStateReader} {limit fuel : Nat} {s : IndexState}
  {cs : List (String × CompanyIndexingCheckpoint)}

/-! ## All companies -/

/-- What a call leaves of the caller's checkpoints after visits of companies,
each with the number of collections that were read to their ends. -/
def leaveAll (visits : List (String × Nat)) (cs : List (String × CompanyIndexingCheckpoint)) :
    List (String × CompanyIndexingCheckpoint) :=
  visits.foldl (fun cs v => leave v.1 (finished v.2) cs) cs

section Fails

variable (reader : ContractStateReader) (limit fuel : Nat) (entries : List (String × CompanyIndexingCheckpoint))

/-- The collections of a company, read from where its checkpoint says. -/
def companyReadings (id : String) : List Reading :=
  readings reader limit fuel id ((entries.lookup id).getD {}) collections

/-- A collection of the company fails, or what is next does. -/
def CompanyFails (id : String) (next : Option Nat → List (String × Nat) → Prop) (b : Option Nat)
    (visits : List (String × Nat)) : Prop :=
  (∃ k, FailsAt (companyReadings reader limit fuel entries id) b k ∧ visits = [(id, k)]) ∨
    ∃ n rest, EndsAfter (companyReadings reader limit fuel entries id) n ∧ next (b.map (· - n)) rest ∧
      visits = (id, 5) :: rest

/-- One of the companies fails; those that are complete are left out. -/
def CompaniesFail : List IndexedCompany → List String → Option Nat → List (String × Nat) → Prop
  | [], _, _, _ => False
  | company :: companies, completed, b, visits =>
    if company.id ∈ completed then CompaniesFail companies completed b visits
    else
      CompanyFails reader limit fuel entries company.id (CompaniesFail companies (completed ++ [company.id])) b visits

/-- The listing fails, or one of the companies listed. -/
def ListingFails (cursor : Option String) (completed : List String) (b : Option Nat) (visits : List (String × Nat)) :
    Prop :=
  (∃ n, PagesUntil (pageAt reader.listCompanies limit) cursor n ∧ n < fuel ∧ CanRead b (n + 1) ∧ visits = []) ∨
    ∃ ps, Pages (pageAt reader.listCompanies limit) cursor ps ∧ ps.length ≤ fuel ∧
      CompaniesFail reader limit fuel entries ps.flatten completed (b.map (· - ps.length)) visits

/-- The lookup of the company that the checkpoint names fails, or one of its
collections, or the listing. -/
def ResumeFails (companyId : String) (cursor : Option String) (completed : List String) (b : Option Nat)
    (visits : List (String × Nat)) : Prop :=
  match reader.getCompany with
  | none => False
  | some getCompany =>
    match getCompany companyId with
    | .error _ => visits = []
    | .ok none => False
    | .ok (some company) =>
      CompanyFails reader limit fuel entries company.id
        (ListingFails reader limit fuel entries cursor (completed ++ [company.id])) b visits

end Fails

section Companies

variable {entries : List (String × CompanyIndexingCheckpoint)}

/-- Indexing a company rejects as its collections say. -/
theorem rejects_company {company : IndexedCompany} {f : Bool → Method IndexFailure IndexState β}
    {next : Option Nat → List (String × Nat) → Prop} (hf : ∀ b, NeedsBudget (f b)) (hs : Shares company.id s)
    (hentry : s.companyCheckpoint company.id = (entries.lookup company.id).getD {})
    (hnext : ∀ n s', After company.id (finished 5) n s s' →
      (Rejects (f true) s' cs ↔ ∃ rest, next s'.remainingPages rest ∧ cs = leaveAll rest s'.callerCursors)) :
    Rejects (indexCompany reader limit fuel company >>= f) s cs ↔
      ∃ visits, CompanyFails reader limit fuel entries company.id next s.remainingPages visits ∧
        cs = leaveAll visits s.callerCursors := by
  constructor
  · intro h
    rcases of_rejects_indexCompany_bind hf hs h with ⟨k, hk, rfl⟩ | ⟨n, s', hn, hafter, hrest⟩
    · rw [hentry] at hk
      exact ⟨[(company.id, k)], .inl ⟨k, hk, rfl⟩, rfl⟩
    · rw [hentry] at hn
      obtain ⟨rest, hfails, rfl⟩ := (hnext n s' hafter).mp hrest
      rw [hafter.budget] at hfails
      refine ⟨(company.id, 5) :: rest, .inr ⟨n, rest, hn, hfails, rfl⟩, ?_⟩
      rw [hafter.caller]
      rfl
  · rintro ⟨visits, ⟨k, hk, rfl⟩ | ⟨n, rest, hn, hrest, rfl⟩, rfl⟩
    · rw [companyReadings, ← hentry] at hk
      exact rejects_indexCompany_of_failsAt hf hs hk
    · rw [companyReadings, ← hentry] at hn
      refine rejects_indexCompany_of_endsAfter hf hs hn fun s' hafter => ?_
      refine (hnext n s' hafter).mpr ⟨rest, ?_, ?_⟩
      · rw [hafter.budget]
        exact hrest
      · rw [hafter.caller]
        rfl

theorem not_exhausted_of_rest {b : Option Nat} {n : Nat} (h : isBudgetExhausted (b.map (· - n)) = false) :
    isBudgetExhausted b = false := by
  cases b with
  | none => rfl
  | some m =>
    simp only [Option.map_some, isBudgetExhausted, Option.any_some, beq_eq_false_iff_ne] at h ⊢
    omega

theorem not_exhausted_of_failsAt : ∀ {rs : List Reading} {b : Option Nat} {k : Nat}, FailsAt rs b k →
    isBudgetExhausted b = false
  | _ :: _, _, 0, ⟨_, _, hb⟩ => hb.not_exhausted (by omega)
  | _ :: _, _, _ + 1, ⟨_, _, h⟩ => not_exhausted_of_rest (not_exhausted_of_failsAt h)

/-- Companies fail while the budget lasts. -/
theorem not_exhausted_of_companiesFail : ∀ {companies : List IndexedCompany} {completed : List String}
    {b : Option Nat} {visits : List (String × Nat)},
    CompaniesFail reader limit fuel entries companies completed b visits → isBudgetExhausted b = false
  | company :: companies, completed, b, visits, h => by
    rw [CompaniesFail] at h
    split at h
    · exact not_exhausted_of_companiesFail h
    · rcases h with ⟨k, hk, -⟩ | ⟨n, rest, -, hrest, -⟩
      · exact not_exhausted_of_failsAt hk
      · exact not_exhausted_of_rest (not_exhausted_of_companiesFail hrest)

/-- Of the companies that are not complete, both checkpoints are as they were. -/
def Unvisited (entries : List (String × CompanyIndexingCheckpoint)) (s : IndexState) : Prop :=
  ∀ id ∉ s.checkpoint.completedCompanyIds,
    s.entry id = entries.lookup id ∧ s.callerCursors.lookup id = entries.lookup id

theorem Unvisited.shares (hs : Unvisited entries s) {id : String} (hid : id ∉ s.checkpoint.completedCompanyIds) :
    Shares id s := by
  intro c hc
  obtain ⟨hcopy, hcaller⟩ := hs id hid
  rw [hcopy, ← hcaller, hc]

theorem Unvisited.companyCheckpoint (hs : Unvisited entries s) {id : String}
    (hid : id ∉ s.checkpoint.completedCompanyIds) : s.companyCheckpoint id = (entries.lookup id).getD {} := by
  rw [IndexState.companyCheckpoint, (hs id hid).1]

/-- A company that is complete is one of those that may have changed. -/
theorem unvisited_completeCompany {id : String} {n : Nat} {s' : IndexState} (hafter : After id (finished 5) n s s')
    (hs : ∀ j ∉ s.checkpoint.completedCompanyIds ++ [id],
      s.entry j = entries.lookup j ∧ s.callerCursors.lookup j = entries.lookup j) :
    Unvisited entries (s'.completeCompany id) := by
  intro j hj
  have hids : (s'.completeCompany id).checkpoint.completedCompanyIds = s.checkpoint.completedCompanyIds ++ [id] := by
    rw [← hafter.completed]
    rfl
  rw [hids] at hj
  have hne : j ≠ id := by
    rintro rfl
    exact hj (List.mem_append_right _ (List.mem_singleton_self j))
  obtain ⟨hcopy, hcaller⟩ := hs j hj
  have hleft : s'.callerCursors.lookup j = s.callerCursors.lookup j := by rw [hafter.caller, lookup_leave, if_neg hne]
  constructor
  · show ((setKey id _ s'.checkpoint.companyCursors).lookup j).or (if _ then s'.callerCursors.lookup j else none) = _
    rw [lookup_setKey, if_neg hne, hafter.others hne, hleft]
    exact hcopy
  · exact hleft.trans hcaller

theorem needsBudget_indexCompanies (companies : List IndexedCompany) :
    NeedsBudget (indexCompanies reader limit fuel companies) := by
  intro s cs h
  by_contra hex
  rw [Bool.not_eq_false] at hex
  cases companies with
  | nil => exact not_rejects_pure true h
  | cons company companies =>
    obtain ⟨e, s', h, -⟩ := h
    rw [indexCompanies, Method.get_bind, if_pos hex, Method.modify_bind] at h
    cases h

/-- What the loop does after a company. -/
def afterCompany (reader : ContractStateReader) (limit fuel : Nat) (company : IndexedCompany)
    (companies : List IndexedCompany) (complete : Bool) : Method IndexFailure IndexState Bool :=
  if complete then do
    modify fun s => s.completeCompany company.id
    indexCompanies reader limit fuel companies
  else do
    modify fun s => { s with checkpoint.activeCompanyId := some company.id, checkpoint.complete := false }
    pure false

theorem needsBudget_afterCompany (company : IndexedCompany) (companies : List IndexedCompany) (complete : Bool) :
    NeedsBudget (afterCompany reader limit fuel company companies complete) := by
  cases complete with
  | false => exact needsBudget_modify_bind (fun _ => rfl) (needsBudget_pure false)
  | true => exact needsBudget_modify_bind (fun _ => rfl) (needsBudget_indexCompanies companies)

/-- The loop over the companies rejects as their collections say. -/
theorem rejects_indexCompanies : ∀ (companies : List IndexedCompany) (s : IndexState), Unvisited entries s →
    (Rejects (indexCompanies reader limit fuel companies) s cs ↔
      ∃ visits, CompaniesFail reader limit fuel entries companies s.checkpoint.completedCompanyIds s.remainingPages
        visits ∧ cs = leaveAll visits s.callerCursors)
  | [], s, _ => by
    simp only [CompaniesFail, false_and, exists_false, iff_false]
    exact not_rejects_pure true
  | company :: companies, s, hs => by
    by_cases hex : isBudgetExhausted s.remainingPages = true
    · refine iff_of_false (fun h => ?_) ?_
      · exact absurd (needsBudget_indexCompanies _ _ _ h) (by simp [hex])
      · rintro ⟨visits, h, -⟩
        exact absurd (not_exhausted_of_companiesFail h) (by simp [hex])
    · by_cases hid : company.id ∈ s.checkpoint.completedCompanyIds
      · have hskip : Rejects (indexCompanies reader limit fuel (company :: companies)) s cs ↔
            Rejects (indexCompanies reader limit fuel companies) s cs := by
          unfold Rejects
          rw [indexCompanies, Method.get_bind, if_neg hex, if_pos (by simpa using hid)]
        simp only [hskip, rejects_indexCompanies companies s hs, CompaniesFail, if_pos hid]
      · have hindex : Rejects (indexCompanies reader limit fuel (company :: companies)) s cs ↔
            Rejects (indexCompany reader limit fuel company >>= afterCompany reader limit fuel company companies) s
              cs := by
          unfold Rejects
          rw [indexCompanies, Method.get_bind, if_neg hex, if_neg (by simpa using hid)]
          rfl
        simp only [hindex, CompaniesFail, if_neg hid]
        refine rejects_company (needsBudget_afterCompany company companies) (hs.shares hid) (hs.companyCheckpoint hid)
          fun n s' hafter => ?_
        have hvisited : Unvisited entries (s'.completeCompany company.id) :=
          unvisited_completeCompany hafter fun j hj => hs j fun hmem => hj (List.mem_append_left _ hmem)
        have hrest := rejects_indexCompanies companies _ hvisited
        have hids : (s'.completeCompany company.id).checkpoint.completedCompanyIds =
            s.checkpoint.completedCompanyIds ++ [company.id] := by
          rw [← hafter.completed]
          rfl
        rw [hids] at hrest
        exact hrest

end Companies

/-! ## The whole call -/

section Call

variable {entries : List (String × CompanyIndexingCheckpoint)} {indexedAt : Int}

/-- What never rejects may follow. -/
theorem rejects_bind_of_not {m : Method IndexFailure IndexState α} {f : α → Method IndexFailure IndexState β}
    (hf : ∀ a s cs, ¬ Rejects (f a) s cs) : Rejects (m >>= f) s cs ↔ Rejects m s cs := by
  cases h : m s with
  | ok a s' =>
    rw [rejects_bind_of_ok h]
    refine iff_of_false (hf a s' cs) ?_
    rintro ⟨e, s'', heq, -⟩
    cases h.symm.trans heq
  | error e s' =>
    unfold Rejects
    rw [Method.bind_of_error h, h]
    constructor
    · rintro ⟨e', s'', heq, hcs⟩
      cases heq
      exact ⟨e', s', rfl, hcs⟩
    · rintro ⟨e', s'', heq, hcs⟩
      cases heq
      exact ⟨e', s', rfl, hcs⟩

/-- What the call does at the end of the loop. -/
def thenEnd (indexedAt : Int) (done : Bool) : Method IndexFailure IndexState Unit :=
  if done then
    modify fun s =>
      { s with
        checkpoint.activeCompanyId := none
        checkpoint.complete := s.checkpoint.companyCursor.isNone
        diagnostics := s.diagnostics ++ consistencyDiagnostics s.domain indexedAt }
  else pure ()

theorem not_rejects_thenEnd (done : Bool) (s : IndexState) (cs : List (String × CompanyIndexingCheckpoint)) :
    ¬ Rejects (thenEnd indexedAt done) s cs := by
  rintro ⟨e, s', h, -⟩
  cases done <;> cases h

/-- The state when the companies were listed. -/
def IndexState.listed (companyPages : ReadPagesResult IndexedCompany) (s : IndexState) : IndexState :=
  { s with
    domain.companies := s.domain.companies ++ companyPages.items
    checkpoint.companyCursor := companyPages.nextCursor }

/-- What the call does with the companies listed. -/
def indexListed (reader : ContractStateReader) (limit fuel : Nat) (indexedAt : Int)
    (companyPages : ReadPagesResult IndexedCompany) : Method IndexFailure IndexState Unit := do
  modify (IndexState.listed companyPages)
  indexCompanies reader limit fuel companyPages.items >>= thenEnd indexedAt

theorem rejects_indexListed (companyPages : ReadPagesResult IndexedCompany) :
    Rejects (indexListed reader limit fuel indexedAt companyPages) s cs ↔
      Rejects (indexCompanies reader limit fuel companyPages.items) (s.listed companyPages) cs :=
  rejects_bind_of_not not_rejects_thenEnd

theorem needsBudget_indexListed (companyPages : ReadPagesResult IndexedCompany) :
    NeedsBudget (indexListed reader limit fuel indexedAt companyPages) := by
  intro s cs h
  rw [rejects_indexListed] at h
  have hbudget := needsBudget_indexCompanies companyPages.items _ cs h
  exact hbudget

theorem rejects_indexListedCompanies_eq :
    Rejects (indexListedCompanies reader limit fuel indexedAt) s cs ↔
      Rejects (readPages reader.listCompanies limit fuel s.checkpoint.companyCursor >>=
        indexListed reader limit fuel indexedAt) s cs := Iff.rfl

theorem needsBudget_indexListedCompanies : NeedsBudget (indexListedCompanies reader limit fuel indexedAt) := by
  intro s cs h
  rw [rejects_indexListedCompanies_eq] at h
  exact needsBudget_readPages_bind needsBudget_indexListed s cs h

/-- The listing rejects, or one of the companies listed. -/
theorem rejects_indexListedCompanies (hs : Unvisited entries s) :
    Rejects (indexListedCompanies reader limit fuel indexedAt) s cs ↔
      ∃ visits, ListingFails reader limit fuel entries s.checkpoint.companyCursor s.checkpoint.completedCompanyIds
        s.remainingPages visits ∧ cs = leaveAll visits s.callerCursors := by
  have hloop : ∀ ps : List (List IndexedCompany),
      Rejects (indexListed reader limit fuel indexedAt { items := ps.flatten }) (s.spend ps.length) cs ↔
        ∃ visits, CompaniesFail reader limit fuel entries ps.flatten s.checkpoint.completedCompanyIds
          (s.remainingPages.map (· - ps.length)) visits ∧ cs = leaveAll visits s.callerCursors := by
    intro ps
    have hlisted : Unvisited entries ((s.spend ps.length).listed { items := ps.flatten }) := hs
    rw [rejects_indexListed]
    exact rejects_indexCompanies ps.flatten _ hlisted
  rw [rejects_indexListedCompanies_eq, rejects_readPages_bind needsBudget_indexListed]
  simp only [hloop]
  constructor
  · rintro (⟨n, hn, hlt, hb, rfl⟩ | ⟨ps, hps, hlen, h⟩)
    · exact ⟨[], .inl ⟨n, hn, hlt, hb, rfl⟩, rfl⟩
    · obtain ⟨visits, hfails, hcs⟩ := h
      exact ⟨visits, .inr ⟨ps, hps, hlen, hfails⟩, hcs⟩
  · rintro ⟨visits, ⟨n, hn, hlt, hb, rfl⟩ | ⟨ps, hps, hlen, hfails⟩, rfl⟩
    · exact .inl ⟨n, hn, hlt, hb, rfl⟩
    · exact .inr ⟨ps, hps, hlen, visits, hfails, rfl⟩

/-- The visits of companies of a call that rejects: the company that the
checkpoint names, and those that are listed. -/
def Interrupted (reader : ContractStateReader) (fuel : Nat) (options : ContractStateIndexerOptions)
    (visits : List (String × Nat)) : Prop :=
  let limit := options.pageSize.getD DEFAULT_INDEXER_PAGE_SIZE
  let checkpoint := createCheckpoint options.checkpoint options.indexedAt
  match truthy checkpoint.activeCompanyId with
  | none =>
    ListingFails reader limit fuel options.callerEntries checkpoint.companyCursor checkpoint.completedCompanyIds
      options.maxPages visits
  | some companyId =>
    ResumeFails reader limit fuel options.callerEntries companyId checkpoint.companyCursor
      checkpoint.completedCompanyIds options.maxPages visits

/-- The company that the checkpoint names is complete. -/
def IndexState.resumed (s : IndexState) (id : String) : IndexState :=
  { s.completeCompany id with checkpoint.activeCompanyId := none }

/-- What the call does after that company. -/
def afterActive (reader : ContractStateReader) (limit fuel : Nat) (indexedAt : Int) (id : String) (complete : Bool) :
    Method IndexFailure IndexState Unit :=
  if complete then do
    modify (IndexState.resumed · id)
    indexListedCompanies reader limit fuel indexedAt
  else pure ()

theorem needsBudget_afterActive (id : String) (complete : Bool) :
    NeedsBudget (afterActive reader limit fuel indexedAt id complete) := by
  cases complete with
  | false => exact needsBudget_pure ()
  | true => exact needsBudget_modify_bind (fun _ => rfl) needsBudget_indexListedCompanies

/-- The call from the resumption of a company on. -/
def resumeThenList (reader : ContractStateReader) (limit fuel : Nat) (indexedAt : Int) (companyId : String) :
    Method IndexFailure IndexState Unit := do
  let resumed ← resumeActiveCompany reader limit fuel companyId
  if resumed then indexListedCompanies reader limit fuel indexedAt else pure ()

/-- A company that is found is indexed. -/
theorem resumeThenList_found {companyId : String} {company : IndexedCompany}
    {getCompany : String → Except SdkError (Option IndexedCompany)} (hget : reader.getCompany = some getCompany)
    (hfound : getCompany companyId = .ok (some company)) (s : IndexState) :
    resumeThenList reader limit fuel indexedAt companyId s =
      (indexCompany reader limit fuel company >>= afterActive reader limit fuel indexedAt company.id)
        { s with domain.companies := s.domain.companies ++ [company] } := by
  let complete : Bool → Method IndexFailure IndexState Bool := fun complete =>
    if complete then do
      modify (IndexState.resumed · company.id)
      pure true
    else pure false
  have hresume : resumeActiveCompany reader limit fuel companyId s =
      (indexCompany reader limit fuel company >>= complete)
        { s with domain.companies := s.domain.companies ++ [company] } := by
    rw [resumeActiveCompany, hget]
    simp only [hfound]
    rfl
  have hafter : ∀ c, (complete c >>= fun resumed =>
      if resumed then indexListedCompanies reader limit fuel indexedAt else pure ()) =
        afterActive reader limit fuel indexedAt company.id c := by
    intro c
    cases c <;> rfl
  have hbind : resumeThenList reader limit fuel indexedAt companyId s =
      ((indexCompany reader limit fuel company >>= complete) >>= fun resumed =>
        if resumed then indexListedCompanies reader limit fuel indexedAt else pure ())
          { s with domain.companies := s.domain.companies ++ [company] } := by
    show EStateM.bind _ _ _ = EStateM.bind _ _ _
    simp only [EStateM.bind, hresume]
  rw [hbind, bind_assoc]
  simp only [hafter]

/-- Resuming a company rejects when its lookup does, or when its collections or
the listing do. -/
theorem rejects_resumeThenList {companyId : String}
    (hs : ∀ id, s.entry id = entries.lookup id ∧ s.callerCursors.lookup id = entries.lookup id) :
    Rejects (resumeThenList reader limit fuel indexedAt companyId) s cs ↔
      ∃ visits, ResumeFails reader limit fuel entries companyId s.checkpoint.companyCursor
        s.checkpoint.completedCompanyIds s.remainingPages visits ∧
        cs = leaveAll visits s.callerCursors := by
  unfold ResumeFails
  cases hget : reader.getCompany with
  | none =>
    simp only [false_and, exists_false, iff_false]
    rintro ⟨e, s', h, -⟩
    rw [resumeThenList, resumeActiveCompany, hget] at h
    cases h
  | some getCompany =>
    simp only
    cases hfound : getCompany companyId with
    | error e =>
      have herror : resumeThenList reader limit fuel indexedAt companyId s = .error (.rejected e) s := by
        rw [resumeThenList, resumeActiveCompany, hget]
        simp only [hfound]
        rfl
      constructor
      · rintro ⟨e', s', h, rfl⟩
        cases herror.symm.trans h
        exact ⟨[], rfl, rfl⟩
      · rintro ⟨visits, rfl, rfl⟩
        exact ⟨e, s, herror, rfl⟩
    | ok found =>
      cases found with
      | none =>
        simp only [false_and, exists_false, iff_false]
        rintro ⟨e, s', h, -⟩
        rw [resumeThenList, resumeActiveCompany, hget] at h
        simp only [hfound] at h
        cases h
      | some company =>
        let s₁ : IndexState := { s with domain.companies := s.domain.companies ++ [company] }
        have hresume : Rejects (resumeThenList reader limit fuel indexedAt companyId) s cs ↔
            Rejects (indexCompany reader limit fuel company >>= afterActive reader limit fuel indexedAt company.id) s₁
              cs := by
          unfold Rejects
          rw [resumeThenList_found hget hfound]
        have hshares : Shares company.id s₁ := by
          intro c hc
          rw [← hc, (hs company.id).2]
          exact (hs company.id).1
        have hentry : s₁.companyCheckpoint company.id = (entries.lookup company.id).getD {} := by
          rw [IndexState.companyCheckpoint, ← (hs company.id).1]
          rfl
        rw [hresume]
        refine rejects_company (needsBudget_afterActive company.id) hshares hentry fun n s' hafter => ?_
        have hvisited : Unvisited entries (s'.resumed company.id) := unvisited_completeCompany hafter fun j _ => hs j
        have hlisting : Rejects (indexListedCompanies reader limit fuel indexedAt) (s'.resumed company.id) cs ↔
            ∃ rest, ListingFails reader limit fuel entries s'.checkpoint.companyCursor
              (s'.checkpoint.completedCompanyIds ++ [company.id]) s'.remainingPages rest ∧
                cs = leaveAll rest s'.callerCursors :=
          rejects_indexListedCompanies hvisited
        rw [hafter.companyCursor, hafter.completed] at hlisting
        exact hlisting

/-- Under another name nothing is inherited. -/
theorem lookup_inherited {options : ContractStateIndexerOptions} {id : String} (hid : id ∉ Remediation.inheritedNames)
    (p : String × CompanyIndexingCheckpoint → Bool) : (options.inheritedEntries.filter p).lookup id = none := by
  rw [List.lookup_eq_none_iff]
  intro entry hentry
  obtain ⟨name, hname, rfl⟩ := List.mem_map.mp (List.mem_of_mem_filter hentry)
  simpa using ne_of_mem_of_not_mem hname hid |>.symm

/-- The copy gives what the caller's checkpoint gives. -/
theorem entry_initialState (options : ContractStateIndexerOptions) (id : String) :
    (initialState options).entry id = options.callerEntries.lookup id := by
  let own := (options.checkpoint.map (·.companyCursors)).getD []
  have hcaller : options.callerEntries.lookup id = (own.lookup id).or
      ((options.inheritedEntries.filter fun entry => (own.lookup entry.1).isNone).lookup id) := List.lookup_append
  show (own.lookup id).or (if id ∈ Remediation.inheritedNames then options.callerEntries.lookup id else none) = _
  rw [hcaller]
  by_cases hid : id ∈ Remediation.inheritedNames
  · rw [if_pos hid]
    cases own.lookup id <;> rfl
  · rw [if_neg hid, lookup_inherited hid]

/-- A call that rejects leaves the caller's checkpoints as the visits say. -/
theorem rejects_index (options : ContractStateIndexerOptions) :
    (∃ e s, index reader fuel options = .error (.rejected e) s ∧ s.callerCursors = cs) ↔
      ∃ visits, Interrupted reader fuel options visits ∧
        cs = leaveAll visits options.callerEntries := by
  have hfrom : (∃ e s, index reader fuel options = .error (.rejected e) s ∧ s.callerCursors = cs) ↔
      Rejects (indexFrom reader (options.pageSize.getD DEFAULT_INDEXER_PAGE_SIZE) fuel options.indexedAt)
        (initialState options) cs := by
    simp only [index_eq_error]
    rfl
  have hsame : ∀ id, (initialState options).entry id = options.callerEntries.lookup id ∧
      (initialState options).callerCursors.lookup id = options.callerEntries.lookup id :=
    fun id => ⟨entry_initialState options id, rfl⟩
  rw [hfrom]
  cases hactive : truthy (createCheckpoint options.checkpoint options.indexedAt).activeCompanyId with
  | none =>
    have hlist : Rejects (indexFrom reader (options.pageSize.getD DEFAULT_INDEXER_PAGE_SIZE) fuel options.indexedAt)
        (initialState options) cs ↔
        Rejects (indexListedCompanies reader (options.pageSize.getD DEFAULT_INDEXER_PAGE_SIZE) fuel options.indexedAt)
          (initialState options) cs := by
      unfold Rejects
      rw [indexFrom, Method.get_bind, initialState, hactive]
    rw [hlist, rejects_indexListedCompanies fun id _ => hsame id]
    simp only [Interrupted, hactive]
    rfl
  | some companyId =>
    have hresume : Rejects (indexFrom reader (options.pageSize.getD DEFAULT_INDEXER_PAGE_SIZE) fuel options.indexedAt)
        (initialState options) cs ↔
        Rejects (resumeThenList reader (options.pageSize.getD DEFAULT_INDEXER_PAGE_SIZE) fuel options.indexedAt
          companyId) (initialState options) cs := by
      unfold Rejects
      rw [indexFrom, Method.get_bind, initialState, hactive]
      rfl
    rw [hresume, rejects_resumeThenList hsame]
    simp only [Interrupted, hactive]
    rfl

end Call

/-! ## Checkpoints that are left as they were -/

variable {visits : List (String × Nat)}
variable {entries : List (String × CompanyIndexingCheckpoint)}

theorem nodup_of_companyFails {id : String}
    {next : Option Nat → List (String × Nat) → Prop} {b : Option Nat}
    {completed : List String} (hid : id ∉ completed)
    (hnext : ∀ b rest, next b rest → (rest.map Prod.fst).Nodup ∧ ∀ v ∈ rest, v.1 ∉ completed ++ [id])
    (h : CompanyFails reader limit fuel entries id next b visits) :
    (visits.map Prod.fst).Nodup ∧ ∀ v ∈ visits, v.1 ∉ completed := by
  rcases h with ⟨k, -, rfl⟩ | ⟨n, rest, -, hrest, rfl⟩
  · simpa using hid
  · obtain ⟨hnodup, hnot⟩ := hnext _ _ hrest
    constructor
    · refine List.nodup_cons.mpr ⟨fun hmem => ?_, hnodup⟩
      obtain ⟨v, hv, heq⟩ := List.mem_map.mp hmem
      exact hnot v hv (heq ▸ List.mem_append_right _ (List.mem_singleton_self _))
    · intro v hv
      rcases List.mem_cons.mp hv with rfl | hv
      · exact hid
      · exact fun hmem => hnot v hv (List.mem_append_left _ hmem)

/-- No company is visited twice, and none that is complete. -/
theorem nodup_of_companiesFail {entries : List (String × CompanyIndexingCheckpoint)} :
    ∀ {companies : List IndexedCompany} {completed : List String} {b : Option Nat} {visits : List (String × Nat)},
      CompaniesFail reader limit fuel entries companies completed b visits →
        (visits.map Prod.fst).Nodup ∧ ∀ v ∈ visits, v.1 ∉ completed
  | company :: companies, completed, b, visits, h => by
    rw [CompaniesFail] at h
    split at h
    · exact nodup_of_companiesFail h
    · rename_i hid
      exact nodup_of_companyFails hid (fun _ _ => nodup_of_companiesFail) h

theorem nodup_of_listingFails {cursor : Option String} {completed : List String} {b : Option Nat}
    (h : ListingFails reader limit fuel entries cursor completed b visits) :
    (visits.map Prod.fst).Nodup ∧ ∀ v ∈ visits, v.1 ∉ completed := by
  rcases h with ⟨n, -, -, -, rfl⟩ | ⟨ps, -, -, h⟩
  · simp
  · exact nodup_of_companiesFail h

theorem nodup_of_interrupted {options : ContractStateIndexerOptions}
    (h : Interrupted reader fuel options visits) : (visits.map Prod.fst).Nodup := by
  simp only [Interrupted] at h
  split at h
  · exact (nodup_of_listingFails h).1
  · unfold ResumeFails at h
    split at h
    · exact h.elim
    · split at h
      · simp [h]
      · exact h.elim
      · rename_i company _
        have hactive : company.id ∉ ([] : List String) := List.not_mem_nil
        refine (nodup_of_companyFails hactive (fun b rest hrest => ?_) h).1
        obtain ⟨hrest, hnot⟩ := nodup_of_listingFails hrest
        exact ⟨hrest, fun v hv hmem => hnot v hv (List.mem_append_right _ hmem)⟩

theorem lookup_leaveAll_of_notMem {id : String} : ∀ {visits : List (String × Nat)}
    {cs : List (String × CompanyIndexingCheckpoint)}, id ∉ visits.map Prod.fst →
      (leaveAll visits cs).lookup id = cs.lookup id
  | [], _, _ => rfl
  | v :: visits, cs, h => by
    rw [List.map_cons, List.mem_cons, not_or] at h
    show (leaveAll visits (leave v.1 (finished v.2) cs)).lookup id = _
    rw [lookup_leaveAll_of_notMem h.2, lookup_leave, if_neg h.1]

/-- What is left of a company that was visited. -/
theorem lookup_leaveAll : ∀ {visits : List (String × Nat)} {cs : List (String × CompanyIndexingCheckpoint)},
    (visits.map Prod.fst).Nodup → ∀ v ∈ visits, (leaveAll visits cs).lookup v.1 = (cs.lookup v.1).map (finished v.2)
  | u :: visits, cs, hnodup, v, hv => by
    obtain ⟨hu, hnodup⟩ := List.nodup_cons.mp hnodup
    show (leaveAll visits (leave u.1 (finished u.2) cs)).lookup v.1 = _
    rcases List.mem_cons.mp hv with rfl | hv
    · rw [lookup_leaveAll_of_notMem hu, lookup_leave, if_pos rfl]
    · have hne : v.1 ≠ u.1 := fun heq => hu (heq ▸ List.mem_map_of_mem hv)
      rw [lookup_leaveAll hnodup v hv, lookup_leave, if_neg hne]

theorem leaveAll_eq_self_iff {cs : List (String × CompanyIndexingCheckpoint)}
    (hnodup : (visits.map Prod.fst).Nodup) :
    leaveAll visits cs = cs ↔ ∀ v ∈ visits, ∀ c, cs.lookup v.1 = some c → finished v.2 c = c := by
  constructor
  · intro heq v hv c hc
    have hlookup : (leaveAll visits cs).lookup v.1 = (cs.lookup v.1).map (finished v.2) := lookup_leaveAll hnodup v hv
    rw [heq, hc, Option.map_some] at hlookup
    exact (Option.some.inj hlookup).symm
  · intro h
    induction visits with
    | nil => rfl
    | cons v visits ih =>
      have hv : leave v.1 (finished v.2) cs = cs := leave_eq_self_iff.mpr (h v List.mem_cons_self)
      show leaveAll visits (leave v.1 (finished v.2) cs) = cs
      rw [hv]
      exact ih (List.nodup_cons.mp hnodup).2 fun u hu => h u (List.mem_cons_of_mem _ hu)

/-- Of `k` collections the checkpoint has no cursor, and of all five it says that
they are complete. -/
def NothingToWrite (k : Nat) (c : CompanyIndexingCheckpoint) : Prop :=
  (∀ cursor ∈ (collections.map fun stream => stream.2.cursor c).take k, cursor = none) ∧
    (k = 5 → c.complete = some true)

theorem finished_eq_self_iff (k : Nat) (c : CompanyIndexingCheckpoint) : finished k c = c ↔ NothingToWrite k c := by
  obtain ⟨c₁, c₂, c₃, c₄, c₅, complete⟩ := c
  rcases k with _ | _ | _ | _ | _ | _ | k <;>
    simp [finished, NothingToWrite, clear, collections, employees, payrollRuns, events, commitments, auditPermissions,
      @eq_comm (Option String) none, @eq_comm (Option Bool) (some true), and_assoc]

/-- The call can be made again: what the caller's checkpoint gives is as it was,
and when the reader has recovered a result has every record that was there. -/
structure CanBeMadeAgain (reader : ContractStateReader) (options : ContractStateIndexerOptions) (s : IndexState) :
    Prop where
  unchanged : s.callerCursors = options.callerEntries
  nothing_lost : ∀ reader' fuel result s', Recovers reader reader' → index reader' fuel options = .ok result s' →
    Extends s.domain result.toIndexedPayrollDomainView

/-- However the call rejects, it can be made again. -/
def KeptOnRejection (reader : ContractStateReader) (options : ContractStateIndexerOptions) : Prop :=
  ∀ fuel e s, index reader fuel options = .error (.rejected e) s → CanBeMadeAgain reader options s

/-- A checkpoint is left as it was if and only if, for the companies that a
rejected call visits, it has no cursor of a collection that was read to its end,
and says of those that were read as a whole that they are complete. -/
theorem keptOnRejection_iff (reader : ContractStateReader) (options : ContractStateIndexerOptions) :
    KeptOnRejection reader options ↔
      ∀ fuel visits, Interrupted reader fuel options visits → ∀ v ∈ visits, ∀ c,
        options.callerEntries.lookup v.1 = some c → NothingToWrite v.2 c := by
  constructor
  · intro h fuel visits hvisits v hv c hc
    obtain ⟨e, s, hindex, hleft⟩ := (rejects_index options).mpr ⟨visits, hvisits, rfl⟩
    have hunchanged := (h fuel e s hindex).unchanged
    rw [hleft, leaveAll_eq_self_iff (nodup_of_interrupted hvisits)] at hunchanged
    rw [← finished_eq_self_iff]
    exact hunchanged v hv c hc
  · intro h fuel e s hindex
    obtain ⟨visits, hvisits, hleft⟩ := (rejects_index options).mp ⟨e, s, hindex, rfl⟩
    refine ⟨?_, fun reader' fuel' result s' hrecovers hresult => index_again hrecovers hindex hresult⟩
    rw [hleft, leaveAll_eq_self_iff (nodup_of_interrupted hvisits)]
    intro v hv c hc
    rw [finished_eq_self_iff]
    exact h fuel visits hvisits v hv c hc

/-- The employees are read to their end, and the payroll runs are refused: the
employees' cursor is gone. -/
theorem cursor_gone_when_rejected : ¬ ∀ reader options, KeptOnRejection reader options := by
  intro h
  let reader : ContractStateReader :=
    { acmeReader with listPayrollRuns := fun _ _ => .error (genericError "Request timed out") }
  let options : ContractStateIndexerOptions :=
    { checkpoint := some
        { activeCompanyId := some "acme"
          companyCursors := [("acme", { employeesCursor := some "1" })]
          updatedAt := 0 } }
  have hunchanged := (h reader options 10 _ _ rfl).unchanged
  exact absurd hunchanged (by decide)

end ZkPayroll.Indexer
