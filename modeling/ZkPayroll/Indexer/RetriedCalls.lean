import ZkPayroll.Indexer.ContractStateIndexer

/-!
# Calls of the indexer that are made again

A reader that recovers gives the answers of the one before, and may give others
where that one rejects. A method with the reader that has recovered goes the same
way to where the other rejected, and keeps what was read (`Resumes`); so a call of
`index` that is made again has the records of the one that was rejected
(`index_again`).
-/

namespace ZkPayroll.Indexer

open Framework ZkPayroll.Core

variable {α β : Type} {reader reader' : ContractStateReader} {limit fuel fuel' : Nat}

/-- What fulfils with the one reader, fulfils alike with the other. -/
structure Recovers (reader reader' : ContractStateReader) : Prop where
  getCompany : match reader.getCompany, reader'.getCompany with
    | none, none => True
    | some getCompany, some getCompany' => ∀ id company, getCompany id = .ok company → getCompany' id = .ok company
    | _, _ => False
  listCompanies : ∀ r page, reader.listCompanies r = .ok page → reader'.listCompanies r = .ok page
  listEmployees : ∀ id r page, reader.listEmployees id r = .ok page → reader'.listEmployees id r = .ok page
  listPayrollRuns : ∀ id r page, reader.listPayrollRuns id r = .ok page → reader'.listPayrollRuns id r = .ok page
  listContractEvents : ∀ id r page, reader.listContractEvents id r = .ok page →
    reader'.listContractEvents id r = .ok page
  listCommitments : ∀ id r page, reader.listCommitments id r = .ok page → reader'.listCommitments id r = .ok page
  listAuditPermissions : ∀ id r page, reader.listAuditPermissions id r = .ok page →
    reader'.listAuditPermissions id r = .ok page

/-- The second view has the records of the first, before others. -/
def Extends (d e : IndexedPayrollDomainView) : Prop := ∃ f, e = d ++ f

theorem Extends.refl (d : IndexedPayrollDomainView) : Extends d d :=
  ⟨{}, (IndexedPayrollDomainView.append_empty d).symm⟩

theorem Extends.trans {d e f : IndexedPayrollDomainView} (h : Extends d e) (h' : Extends e f) : Extends d f := by
  obtain ⟨x, rfl⟩ := h
  obtain ⟨y, rfl⟩ := h'
  exact ⟨x ++ y, IndexedPayrollDomainView.append_assoc d x y⟩

/-! ## Methods with two readers -/

/-- Where the second method returns, it keeps the records, does what the first
does if that returns, and has its records if it rejects. -/
structure Resumes (m m' : Method IndexFailure IndexState α) : Prop where
  grows {s s' : IndexState} {a : α} : m' s = .ok a s' → Extends s.domain s'.domain
  agrees {s s' s₁ : IndexState} {a b : α} : m' s = .ok a s' → m s = .ok b s₁ → b = a ∧ s₁ = s'
  kept {s s' s₁ : IndexState} {a : α} {e : SdkError} : m' s = .ok a s' → m s = .error (.rejected e) s₁ →
    Extends s₁.domain s'.domain

variable {m m' : Method IndexFailure IndexState α}

theorem Resumes.bind {f f' : α → Method IndexFailure IndexState β}
    (h : Resumes m m') (hf : ∀ a, Resumes (f a) (f' a)) : Resumes (m >>= f) (m' >>= f') where
  grows := by
    intro s s' b hb
    obtain ⟨a, s₀, ha, hb⟩ := Method.bind_eq_ok.mp hb
    exact (h.grows ha).trans ((hf a).grows hb)
  agrees := by
    intro s s' s₁ b c hb hc
    obtain ⟨a, s₀, ha, hb⟩ := Method.bind_eq_ok.mp hb
    obtain ⟨a', s₀', ha', hc⟩ := Method.bind_eq_ok.mp hc
    obtain ⟨rfl, rfl⟩ := h.agrees ha ha'
    exact (hf a').agrees hb hc
  kept := by
    intro s s' s₁ b e hb he
    obtain ⟨a, s₀, ha, hb⟩ := Method.bind_eq_ok.mp hb
    rcases Method.bind_eq_error.mp he with he | ⟨a', s₀', ha', he⟩
    · exact (h.kept ha he).trans ((hf a).grows hb)
    · obtain ⟨rfl, rfl⟩ := h.agrees ha ha'
      exact (hf a').kept hb he

variable {g : IndexState → IndexState}

/-- A method that does not read pages and does not fail. -/
theorem resumes_of_ok {m : Method IndexFailure IndexState α} {v : IndexState → α}
    (hm : ∀ s, m s = .ok (v s) (g s)) (hg : ∀ s, Extends s.domain (g s).domain) : Resumes m m where
  grows := by
    intro s s' a ha
    cases (hm s).symm.trans ha
    exact hg s
  agrees := by
    intro s s' s₁ a b ha hb
    cases (hm s).symm.trans ha
    cases (hm s).symm.trans hb
    exact ⟨rfl, rfl⟩
  kept := by
    intro s s' s₁ a e ha he
    cases (hm s).symm.trans he

theorem resumes_pure (a : α) : Resumes (pure a) (pure a) :=
  resumes_of_ok (fun _ => rfl) fun s => .refl s.domain

theorem resumes_get : Resumes (get : Method IndexFailure IndexState IndexState) get :=
  resumes_of_ok (fun _ => rfl) fun s => .refl s.domain

theorem resumes_modify (hg : ∀ s, Extends s.domain (g s).domain) :
    Resumes (modify g : Method IndexFailure IndexState PUnit) (modify g) :=
  resumes_of_ok (fun _ => rfl) hg

/-- A change of the state that leaves the records, and what follows. -/
theorem resumes_modify_bind (hg : ∀ s, (g s).domain = s.domain) (h : Resumes m m') :
    Resumes ((modify g : Method IndexFailure IndexState PUnit) >>= fun _ => m)
      ((modify g : Method IndexFailure IndexState PUnit) >>= fun _ => m') := by
  refine (resumes_modify fun s => ?_).bind fun _ => h
  rw [hg s]
  exact .refl s.domain

/-- An answer of the reader. -/
theorem resumes_lift {x x' : Except SdkError α} (h : ∀ a, x = .ok a → x' = .ok a) :
    Resumes (liftM (x.mapError IndexFailure.rejected) : Method IndexFailure IndexState α)
      (liftM (x'.mapError IndexFailure.rejected) : Method IndexFailure IndexState α) where
  grows := by
    intro s s' a ha
    cases x' with
    | ok b =>
      cases ha
      exact .refl _
    | error e => cases ha
  agrees := by
    intro s s' s₁ a b ha hb
    cases x with
    | ok c =>
      cases h c rfl
      cases ha
      cases hb
      exact ⟨rfl, rfl⟩
    | error e => cases hb
  kept := by
    intro s s' s₁ a e ha he
    cases x with
    | ok c => cases he
    | error e' =>
      cases he
      cases x' with
      | ok b =>
        cases ha
        exact .refl _
      | error e'' => cases ha

/-! ## Pages -/

section Pages

variable {read read' : ContractStatePageRequest → Except SdkError (Page α)}

/-- Reading pages adds no records before they are pushed. -/
theorem domain_readPages : ∀ (fuel : Nat) (c : Option String) {s s' : IndexState} {r : ReadPagesResult α},
    readPages read limit fuel c s = .ok r s' → s'.domain = s.domain
  | 0, c, s, s', r, h => by cases h
  | fuel + 1, c, s, s', r, h => by
    rw [readPages, Method.get_bind] at h
    split at h
    · cases h
      rfl
    · obtain ⟨page, s₁, hpage, h⟩ := Method.bind_eq_ok.mp h
      have hs₁ : s₁ = s := by
        cases hread : readPage read { cursor := c, limit := limit } with
        | error e =>
          rw [hread] at hpage
          cases hpage
        | ok p =>
          rw [hread] at hpage
          cases hpage
          rfl
      rw [hs₁, Method.modify_bind] at h
      cases hnext : page.nextCursor with
      | none =>
        simp only [hnext] at h
        cases h
        rfl
      | some next =>
        simp only [hnext] at h
        obtain ⟨rest, s₂, hrest, h⟩ := Method.bind_eq_ok.mp h
        cases h
        have hdomain := domain_readPages fuel (some next) hrest
        exact hdomain

theorem resumes_readPages (hread : ∀ r page, read r = .ok page → read' r = .ok page) :
    ∀ (fuel fuel' : Nat) (c : Option String), Resumes (readPages read limit fuel c) (readPages read' limit fuel' c)
  | fuel, 0, c => by
    constructor
    · intro s s' a ha
      cases ha
    · intro s s' s₁ a b ha
      cases ha
    · intro s s' s₁ a e ha
      cases ha
  | 0, fuel' + 1, c => by
    constructor
    · intro s s' a ha
      rw [domain_readPages (fuel' + 1) c ha]
      exact .refl _
    · intro s s' s₁ a b ha hb
      cases hb
    · intro s s' s₁ a e ha he
      cases he
  | fuel + 1, fuel' + 1, c => by
    rw [readPages, readPages]
    refine resumes_get.bind fun s => ?_
    split
    · exact resumes_pure _
    · refine (resumes_lift (hread _)).bind fun page => ?_
      refine resumes_modify_bind (fun _ => rfl) ?_
      cases page.nextCursor with
      | none => exact resumes_pure _
      | some next => exact (resumes_readPages hread fuel fuel' (some next)).bind fun rest => resumes_pure _

end Pages

/-! ## Companies -/

section Streams

variable {stream : RecordStream α} {id : String}

theorem resumes_readStream (hread : ∀ r page, stream.list reader id r = .ok page → stream.list reader' id r = .ok page)
    (hpush : ∀ d items, Extends d (stream.push d items)) :
    Resumes (readStream reader limit fuel stream id) (readStream reader' limit fuel' stream id) := by
  rw [readStream, readStream]
  refine resumes_get.bind fun s => ?_
  refine (resumes_readPages hread fuel fuel' _).bind fun read => ?_
  refine (resumes_modify fun s => ?_).bind fun _ => resumes_pure _
  exact hpush s.domain read.items

end Streams

/-- One branch of `indexCompany`. -/
theorem resumes_next {m m' : Method IndexFailure IndexState Bool} (h : Resumes m m') (next : Option String) :
    Resumes (if isTruthy next then pure false else m) (if isTruthy next then pure false else m') := by
  split
  · exact resumes_pure false
  · exact h

/-! ## Calls -/

variable {options : ContractStateIndexerOptions}

/-- A call fails as the method does. -/
theorem index_eq_error {e : IndexFailure} {s : IndexState} :
    index reader fuel options = .error e s ↔
      indexFrom reader (options.pageSize.getD DEFAULT_INDEXER_PAGE_SIZE) fuel options.indexedAt (initialState options) =
        .error e s := by
  cases h : indexFrom reader (options.pageSize.getD DEFAULT_INDEXER_PAGE_SIZE) fuel options.indexedAt
    (initialState options) with
  | ok _ s' => simp [index, h]
  | error e' s' => simp [index, h]

theorem index_eq_ok {result : ContractStateIndexResult} {s : IndexState} :
    index reader fuel options = .ok result s ↔
      indexFrom reader (options.pageSize.getD DEFAULT_INDEXER_PAGE_SIZE) fuel options.indexedAt (initialState options) =
        .ok () s ∧ result = toResult s options.indexedAt := by
  cases h : indexFrom reader (options.pageSize.getD DEFAULT_INDEXER_PAGE_SIZE) fuel options.indexedAt
    (initialState options) with
  | ok _ s' =>
    simp only [index, h, EStateM.Result.ok.injEq, true_and]
    constructor
    · rintro ⟨rfl, rfl⟩
      exact ⟨rfl, rfl⟩
    · rintro ⟨rfl, rfl⟩
      exact ⟨rfl, rfl⟩
  | error e' s' => simp [index, h]

section Calls

variable (hr : Recovers reader reader')
include hr

theorem resumes_indexCompany (company : IndexedCompany) :
    Resumes (indexCompany reader limit fuel company) (indexCompany reader' limit fuel' company) := by
  have hemployees : Resumes (readStream reader limit fuel employees company.id)
      (readStream reader' limit fuel' employees company.id) :=
    resumes_readStream (hr.listEmployees company.id) fun d items => ⟨{ employees := items }, by
      simp [employees, IndexedPayrollDomainView.append_def]⟩
  have hruns : Resumes (readStream reader limit fuel payrollRuns company.id)
      (readStream reader' limit fuel' payrollRuns company.id) :=
    resumes_readStream (hr.listPayrollRuns company.id) fun d items => ⟨{ payrollRuns := items }, by
      simp [payrollRuns, IndexedPayrollDomainView.append_def]⟩
  have hevents : Resumes (readStream reader limit fuel events company.id)
      (readStream reader' limit fuel' events company.id) :=
    resumes_readStream (hr.listContractEvents company.id) fun d items => ⟨{ events := items }, by
      simp [events, IndexedPayrollDomainView.append_def]⟩
  have hcommitments : Resumes (readStream reader limit fuel commitments company.id)
      (readStream reader' limit fuel' commitments company.id) :=
    resumes_readStream (hr.listCommitments company.id) fun d items => ⟨{ commitments := items }, by
      simp [commitments, IndexedPayrollDomainView.append_def]⟩
  have hpermissions : Resumes (readStream reader limit fuel auditPermissions company.id)
      (readStream reader' limit fuel' auditPermissions company.id) :=
    resumes_readStream (hr.listAuditPermissions company.id) fun d items => ⟨{ auditPermissions := items }, by
      simp [auditPermissions, IndexedPayrollDomainView.append_def]⟩
  rw [indexCompany, indexCompany]
  refine resumes_modify_bind (fun _ => rfl) ?_
  refine hemployees.bind fun next => resumes_next ?_ next
  refine hruns.bind fun next => resumes_next ?_ next
  refine hevents.bind fun next => resumes_next ?_ next
  refine hcommitments.bind fun next => resumes_next ?_ next
  refine hpermissions.bind fun next => ?_
  exact resumes_modify_bind (fun _ => rfl) (resumes_pure next.isNone)

theorem resumes_indexCompanies : ∀ companies : List IndexedCompany,
    Resumes (indexCompanies reader limit fuel companies) (indexCompanies reader' limit fuel' companies)
  | [] => resumes_pure true
  | company :: companies => by
    rw [indexCompanies, indexCompanies]
    refine resumes_get.bind fun s => ?_
    split
    · exact resumes_modify_bind (fun _ => rfl) (resumes_pure false)
    · split
      · exact resumes_indexCompanies companies
      · refine (resumes_indexCompany hr company).bind fun complete => ?_
        cases complete with
        | false => exact resumes_modify_bind (fun _ => rfl) (resumes_pure false)
        | true => exact resumes_modify_bind (fun _ => rfl) (resumes_indexCompanies companies)

theorem resumes_resumeActiveCompany (companyId : String) :
    Resumes (resumeActiveCompany reader limit fuel companyId) (resumeActiveCompany reader' limit fuel' companyId) := by
  have hget := hr.getCompany
  unfold resumeActiveCompany
  cases hreader : reader.getCompany with
  | none =>
    cases hreader' : reader'.getCompany with
    | none => exact resumes_modify_bind (fun _ => rfl) (resumes_pure false)
    | some getCompany' => simp [hreader, hreader'] at hget
  | some getCompany =>
    cases hreader' : reader'.getCompany with
    | none => simp [hreader, hreader'] at hget
    | some getCompany' =>
      simp only [hreader, hreader'] at hget
      refine (resumes_lift (hget companyId)).bind fun found => ?_
      cases found with
      | none => exact resumes_modify_bind (fun _ => rfl) (resumes_pure false)
      | some company =>
        refine (resumes_modify fun s => ⟨{ companies := [company] }, ?_⟩).bind fun _ => ?_
        · simp [IndexedPayrollDomainView.append_def]
        · refine (resumes_indexCompany hr company).bind fun complete => ?_
          cases complete with
          | false => exact resumes_pure false
          | true => exact resumes_modify_bind (fun _ => rfl) (resumes_pure true)

theorem resumes_indexListedCompanies (indexedAt : Int) :
    Resumes (indexListedCompanies reader limit fuel indexedAt)
      (indexListedCompanies reader' limit fuel' indexedAt) := by
  rw [indexListedCompanies, indexListedCompanies]
  refine resumes_get.bind fun s => ?_
  refine (resumes_readPages hr.listCompanies fuel fuel' _).bind fun companyPages => ?_
  refine (resumes_modify fun s => ⟨{ companies := companyPages.items }, ?_⟩).bind fun _ => ?_
  · simp [IndexedPayrollDomainView.append_def]
  · refine (resumes_indexCompanies hr companyPages.items).bind fun done => ?_
    cases done with
    | false => exact resumes_pure ()
    | true => exact resumes_modify fun s => .refl s.domain

theorem resumes_indexFrom (indexedAt : Int) :
    Resumes (indexFrom reader limit fuel indexedAt) (indexFrom reader' limit fuel' indexedAt) := by
  rw [indexFrom, indexFrom]
  refine resumes_get.bind fun s => ?_
  cases truthy s.checkpoint.activeCompanyId with
  | none => exact resumes_indexListedCompanies hr indexedAt
  | some companyId =>
    refine (resumes_resumeActiveCompany hr companyId).bind fun resumed => ?_
    cases resumed with
    | false => exact resumes_pure ()
    | true => exact resumes_indexListedCompanies hr indexedAt

/-- The call that is made again has the records of the call that was rejected. -/
theorem index_again {options : ContractStateIndexerOptions} {e : SdkError} {s s' : IndexState}
    {result : ContractStateIndexResult} (hrejected : index reader fuel options = .error (.rejected e) s)
    (hresult : index reader' fuel' options = .ok result s') :
    Extends s.domain result.toIndexedPayrollDomainView := by
  rw [index_eq_error] at hrejected
  obtain ⟨hok, rfl⟩ := index_eq_ok.mp hresult
  exact (resumes_indexFrom hr options.indexedAt).kept hok hrejected

end Calls

end ZkPayroll.Indexer
