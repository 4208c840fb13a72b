import ZkPayroll.Validation.OfflineDraftValidator

/-!
# The issues that a pass collects

After the structure, a pass runs checks one after the other: one for each
record (`recordChecks`), then those of the draft as a whole (`laterChecks`). It
collects the issues of the checks before the first that throws
(`guardedPass_after`), and the result tells what was collected
(`validate_cases`).
-/

namespace ZkPayroll.Validation

open Framework ZkPayroll.Core

variable {ν : Type}

/-! ## Progress -/

/-- The same issues and the same valid records. -/
structure SameFindings (p q : Progress ν) : Prop where
  blockers : p.blockers = q.blockers
  validRecordIndices : p.validRecordIndices = q.validRecordIndices

/-- An issue of the draft as a whole. -/
def General (b : ValidationIssue ν) : Prop := b.recordIndex = none ∧ b.category ≠ .duplicate

theorem general_internalError (message : String) : ∀ b ∈ [internalError (ν := ν) message], General b := by
  intro b hb
  rw [List.mem_singleton.mp hb]
  exact ⟨rfl, nofun⟩

/-- A blocker of a custom validator, or of its failure. -/
theorem mem_customIssues {draft : DraftValue ν} {validator : CustomValidator ν}
    {b : ValidationIssue ν} (h : b ∈ customIssues draft validator) :
    General b ∨ ∃ issues, validator draft = .ok issues ∧ b ∈ issues := by
  unfold customIssues at h
  cases hrun : validator draft with
  | ok issues =>
    rw [hrun] at h
    exact .inr ⟨issues, rfl, h⟩
  | error e =>
    rw [hrun] at h
    exact .inl (general_internalError _ b h)

theorem mem_blockersOf {issues : List (ValidationIssue ν)} {b : ValidationIssue ν} :
    b ∈ blockersOf issues ↔ b ∈ issues ∧ b.severity = .blocker := by
  simp [blockersOf]

/-- The records from the one at `i` on, without a blocker in their reports. -/
def clearFrom : List (List (ValidationIssue ν)) → (i : Nat) → Finset Nat
  | [], _ => ∅
  | issues :: reports, i =>
    if (blockersOf issues).length = 0 then insert i (clearFrom reports (i + 1)) else clearFrom reports (i + 1)

theorem mem_clearFrom {reports : List (List (ValidationIssue ν))} {i j : Nat} :
    j ∈ clearFrom reports i ↔ ∃ k issues, reports[k]? = some issues ∧ blockersOf issues = [] ∧ j = i + k := by
  induction reports generalizing i with
  | nil => simp [clearFrom]
  | cons issues reports ih =>
    have hshift : (∃ k found, reports[k]? = some found ∧ blockersOf found = [] ∧ j = i + (k + 1)) ↔
        j ∈ clearFrom reports (i + 1) := by
      rw [ih]
      simp only [Nat.add_assoc, Nat.add_comm 1]
    rw [exists_getElem?_cons (P := fun k found => blockersOf found = [] ∧ j = i + k), hshift, clearFrom]
    by_cases hclear : blockersOf issues = []
    · simp [hclear]
    · simp [hclear]

section Checks

variable [NumberFormat ν] [CommRing ν] [LinearOrder ν] {rt : Runtime ν} {v : OfflineDraftValidator ν}
  {draft : DraftValue ν}

/-! ## The checks of a pass -/

/-- The checks of the records from the one at `i` on. -/
def checksFrom (v : OfflineDraftValidator ν) (draft : DraftValue ν) : List (DraftValue ν) → (i : Nat) →
    List (Except SdkError (List (ValidationIssue ν)))
  | [], _ => []
  | record :: records, i => validateRecord v record i draft :: checksFrom v draft records (i + 1)

variable (v : OfflineDraftValidator ν)

def recordChecks (draft : DraftValue ν) :
    List (Except SdkError (List (ValidationIssue ν))) := checksFrom v draft (recordsOf draft) 0

def customValidators : List (CustomValidator ν) :=
  v.config.customValidators.join.getD []

/-- The checks that come after those of the records. -/
def laterChecks (draft : DraftValue ν) : List (Except SdkError (List (ValidationIssue ν))) :=
  ifOn v.config.checkDuplicates (checkDuplicates draft) :: validateBatchConstraints draft ::
    (customValidators v).map fun validator => .ok (customIssues draft validator)

/-- The structure of the draft lets its records be checked. -/
def structurePasses (draft : DraftValue ν) : Bool :=
  draft.truthy && match validateStructure v draft with
    | .ok issues => issues.isEmpty
    | .error _ => false

/-- What the checks of the records report, up to the first that throws. -/
def recordReports (draft : DraftValue ν) : List (List (ValidationIssue ν)) :=
  if structurePasses v draft then okPrefix (recordChecks v draft) else []

/-- What all checks after the structure report, up to the first that throws. -/
def reports (draft : DraftValue ν) : List (List (ValidationIssue ν)) :=
  if structurePasses v draft then okPrefix (recordChecks v draft ++ laterChecks v draft) else []

/-! ## Steps -/

/-- What is in `found` was added to the issues, and `clear` to the valid
records. -/
structure Collected (p p' : Progress ν) (found : List (List (ValidationIssue ν))) (clear : Finset Nat) : Prop where
  blockers : p'.blockers = p.blockers ++ found.flatMap blockersOf
  validRecordIndices : p'.validRecordIndices = p.validRecordIndices ∪ clear

/-- A step of the pass collects the issues of its checks, up to the first that
throws. -/
def Collects (checks : List (Except SdkError (List (ValidationIssue ν)))) (clear : Finset Nat)
    (step : Pass ν PUnit) : Prop :=
  ∀ p, ∃ p', Collected p p' (okPrefix checks) clear ∧
    ((∃ found : List (List (ValidationIssue ν)), checks = found.map .ok) ∧ step p = .ok ⟨⟩ p' ∨
      (∃ x ∈ checks, ∃ e, x = .error e) ∧ ∃ e, step p = .error e p')

end Checks

section Steps

variable {checks later : List (Except SdkError (List (ValidationIssue ν)))} {clear : Finset Nat}

theorem Collected.trans {p q r : Progress ν} {found found' : List (List (ValidationIssue ν))}
    (h : Collected p q found clear) (h' : Collected q r found' ∅) : Collected p r (found ++ found') clear where
  blockers := by rw [h'.blockers, h.blockers, List.flatMap_append, List.append_assoc]
  validRecordIndices := by rw [h'.validRecordIndices, h.validRecordIndices, Finset.union_empty]

theorem collects_pure : Collects [] ∅ (pure ⟨⟩ : Pass ν PUnit) := fun p =>
  ⟨p, ⟨by simp [okPrefix], by simp⟩, .inl ⟨⟨[], rfl⟩, rfl⟩⟩

/-- The progress after a report. -/
theorem collected_add (p : Progress ν) (issues : List (ValidationIssue ν)) :
    Collected p (p.add issues) [issues] ∅ where
  blockers := by simp [Progress.add]
  validRecordIndices := by simp [Progress.add]

theorem collects_report (x : Except SdkError (List (ValidationIssue ν))) :
    Collects [x] ∅ (do report (← x) : Pass ν PUnit) := by
  intro p
  cases x with
  | ok issues => exact ⟨p.add issues, collected_add p issues, .inl ⟨⟨[issues], rfl⟩, rfl⟩⟩
  | error e => exact ⟨p, ⟨by simp [okPrefix], by simp⟩, .inr ⟨⟨_, List.mem_singleton_self _, e, rfl⟩, e, rfl⟩⟩

theorem Progress.addRecord_blockers (p : Progress ν) (i : Nat) (issues : List (ValidationIssue ν)) :
    (p.addRecord i issues).blockers = p.blockers ++ blockersOf issues := by
  unfold Progress.addRecord
  split <;> rfl

/-- Steps that are run one after the other. -/
theorem Collects.seq {step next : Pass ν PUnit} (h : Collects checks clear step) (h' : Collects later ∅ next) :
    Collects (checks ++ later) clear (step >>= fun _ => next) := by
  intro p
  obtain ⟨q, hq, ⟨⟨found, rfl⟩, hstep⟩ | ⟨hthrows, e, hstep⟩⟩ := h p
  · obtain ⟨r, hr, hnext⟩ := h' q
    have hrun : (step >>= fun _ => next) p = next q := Method.bind_of_ok hstep
    rw [okPrefix_map_ok] at hq
    refine ⟨r, ?_, ?_⟩
    · rw [okPrefix_map_ok_append]
      exact hq.trans hr
    · rw [hrun]
      refine hnext.imp ?_ ?_
      · rintro ⟨⟨found', rfl⟩, hok⟩
        exact ⟨⟨found ++ found', (List.map_append).symm⟩, hok⟩
      · rintro ⟨⟨x, hx, herror⟩, hthrown⟩
        exact ⟨⟨x, List.mem_append_right _ hx, herror⟩, hthrown⟩
  · refine ⟨q, ?_, .inr ⟨?_, e, Method.bind_of_error hstep⟩⟩
    · rwa [okPrefix_append_of_error hthrows]
    · obtain ⟨x, hx, herror⟩ := hthrows
      exact ⟨x, List.mem_append_left _ hx, herror⟩

theorem collects_runCustomValidators (draft : DraftValue ν) (validators : List (CustomValidator ν)) :
    Collects (validators.map fun validator => .ok (customIssues draft validator)) ∅
      (runCustomValidators draft validators) := by
  induction validators with
  | nil => exact collects_pure
  | cons validator validators ih => exact (collects_report (.ok (customIssues draft validator))).seq ih

end Steps

section Checks

variable [NumberFormat ν] [CommRing ν] [LinearOrder ν] {rt : Runtime ν} {v : OfflineDraftValidator ν}
  {draft : DraftValue ν}

variable (v draft) in
/-- The loop over the records. -/
theorem collects_validateRecords (records : List (DraftValue ν)) (i : Nat) :
    Collects (checksFrom v draft records i) (clearFrom (okPrefix (checksFrom v draft records i)) i)
      (validateRecords v draft records i) := by
  induction records generalizing i with
  | nil => exact collects_pure
  | cons record records ih =>
    intro p
    rw [checksFrom]
    cases hrecord : validateRecord v record i draft with
    | error e =>
      refine ⟨p, ⟨by simp [okPrefix], by simp [okPrefix, clearFrom]⟩, .inr ⟨⟨_, List.mem_cons_self, e, rfl⟩, e, ?_⟩⟩
      rw [validateRecords, hrecord]
      rfl
    | ok issues =>
      have hrun : validateRecords v draft (record :: records) i p =
          validateRecords v draft records (i + 1) (p.addRecord i issues) := by
        rw [validateRecords, hrecord]
        rfl
      obtain ⟨r, hr, houtcome⟩ := ih (i + 1) (p.addRecord i issues)
      rw [hrun]
      refine ⟨r, ⟨?_, ?_⟩, ?_⟩
      · rw [hr.blockers, okPrefix, List.flatMap_cons, ← List.append_assoc, Progress.addRecord_blockers]
      · rw [hr.validRecordIndices, okPrefix, clearFrom, Progress.addRecord]
        split
        · rw [Finset.union_insert, ← Finset.insert_union]
          rfl
        · rfl
      · refine houtcome.imp ?_ ?_
        · rintro ⟨⟨found, hfound⟩, hok⟩
          exact ⟨⟨issues :: found, by rw [hfound, List.map_cons]⟩, hok⟩
        · rintro ⟨⟨x, hx, herror⟩, hthrown⟩
          exact ⟨⟨x, List.mem_cons_of_mem _ hx, herror⟩, hthrown⟩

/-- The pass after the structure is checked, without the result. -/
def restPass (v : OfflineDraftValidator ν) (draft : DraftValue ν) : Pass ν PUnit := do
  validateRecords v draft (recordsOf draft) 0
  report (← ifOn v.config.checkDuplicates (checkDuplicates draft))
  report (← validateBatchConstraints draft)
  runCustomValidators draft (customValidators v)

variable (v draft) in
theorem collects_restPass :
    Collects (recordChecks v draft ++ laterChecks v draft) (clearFrom (okPrefix (recordChecks v draft)) 0)
      (restPass v draft) := by
  have hcustom := collects_runCustomValidators draft (customValidators v)
  have hbatch := (collects_report (validateBatchConstraints draft)).seq hcustom
  have hduplicates := (collects_report (ifOn v.config.checkDuplicates (checkDuplicates draft))).seq hbatch
  have hrest := (collects_validateRecords v draft (recordsOf draft) 0).seq hduplicates
  simp only [bind_assoc] at hrest
  exact hrest

/-! ## The result -/

/-- The end of the pass. -/
def finish (rt : Runtime ν) (draft : DraftValue ν) (startTime : Int) : Pass ν (DraftValidationResult ν) := do
  let duration ← elapsedMs rt startTime
  buildResult rt draft duration

/-- The result tells what was found. -/
structure Tells (r : DraftValidationResult ν) (p : Progress ν) : Prop where
  blockers : r.blockers = p.blockers
  isValid : r.isValid = decide (p.blockers.length = 0)
  validRecords : r.summary.validRecords = p.validRecordIndices.card

variable (startTime : Int)

theorem finish_eq (p : Progress ν) :
    finish rt draft startTime p = (do
      let counts ← (liftM (recordCounts rt draft p.validRecordIndices.card) : Pass ν _)
      let validatedAt ← dateNow rt
      return {
        isValid := p.blockers.length = 0
        isReadyToSubmit := p.blockers.length = 0 && p.warnings.length < 5
        blockers := p.blockers
        warnings := p.warnings
        summary := {
          totalRecords := counts.1
          validRecords := p.validRecordIndices.card
          recordsWithIssues := counts.2
          totalBlockers := p.blockers.length
          totalWarnings := p.warnings.length }
        validatedAt := validatedAt
        validationDurationMs := max 1 (max 1 (rt.now p.readings - startTime)) } : Pass ν _)
      { p with readings := p.readings + 1 } := rfl

variable (rt draft) in
/-- The end of the pass gives a result or throws, as the records can be counted
or not. -/
theorem finish_cases (p : Progress ν) :
    (∃ counts r p', recordCounts rt draft p.validRecordIndices.card = .ok counts ∧
        finish rt draft startTime p = .ok r p' ∧ Tells r p) ∨
      ∃ e p', recordCounts rt draft p.validRecordIndices.card = .error e ∧
        finish rt draft startTime p = .error e p' ∧ SameFindings p p' := by
  rw [finish_eq]
  cases hcounts : recordCounts rt draft p.validRecordIndices.card with
  | ok counts => exact .inl ⟨counts, _, _, rfl, rfl, ⟨rfl, rfl, rfl⟩⟩
  | error e => exact .inr ⟨e, _, rfl, rfl, ⟨rfl, rfl⟩⟩

/-- What a pass has found when it ends: what the checks report and issues of the
draft as a whole. -/
def Found (v : OfflineDraftValidator ν) (draft : DraftValue ν) (p : Progress ν) : Prop :=
  (∃ general, (∀ b ∈ general, General b) ∧ p.blockers = (reports v draft).flatMap blockersOf ++ general) ∧
    p.validRecordIndices = clearFrom (recordReports v draft) 0

theorem Found.same {p q : Progress ν} (h : Found v draft p) (hsame : SameFindings p q) : Found v draft q := by
  unfold Found at h ⊢
  rw [← hsame.blockers, ← hsame.validRecordIndices]
  exact h

variable {issues : List (ValidationIssue ν)} {p : Progress ν}

theorem Found.add (h : Found v draft p)
    (hissues : ∀ b ∈ issues, General b) : Found v draft (p.add issues) := by
  obtain ⟨⟨general, hgeneral, hblockers⟩, hvalid⟩ := h
  refine ⟨⟨general ++ blockersOf issues, ?_, ?_⟩, hvalid⟩
  · rw [List.forall_mem_append]
    exact ⟨hgeneral, fun b hb => hissues b (List.mem_filter.mp hb).1⟩
  · rw [← List.append_assoc, ← hblockers]
    rfl

theorem structure_of_validateStructure (h : validateStructure v draft = .ok issues) :
    ∀ b ∈ issues, b.severity = .blocker ∧ b.category = .structural ∧ b.recordIndex = none := by
  have hif {c : Prop} [Decidable c] {b b' : ValidationIssue ν} (hb : b ∈ if c then [b'] else []) : b = b' := by
    split at hb
    · exact List.mem_singleton.mp hb
    · cases hb
  simp only [validateStructure, except_bind_eq_ok] at h
  obtain ⟨draftId, -, unnamed, -, employer, -, records, -, h⟩ := h
  intro b hb
  split at h
  · cases h
    simp only [List.mem_append] at hb
    obtain ((hb | hb) | hb) | hb := hb
    · rw [hif hb]
      exact ⟨rfl, rfl, rfl⟩
    · rw [hif hb]
      exact ⟨rfl, rfl, rfl⟩
    · rw [hif hb]
      exact ⟨rfl, rfl, rfl⟩
    · split at hb
      · rw [hif hb]
        exact ⟨rfl, rfl, rfl⟩
      · cases hb
  · cases h
    simp only [List.mem_append, List.mem_singleton] at hb
    obtain (hb | hb) | rfl := hb
    · rw [hif hb]
      exact ⟨rfl, rfl, rfl⟩
    · rw [hif hb]
      exact ⟨rfl, rfl, rfl⟩
    · exact ⟨rfl, rfl, rfl⟩

/-! ## The end of a pass -/

/-- The pass from `p` ends with a result that tells what was found, or throws
and leaves it. -/
def EndsFound (v : OfflineDraftValidator ν) (draft : DraftValue ν) (pass : Pass ν (DraftValidationResult ν))
    (p : Progress ν) : Prop :=
  ∃ q, Found v draft q ∧ ((∃ r p', pass p = .ok r p' ∧ Tells r q) ∨ ∃ e, pass p = .error e q)

theorem Found.ends {p q : Progress ν} {pass : Pass ν (DraftValidationResult ν)} {startTime : Int}
    (hq : Found v draft q) (hrun : pass p = finish rt draft startTime q) : EndsFound v draft pass p := by
  unfold EndsFound
  rw [hrun]
  obtain ⟨_, r, p', -, hok, htells⟩ | ⟨e, p', -, herror, hsame⟩ := finish_cases rt draft startTime q
  · exact ⟨q, hq, .inl ⟨r, p', hok, htells⟩⟩
  · exact ⟨p', hq.same hsame, .inr ⟨e, herror⟩⟩

/-- Where the records are not checked, nothing but the draft as a whole is
reported. -/
theorem found_of_not_passes (hpasses : structurePasses v draft = false) (hblockers : p.blockers = [])
    (hvalid : p.validRecordIndices = ∅) : Found v draft p := by
  refine ⟨⟨[], List.forall_mem_nil _, ?_⟩, ?_⟩
  · rw [hblockers, reports, hpasses]
    rfl
  · rw [hvalid, recordReports, hpasses]
    rfl

theorem guardedPass_eq :
    guardedPass rt v draft startTime = (do
      report (← validateStructure v draft)
      let found ← get
      if found.blockers.any (·.category = .structural) then finish rt draft startTime
      else do
        restPass v draft
        finish rt draft startTime) := by
  unfold guardedPass restPass finish
  simp only [bind_assoc]
  rfl

/-- Blockers of the structure end the pass early. -/
theorem endsFound_of_blocked {b : ValidationIssue ν}
    (hp : Found v draft p) (hstructure : validateStructure v draft = .ok (b :: issues)) :
    EndsFound v draft (guardedPass rt v draft startTime) p := by
  have hissues := structure_of_validateStructure hstructure
  have hany : (p.add (b :: issues)).blockers.any (·.category = .structural) = true := by
    obtain ⟨hseverity, hcategory, -⟩ := hissues b List.mem_cons_self
    rw [List.any_eq_true]
    refine ⟨b, List.mem_append_right _ ?_, decide_eq_true hcategory⟩
    exact List.mem_filter.mpr ⟨List.mem_cons_self, decide_eq_true hseverity⟩
  have hfound : Found v draft (p.add (b :: issues)) := by
    apply hp.add
    intro c hc
    obtain ⟨-, hcategory, hindex⟩ := hissues c hc
    exact ⟨hindex, by rw [hcategory]; decide⟩
  apply hfound.ends
  rw [guardedPass_eq, hstructure]
  show (if (p.add (b :: issues)).blockers.any (·.category = .structural) then finish rt draft startTime else _ : Pass ν _)
    _ = _
  rw [if_pos hany]

/-- The pass after the structure was found to be in order. -/
theorem endsFound_of_passes (hblockers : p.blockers = [])
    (hvalid : p.validRecordIndices = ∅) (hstructure : validateStructure v draft = .ok [])
    (hpasses : structurePasses v draft = true) : EndsFound v draft (guardedPass rt v draft startTime) p := by
  have hrun : guardedPass rt v draft startTime p = (do
      restPass v draft
      finish rt draft startTime : Pass ν _) (p.add []) := by
    rw [guardedPass_eq, hstructure]
    show (if (p.add []).blockers.any (·.category = .structural) then finish rt draft startTime else _ : Pass ν _) _ = _
    rw [if_neg (by simp [Progress.add, hblockers, blockersOf])]
  obtain ⟨q, hq, houtcome⟩ := collects_restPass v draft (p.add [])
  have hfound : Found v draft q := by
    refine ⟨⟨[], List.forall_mem_nil _, ?_⟩, ?_⟩
    · rw [hq.blockers, reports, if_pos hpasses, List.append_nil]
      simp [Progress.add, hblockers, blockersOf]
    · rw [hq.validRecordIndices, recordReports, if_pos hpasses]
      simp [Progress.add, hvalid]
  obtain ⟨-, hok⟩ | ⟨-, e, herror⟩ := houtcome
  · exact hfound.ends (hrun.trans (Method.bind_of_ok hok))
  · exact ⟨q, hfound, .inr ⟨e, hrun.trans (Method.bind_of_error herror)⟩⟩

variable (rt v) in
theorem endsFound_guardedPass (hdraft : draft.truthy = true)
    (hblockers : p.blockers = []) (hvalid : p.validRecordIndices = ∅) :
    EndsFound v draft (guardedPass rt v draft startTime) p := by
  cases hstructure : validateStructure v draft with
  | error e =>
    have hpasses : structurePasses v draft = false := by rw [structurePasses, hstructure, Bool.and_false]
    refine ⟨p, found_of_not_passes hpasses hblockers hvalid, .inr ⟨e, ?_⟩⟩
    rw [guardedPass_eq, hstructure]
    rfl
  | ok issues =>
    have hpasses : structurePasses v draft = issues.isEmpty := by
      rw [structurePasses, hstructure, hdraft, Bool.true_and]
    cases issues with
    | nil => exact endsFound_of_passes startTime hblockers hvalid hstructure hpasses
    | cons b issues => exact endsFound_of_blocked startTime (found_of_not_passes hpasses hblockers hvalid) hstructure

theorem validatePass_of_falsy (hdraft : draft.truthy = false) :
    validatePass rt v draft {} =
      finish rt draft (rt.now 0) (({ readings := 1 } : Progress ν).add [missingDraft]) := by
  unfold validatePass
  rw [hdraft]
  rfl

theorem validatePass_of_truthy (hdraft : draft.truthy = true) :
    validatePass rt v draft {} = (tryCatch (guardedPass rt v draft (rt.now 0)) fun error => do
      let duration ← elapsedMs rt (rt.now 0)
      report [internalError s!"Validation failed: {error.message}"]
      buildResult rt draft duration : Pass ν _) { readings := 1 } := by
  unfold validatePass
  rw [hdraft]
  rfl

/-- What the pass throws is reported. -/
theorem validatePass_of_error {e : SdkError} {q : Progress ν} (hdraft : draft.truthy = true)
    (h : guardedPass rt v draft (rt.now 0) { readings := 1 } = .error e q) :
    validatePass rt v draft {} =
      finish rt draft (rt.now 0) (q.add [internalError s!"Validation failed: {e.message}"]) := by
  rw [validatePass_of_truthy hdraft, Method.tryCatch_of_error h]
  rfl

variable (rt v draft) in
theorem endsFound_validatePass : EndsFound v draft (validatePass rt v draft) {} := by
  cases hdraft : draft.truthy with
  | false =>
    have hpasses : structurePasses v draft = false := by rw [structurePasses, hdraft, Bool.false_and]
    have hstart : Found v draft { readings := 1 } := found_of_not_passes hpasses rfl rfl
    have hfound : Found v draft (({ readings := 1 } : Progress ν).add [missingDraft]) := by
      apply hstart.add
      intro b hb
      rw [List.mem_singleton.mp hb]
      exact ⟨rfl, nofun⟩
    exact hfound.ends (validatePass_of_falsy hdraft)
  | true =>
    obtain ⟨q, hq, ⟨r, p', hok, htells⟩ | ⟨e, herror⟩⟩ :=
      endsFound_guardedPass rt v (rt.now 0) hdraft (p := { readings := 1 }) rfl rfl
    · refine ⟨q, hq, .inl ⟨r, p', ?_, htells⟩⟩
      rw [validatePass_of_truthy hdraft, Method.tryCatch_of_ok hok]
    · exact (hq.add (general_internalError _)).ends (validatePass_of_error hdraft herror)

/-- What the result tells. -/
theorem validate_cases {r : DraftValidationResult ν} (h : v.validate rt draft = .ok r) :
    ∃ p, Found v draft p ∧ Tells r p := by
  obtain ⟨q, hq, ⟨r', p', hok, htells⟩ | ⟨e, herror⟩⟩ := endsFound_validatePass rt v draft
  · rw [OfflineDraftValidator.validate, hok] at h
    cases h
    exact ⟨q, hq, htells⟩
  · rw [OfflineDraftValidator.validate, herror] at h
    cases h

/-- A draft whose records can be counted gets a result. -/
theorem exists_result (h : ∀ valid, ∃ counts, recordCounts rt draft valid = .ok counts) :
    ∃ r, v.validate rt draft = .ok r := by
  have hfinish (p : Progress ν) : ∃ r p', finish rt draft (rt.now 0) p = .ok r p' := by
    obtain ⟨_, r, p', -, hok, -⟩ | ⟨e, p', herror, -⟩ := finish_cases rt draft (rt.now 0) p
    · exact ⟨r, p', hok⟩
    · obtain ⟨counts, hcounts⟩ := h p.validRecordIndices.card
      rw [hcounts] at herror
      cases herror
  have hpass : ∃ r p', validatePass rt v draft {} = .ok r p' := by
    cases hdraft : draft.truthy with
    | false =>
      rw [validatePass_of_falsy hdraft]
      exact hfinish _
    | true =>
      cases hrun : guardedPass rt v draft (rt.now 0) { readings := 1 } with
      | ok r p' =>
        refine ⟨r, p', ?_⟩
        rw [validatePass_of_truthy hdraft, Method.tryCatch_of_ok hrun]
      | error e q =>
        rw [validatePass_of_error hdraft hrun]
        exact hfinish _
  obtain ⟨r, p', hok⟩ := hpass
  exact ⟨r, by rw [OfflineDraftValidator.validate, hok]⟩

end Checks

end ZkPayroll.Validation
