import ZkPayroll.Framework.Text
import ZkPayroll.Reconciliation.ReconciliationDiff

/-!
# The status of a reconciliation

`classifyReconciliationStatus` and `applyManualReview` of
`reconciliation/statusClassifier.ts`: what is to be reconciled is given as a
diff, as the entries of one, or as a payload with entries or counts, and has
one of six statuses; a manual review takes the place of the status that the
counts tell. The time of the clock is an argument.

A diff, its entries and its counts have one breakdown (`tallyEntries_eq`,
`ofCounts_eq`), and the classification asks for action exactly where the diff
is not fully reconciled (`requiresAction_iff`). A manual review that is
attached does what it does when it is applied afterwards exactly where it names
a reviewer, has notes and does not escalate (`reviewed_alike_iff`): attached, a
review that escalates asks for no action.
-/

namespace ZkPayroll.Reconciliation

open Framework

/-! ## Data -/

inductive ReconciliationStatus where
  | matched
  /-- `"partial"`. -/
  | partial_
  | mismatched
  | pending
  | failed
  | manually_reviewed
  deriving DecidableEq

/-- How a reviewer settles a mismatch. -/
inductive ResolvedOutcome where
  | accepted_discrepancy
  | pending_settlement
  | escalated
  deriving DecidableEq

structure ManualReviewRecord where
  reviewedBy : String
  reviewedAt : Int
  notes : String
  resolvedOutcome : Option ResolvedOutcome := none
  deriving DecidableEq

structure ReconciliationInputPayload where
  entries : Option (List ReconciliationDiffEntry) := none
  counts : Option (ReconciliationDiffCategory → Option Int) := none
  isFullyReconciled : Option Bool := none
  manualReview : Option ManualReviewRecord := none
  totalRecords : Option Int := none

/-- What `classifyReconciliationStatus` takes. -/
inductive ReconciliationInput where
  | result (r : ReconciliationDiffResult)
  | entries (es : List ReconciliationDiffEntry)
  | payload (p : ReconciliationInputPayload)
  /-- `null` or `undefined`. -/
  | missing

inductive BadgeColor where
  | success
  | warning
  | danger
  | info
  | neutral
  deriving DecidableEq

structure ReconciliationStatusBadge where
  label : String
  color : BadgeColor
  description : String
  deriving DecidableEq

/-- How many items have each status. -/
structure Breakdown where
  total : Int := 0
  matched : Int := 0
  pending : Int := 0
  mismatched : Int := 0
  failed : Int := 0
  unexpected : Int := 0
  deriving DecidableEq

structure ReconciliationClassification where
  status : ReconciliationStatus
  summary : String
  breakdown : Breakdown
  requiresAction : Bool
  badge : ReconciliationStatusBadge
  manualReview : Option ManualReviewRecord := none
  classifiedAt : Int
  deriving DecidableEq

def RECONCILIATION_STATUS_BADGES : ReconciliationStatus → ReconciliationStatusBadge
  | .matched => {
      label := "MATCHED"
      color := .success
      description := "All expected payroll transactions match on-chain ledger records." }
  | .partial_ => {
      label := "PARTIAL"
      color := .warning
      description := "Some transactions are reconciled while remaining items are still pending." }
  | .mismatched => {
      label := "MISMATCHED"
      color := .danger
      description := "Discrepancies detected between expected payouts and on-chain state." }
  | .pending => {
      label := "PENDING"
      color := .info
      description := "Reconciliation is pending completion of on-chain transactions." }
  | .failed => {
      label := "FAILED"
      color := .danger
      description := "One or more transactions failed or rejected on-chain." }
  | .manually_reviewed => {
      label := "MANUALLY REVIEWED"
      color := .neutral
      description := "Reconciliation discrepancies reviewed and approved by an authorized auditor." }

/-! ## The breakdown -/

def tallyCategory (category : ReconciliationDiffCategory) (b : Breakdown) : Breakdown :=
  match category with
  | .match => { b with matched := b.matched + 1 }
  | .still_pending => { b with pending := b.pending + 1 }
  | .failed_mismatch => { b with failed := b.failed + 1 }
  | .amount_mismatch | .missing => { b with mismatched := b.mismatched + 1 }
  | .unexpected => { b with unexpected := b.unexpected + 1 }

/-- The loop over the entries. -/
def tallyEntries (es : List ReconciliationDiffEntry) : Breakdown :=
  es.foldl (fun b e => tallyCategory e.category b) { total := es.length }

/-- The breakdown of a dictionary of counts; one that is not there is zero. -/
def ofCounts (c : ReconciliationDiffCategory → Option Int) : Breakdown :=
  let matched := (c .match).getD 0
  let pending := (c .still_pending).getD 0
  let failed := (c .failed_mismatch).getD 0
  let mismatched := (c .amount_mismatch).getD 0 + (c .missing).getD 0
  let unexpected := (c .unexpected).getD 0
  { total := matched + pending + failed + mismatched + unexpected
    matched := matched
    pending := pending
    mismatched := mismatched
    failed := failed
    unexpected := unexpected }

def extractBreakdown : ReconciliationInput → Breakdown
  | .missing => {}
  | .entries es => tallyEntries es
  | .result r => tallyEntries r.entries
  | .payload p =>
    match p.entries with
    | some es => tallyEntries es
    | none =>
      match p.counts with
      | some c => ofCounts c
      | none => {}

/-! ## The classification -/

/-- The characters at the start of a text that fit in `n` code units; half of a
surrogate pair is left out. -/
def takeUnits : Nat → List Char → List Char
  | _, [] => []
  | n, c :: cs => if (charUnits c).length ≤ n then c :: takeUnits (n - (charUnits c).length) cs else []

def sanitizeIdentifier (id : String) : String :=
  if id = "" then "[unknown]"
  else if (codeUnits id).length > 12 then
    String.ofList (takeUnits 4 id.toList) ++ "..." ++ String.ofList (takeUnits 4 id.toList.reverse).reverse
  else id

def reviewSummary (reviewedBy notes : String) : String :=
  s!"Reconciliation manually reviewed by {sanitizeIdentifier reviewedBy}: {notes}"

/-- A classification that no manual review is attached to. -/
def automated (status : ReconciliationStatus) (summary : String) (breakdown : Breakdown) (requiresAction : Bool)
    (classifiedAt : Int) : ReconciliationClassification where
  status := status
  summary := summary
  breakdown := breakdown
  requiresAction := requiresAction
  badge := RECONCILIATION_STATUS_BADGES status
  classifiedAt := classifiedAt

/-- The status that the counts tell. -/
def classifyBreakdown (b : Breakdown) (classifiedAt : Int) : ReconciliationClassification :=
  if b.total = 0 then
    automated .pending "Zero payroll records evaluated. Awaiting batch execution." b false classifiedAt
  else if b.failed > 0 then
    automated .failed
      (s!"{b.failed} of {b.total} transaction(s) failed or reverted on-chain. " ++ "Immediate investigation required.")
      b true classifiedAt
  else if b.mismatched > 0 ∨ b.unexpected > 0 then
    automated .mismatched
      s!"Detected {b.mismatched + b.unexpected} reconciliation discrepanc(ies) across {b.total} records."
      b true classifiedAt
  else if b.pending = b.total then
    automated .pending s!"All {b.total} transaction(s) are currently pending on-chain confirmation." b false classifiedAt
  else if b.pending > 0 ∧ b.matched > 0 then
    automated .partial_ s!"Partially reconciled: {b.matched} matched, {b.pending} still in-flight." b false classifiedAt
  else if b.matched = b.total then
    automated .matched s!"All {b.total} payroll transaction(s) matched on-chain records." b false classifiedAt
  else
    automated .partial_ s!"Reconciliation in progress ({b.matched}/{b.total} confirmed)." b false classifiedAt

/-- `input.manualReview` of an object. -/
def ReconciliationInput.manualReview : ReconciliationInput → Option ManualReviewRecord
  | .payload p => p.manualReview
  | _ => none

/-- `classifyReconciliationStatus(input, { manualReview })`. -/
def classifyReconciliationStatus (classifiedAt : Int) (input : ReconciliationInput)
    (manualReview : Option ManualReviewRecord := none) : ReconciliationClassification :=
  -- a review without a reviewer does not count
  match (manualReview.or input.manualReview).filter (·.reviewedBy ≠ "") with
  | some review =>
    { status := .manually_reviewed
      summary := reviewSummary review.reviewedBy review.notes
      breakdown := extractBreakdown input
      requiresAction := false
      badge := RECONCILIATION_STATUS_BADGES .manually_reviewed
      manualReview := some review
      classifiedAt := classifiedAt }
  | none =>
    match input with
    | .missing =>
      automated .pending "No reconciliation data available. Reconciliation is pending." {} false classifiedAt
    | _ => classifyBreakdown (extractBreakdown input) classifiedAt

/-- `applyManualReview`; of the review, `reviewedAt` is not read. -/
def applyManualReview (now : Int) (classification : ReconciliationClassification) (review : ManualReviewRecord) :
    Except String ReconciliationClassification :=
  if review.reviewedBy = "" ∨ review.notes = "" then
    .error "Manual review requires both reviewedBy and notes"
  else
    .ok { classification with
      status := .manually_reviewed
      summary := reviewSummary review.reviewedBy review.notes
      requiresAction := review.resolvedOutcome = some .escalated
      badge := RECONCILIATION_STATUS_BADGES .manually_reviewed
      manualReview := some {
        reviewedBy := review.reviewedBy
        reviewedAt := now
        notes := review.notes
        resolvedOutcome := some (review.resolvedOutcome.getD .accepted_discrepancy) }
      classifiedAt := now }

/-! ## One breakdown -/

/-- How many entries of the category there are. -/
def countOf (es : List ReconciliationDiffEntry) (category : ReconciliationDiffCategory) : Nat :=
  es.countP (·.category = category)

/-- The breakdown of entries by their categories. -/
def breakdownOf (es : List ReconciliationDiffEntry) : Breakdown where
  total := es.length
  matched := countOf es .match
  pending := countOf es .still_pending
  mismatched := countOf es .amount_mismatch + countOf es .missing
  failed := countOf es .failed_mismatch
  unexpected := countOf es .unexpected

variable (es : List ReconciliationDiffEntry)

theorem countOf_concat (e : ReconciliationDiffEntry) (category : ReconciliationDiffCategory) :
    countOf (es ++ [e]) category = countOf es category + if e.category = category then 1 else 0 := by
  rw [countOf, countOf, List.countP_append, List.countP_singleton]
  simp

/-- The loop, started at any total. -/
theorem foldl_tallyCategory (total : Int) (es : List ReconciliationDiffEntry) :
    es.foldl (fun b e => tallyCategory e.category b) { total := total } = { breakdownOf es with total := total } := by
  induction es using List.reverseRecOn with
  | nil => rfl
  | append_singleton es e ih =>
    rw [List.foldl_append, List.foldl_cons, List.foldl_nil, ih]
    simp only [breakdownOf, countOf_concat, tallyCategory]
    cases e.category <;> simp <;> omega

theorem tallyEntries_eq : tallyEntries es = breakdownOf es :=
  foldl_tallyCategory es.length es

/-- Every entry has one of the categories. -/
theorem length_eq_counts :
    es.length = countOf es .match + countOf es .still_pending + countOf es .failed_mismatch +
      countOf es .amount_mismatch + countOf es .missing + countOf es .unexpected := by
  induction es using List.reverseRecOn with
  | nil => rfl
  | append_singleton es e ih =>
    rw [List.length_append, ih]
    simp only [countOf_concat]
    cases e.category <;> simp <;> omega

theorem ofCounts_eq :
    ofCounts (fun category => some (countOf es category : Int)) = breakdownOf es := by
  have hlen := length_eq_counts es
  simp only [ofCounts, breakdownOf, Option.getD_some, Breakdown.mk.injEq, and_true]
  omega

/-! ## Action -/

theorem requiresAction_classifyBreakdown (b : Breakdown) (now : Int) :
    (classifyBreakdown b now).requiresAction = true ↔
      b.total ≠ 0 ∧ (b.failed > 0 ∨ b.mismatched > 0 ∨ b.unexpected > 0) := by
  unfold classifyBreakdown
  split
  · rename_i h
    simp [automated, h]
  split
  · rename_i h₀ h
    simp [automated, h₀, h]
  split
  · rename_i h₀ h₁ h
    simp [automated, h₀, h]
  · rename_i h₀ h₁ h
    have hfalse : ∀ (p q r : Prop) [Decidable p] [Decidable q] [Decidable r] (s₁ s₂ s₃ s₄ : ReconciliationStatus)
        (t₁ t₂ t₃ t₄ : String), (if p then automated s₁ t₁ b false now else if q then automated s₂ t₂ b false now
          else if r then automated s₃ t₃ b false now else automated s₄ t₄ b false now).requiresAction = false := by
      intros
      split
      · rfl
      split
      · rfl
      split <;> rfl
    rw [hfalse]
    simp only [Bool.false_eq_true, false_iff, not_and, not_or]
    exact fun _ => ⟨h₁, not_or.mp h⟩

theorem countOf_eq_zero {es : List ReconciliationDiffEntry} {category : ReconciliationDiffCategory} :
    countOf es category = 0 ↔ ∀ e ∈ es, e.category ≠ category := by
  simp [countOf, List.countP_eq_zero]

/-- The entries ask for action exactly where one is neither a match nor
pending. -/
theorem requiresAction_breakdownOf (now : Int) :
    (classifyBreakdown (breakdownOf es) now).requiresAction =
      !es.all fun e => e.category = .match || e.category = .still_pending := by
  have hlen := length_eq_counts es
  have hnone : (∀ e ∈ es, e.category = .match ∨ e.category = .still_pending) ↔
      countOf es .failed_mismatch = 0 ∧ countOf es .amount_mismatch = 0 ∧ countOf es .missing = 0 ∧
        countOf es .unexpected = 0 := by
    simp only [countOf_eq_zero, ← forall_and]
    refine forall₂_congr fun e _ => ?_
    cases e.category <;> simp
  rw [Bool.eq_iff_iff, requiresAction_classifyBreakdown, Bool.not_eq_true', ← Bool.not_eq_true, List.all_eq_true]
  simp only [Bool.or_eq_true, decide_eq_true_eq, hnone, breakdownOf]
  omega

/-! ## Diffs -/

/-- The diff as a payload, with a review. -/
def ReconciliationDiffResult.toPayload (r : ReconciliationDiffResult) (review : Option ManualReviewRecord := none) :
    ReconciliationInputPayload where
  entries := some r.entries
  counts := some fun category => some (r.counts category : Int)
  isFullyReconciled := some r.isFullyReconciled
  manualReview := review

/-- The counts of the diff as a payload. -/
def ReconciliationDiffResult.countsOnly (r : ReconciliationDiffResult) : ReconciliationInputPayload where
  counts := some fun category => some (r.counts category : Int)

/-- However the diff is given, action is required exactly if it is not fully
reconciled. -/
structure ActionTold (now : Int) (r : ReconciliationDiffResult) : Prop where
  result : (classifyReconciliationStatus now (.result r)).requiresAction = !r.isFullyReconciled
  entries : (classifyReconciliationStatus now (.entries r.entries)).requiresAction = !r.isFullyReconciled
  payload : (classifyReconciliationStatus now (.payload r.toPayload)).requiresAction = !r.isFullyReconciled
  counts : (classifyReconciliationStatus now (.payload r.countsOnly)).requiresAction = !r.isFullyReconciled

theorem actionTold (now generatedAt : Int) (expected : PayrollExecutionSummary)
    (observed : List ObservedPaymentState) : ActionTold now (generateReconciliationDiff generatedAt expected observed) := by
  have hcounts : ∀ r : ReconciliationDiffResult, r.counts = countOf r.entries →
      ofCounts (fun category => some (r.counts category : Int)) = breakdownOf r.entries := by
    intro r hr
    rw [hr, ofCounts_eq]
  have hentries : ∀ es : List ReconciliationDiffEntry, (classifyBreakdown (tallyEntries es) now).requiresAction =
      !es.all fun e => e.category = .match || e.category = .still_pending := by
    intro es
    rw [tallyEntries_eq, requiresAction_breakdownOf]
  refine ⟨hentries _, hentries _, hentries _, ?_⟩
  have hbreakdown := hcounts (generateReconciliationDiff generatedAt expected observed) rfl
  show (classifyBreakdown (ofCounts _) now).requiresAction = _
  rw [hbreakdown, requiresAction_breakdownOf]
  rfl

/-! ## Reviews -/

/-- The same status, breakdown and need for action. -/
def Alike (c c' : ReconciliationClassification) : Prop :=
  c.status = c'.status ∧ c.breakdown = c'.breakdown ∧ c.requiresAction = c'.requiresAction

instance (c c' : ReconciliationClassification) : Decidable (Alike c c') := inferInstanceAs (Decidable (_ ∧ _ ∧ _))

/-- The review does the same attached to the diff, in the options or in the
payload, and applied to its classification. -/
def ReviewedAlike (now reviewedAt : Int) (r : ReconciliationDiffResult) (review : ManualReviewRecord) : Prop :=
  ∃ applied, applyManualReview reviewedAt (classifyReconciliationStatus now (.result r)) review = .ok applied ∧
    Alike (classifyReconciliationStatus now (.result r) (some review)) applied ∧
    Alike (classifyReconciliationStatus now (.payload (r.toPayload (some review)))) applied

/-- The review names a reviewer, has notes and does not escalate. -/
structure ManualReviewRecord.Settles (review : ManualReviewRecord) : Prop where
  reviewedBy : review.reviewedBy ≠ ""
  notes : review.notes ≠ ""
  resolvedOutcome : review.resolvedOutcome ≠ some .escalated

/-- A review by someone supersedes what the counts tell. -/
theorem classify_reviewed (now : Int) (input : ReconciliationInput) (manualReview : Option ManualReviewRecord)
    {review : ManualReviewRecord} (h : manualReview.or input.manualReview = some review) (hby : review.reviewedBy ≠ "") :
    (classifyReconciliationStatus now input manualReview).status = .manually_reviewed ∧
      (classifyReconciliationStatus now input manualReview).breakdown = extractBreakdown input ∧
      (classifyReconciliationStatus now input manualReview).requiresAction = false := by
  have hfilter : (manualReview.or input.manualReview).filter (·.reviewedBy ≠ "") = some review := by
    rw [h, Option.filter_some, if_pos (by simpa using hby)]
  unfold classifyReconciliationStatus
  rw [hfilter]
  exact ⟨rfl, rfl, rfl⟩

theorem breakdown_classifyBreakdown (b : Breakdown) (now : Int) : (classifyBreakdown b now).breakdown = b := by
  unfold classifyBreakdown
  repeat' split
  all_goals rfl

theorem reviewedAlike_iff_settles (now reviewedAt : Int) (r : ReconciliationDiffResult) (review : ManualReviewRecord) :
    ReviewedAlike now reviewedAt r review ↔ review.Settles := by
  have happly : ∀ applied,
      applyManualReview reviewedAt (classifyReconciliationStatus now (.result r)) review = .ok applied ↔
        (review.reviewedBy ≠ "" ∧ review.notes ≠ "") ∧ applyManualReview reviewedAt
          (classifyReconciliationStatus now (.result r)) review = .ok applied := by
    intro applied
    unfold applyManualReview
    split
    · rename_i h
      exact iff_of_false nofun fun h' => h.elim h'.1.1 h'.1.2
    · rename_i h
      exact (and_iff_right (not_or.mp h)).symm
  constructor
  · rintro ⟨applied, hok, ⟨-, -, haction⟩, -⟩
    obtain ⟨⟨hby, hnotes⟩, hok⟩ := (happly applied).mp hok
    refine ⟨hby, hnotes, fun hescalated => ?_⟩
    rw [applyManualReview, if_neg (not_or.mpr ⟨hby, hnotes⟩), Except.ok.injEq] at hok
    rw [(classify_reviewed _ _ _ rfl hby).2.2, ← hok] at haction
    simp [hescalated] at haction
  · intro h
    obtain ⟨hs, hb, ha⟩ := classify_reviewed now (.result r) (some review) rfl h.reviewedBy
    obtain ⟨hs', hb', ha'⟩ := classify_reviewed now (.payload (r.toPayload (some review))) none rfl
      h.reviewedBy
    have hplain : (classifyReconciliationStatus now (.result r)).breakdown = tallyEntries r.entries :=
      breakdown_classifyBreakdown _ now
    have hquiet : decide (review.resolvedOutcome = some .escalated) = false := by simpa using h.resolvedOutcome
    refine ⟨_, if_neg (not_or.mpr ⟨h.reviewedBy, h.notes⟩), ⟨hs, ?_, ?_⟩, hs', ?_, ?_⟩
    · rw [hb, hplain]; rfl
    · rw [ha, hquiet]
    · rw [hb', hplain]; rfl
    · rw [ha', hquiet]

/-- Attaching a review is applying it exactly where the review settles the diff;
and without a review, action is required exactly where the diff is not fully
reconciled. -/
theorem reviewed_alike_iff (now reviewedAt : Int) :
    (∀ r review, ReviewedAlike now reviewedAt r review ↔ review.Settles) ∧
      ∀ generatedAt expected observed, ActionTold now (generateReconciliationDiff generatedAt expected observed) :=
  ⟨reviewedAlike_iff_settles now reviewedAt, actionTold now⟩

/-- The diff of a payment that is not found on chain. -/
def lostPayment : ReconciliationDiffResult :=
  generateReconciliationDiff 1
    { results := [{ recipient := "GA", amount := 5, asset := "native", status := .success }] } []

def escalation : ManualReviewRecord where
  reviewedBy := "GADMIN"
  reviewedAt := 2
  notes := "Escalated"
  resolvedOutcome := some .escalated

/-- A review that escalates asks for action only where it is applied. -/
theorem escalated_without_action :
    (classifyReconciliationStatus 3 (.result lostPayment) (some escalation)).requiresAction = false ∧
      (applyManualReview 3 (classifyReconciliationStatus 3 (.result lostPayment)) escalation).toOption.map
        (·.requiresAction) = some true ∧ ¬ReviewedAlike 3 3 lostPayment escalation :=
  ⟨by decide +kernel, by decide +kernel, fun h => ((reviewedAlike_iff_settles _ _ _ _).mp h).resolvedOutcome rfl⟩

end ZkPayroll.Reconciliation
