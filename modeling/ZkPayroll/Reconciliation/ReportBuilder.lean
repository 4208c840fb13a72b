import Mathlib.Data.List.Dedup
import ZkPayroll.Reconciliation.Accounting

/-!
# The liability report

`PayrollLiabilityReportBuilder` of `reconciliation/reportBuilder.ts`, without
the texts in which the report is written. A period should be closeable only if
nothing is left to resolve (`Resolved`), that is if the input leaves nothing
(`Cleared`); the checks that the builder makes (`Blocked`) leave some of this
open, for some statuses (`closeable_iff`).
-/

namespace ZkPayroll.Reconciliation

open Framework

/-! ## Data -/

inductive PayrollStatus where
  | draft
  | locked
  | settled
  | cancelled
  deriving DecidableEq

inductive ReadinessBlocker where
  | unreserved_liabilities
  | pending_settlement
  | active_refunds
  | disputed_hold
  | unclosed_period
  | missing_reservations
  deriving DecidableEq

def ReadinessBlocker.name : ReadinessBlocker → String
  | .unreserved_liabilities => "unreserved_liabilities"
  | .pending_settlement => "pending_settlement"
  | .active_refunds => "active_refunds"
  | .disputed_hold => "disputed_hold"
  | .unclosed_period => "unclosed_period"
  | .missing_reservations => "missing_reservations"

/-- An amount for a recipient. -/
structure RecipientAmount where
  recipient : String
  amount : Int

/-- The arguments of `buildReport`. -/
structure ReportInput where
  employer : String
  period : String
  status : PayrollStatus
  reservations : List RecipientAmount
  settled : List RecipientAmount
  refunded : List RecipientAmount
  unresolvedHolds : List RecipientAmount
  disputes : List RecipientAmount
  observedPayments : List ObservedPaymentState

structure EmployerLiabilitySummary where
  employer : String
  totalReserved : Int
  totalSettled : Int
  totalRefunded : Int
  totalUnresolvedHolds : Int
  totalDisputed : Int
  recipientCount : Nat
  blockers : List ReadinessBlocker

structure AssetLiabilityBreakdown where
  asset : String
  reserved : Int
  settled : Int
  refunded : Int
  unresolvedHolds : Int
  disputed : Int

/-- Whether the period can be closed. -/
structure Readiness where
  isCloseable : Bool
  blockers : List ReadinessBlocker
  summary : String

structure ReconciliationReport where
  employerSummaries : List EmployerLiabilitySummary
  assetBreakdowns : List AssetLiabilityBreakdown
  readiness : Readiness

/-! ## The report -/

/-- The sum of the amounts. -/
def total (amounts : List RecipientAmount) : Int := (amounts.map RecipientAmount.amount).sum

/-- What a reservation expects on chain. -/
def expectedPayment (r : RecipientAmount) : PaymentExecutionOutcome where
  recipient := r.recipient
  amount := r.amount
  asset := "native"
  status := .success

/-- The differences that the report is built from. -/
def reconciliationDiff (now : Int) (i : ReportInput) : ReconciliationDiffResult :=
  generateReconciliationDiff now ⟨i.reservations.map expectedPayment⟩ i.observedPayments

variable (i : ReportInput)

def calculateEmployerSummary : EmployerLiabilitySummary :=
  let recipients := (i.reservations ++ i.settled ++ i.refunded ++ i.unresolvedHolds ++ i.disputes).map
    RecipientAmount.recipient
  let blocked := (i.unresolvedHolds ++ i.disputes).any fun r => r.amount > 0
  { employer := i.employer
    totalReserved := total i.reservations
    totalSettled := total i.settled
    totalRefunded := total i.refunded
    totalUnresolvedHolds := total i.unresolvedHolds
    totalDisputed := total i.disputes
    recipientCount := recipients.dedup.length
    blockers := (if blocked then [.disputed_hold] else []) ++
      (if total i.unresolvedHolds > 0 then [.unreserved_liabilities] else []) }

/-- All amounts are of the asset `native`. -/
def calculateAssetBreakdowns : List AssetLiabilityBreakdown :=
  [{ asset := "native"
     reserved := total i.reservations
     settled := total i.settled
     refunded := total i.refunded
     unresolvedHolds := total i.unresolvedHolds
     disputed := total i.disputes }]

def calculateReadinessBlockers (status : PayrollStatus) (totalReserved totalSettled _totalRefunded
    totalUnresolvedHolds totalDisputed : Int) (diff : ReconciliationDiffResult) : List ReadinessBlocker :=
  (if status = .draft ∨ status = .locked then
    (if totalUnresolvedHolds > 0 then [.unreserved_liabilities] else []) ++
    (if totalDisputed > 0 then [.disputed_hold] else []) ++
    (if totalReserved > totalSettled ∧ totalSettled > 0 then [.pending_settlement] else [])
  else []) ++
  (if diff.counts .unexpected > 0 ∨ diff.counts .missing > 0 then [.unclosed_period] else []) ++
  (if status = .draft ∧ totalReserved > 0 then [.missing_reservations] else [])

/-- The description of a blocker, which is its name where there is none. -/
def blockerDescription : ReadinessBlocker → String
  | .pending_settlement => "Pending settlement on-chain"
  | .disputed_hold => "Disputed holds requiring resolution"
  | .unclosed_period => "Period not yet closed - pending payments exist"
  | .missing_reservations => "Missing reservation records"
  | b => b.name

def generateReadinessSummary (blockers : List ReadinessBlocker) (isCloseable : Bool) : String :=
  if blockers = [] then
    if isCloseable then "Period is closeable - all liabilities resolved." else "Period is clear for operations."
  else
    "Period " ++ (if isCloseable then "is closeable" else "has blockers") ++ ": " ++
      "; ".intercalate (blockers.map blockerDescription)

def buildReport (now : Int) (i : ReportInput) : ReconciliationReport :=
  let blockers := calculateReadinessBlockers i.status (total i.reservations) (total i.settled) (total i.refunded)
    (total i.unresolvedHolds) (total i.disputes) (reconciliationDiff now i)
  let isCloseable := decide (blockers = [])
  { employerSummaries := [calculateEmployerSummary i]
    assetBreakdowns := calculateAssetBreakdowns i
    readiness :=
      { isCloseable := isCloseable
        blockers := blockers
        summary := generateReadinessSummary blockers isCloseable } }

/-! ## When a period is closeable -/

/-- Nothing is left to resolve. -/
structure Resolved (now : Int) (i : ReportInput) : Prop where
  holds : total i.unresolvedHolds = 0
  disputes : total i.disputes = 0
  covered : total i.reservations ≤ total i.settled + total i.refunded
  diff : ∀ c ∈ [ReconciliationDiffCategory.missing, .unexpected, .failed_mismatch, .amount_mismatch],
    (reconciliationDiff now i).counts c = 0

/-- Nothing in the input is to be resolved: the newest observation for each
reservation confirms its amount, and no other payment is on chain. -/
structure Cleared (i : ReportInput) : Prop where
  holds : total i.unresolvedHolds = 0
  disputes : total i.disputes = 0
  covered : total i.reservations ≤ total i.settled + total i.refunded
  paid : ∀ r ∈ i.reservations, ∃ o,
    (observedByKey i.observedPayments).lookup (matchKey r.recipient "native") = some o ∧
      o.onChainStatus = .confirmed ∧ ∀ amount ∈ o.amount, amount = r.amount
  noOther : ∀ o ∈ i.observedPayments, o.onChainStatus ≠ .not_found →
    ∃ r ∈ i.reservations, o.key = some (matchKey r.recipient "native")

/-- Some reservation has no record on chain, or some record no reservation. -/
def Unclosed : Prop :=
  (∃ r ∈ i.reservations, ∀ o,
    (observedByKey i.observedPayments).lookup (matchKey r.recipient "native") = some o →
      o.onChainStatus = .not_found) ∨
  ∃ o ∈ i.observedPayments, o.onChainStatus ≠ .not_found ∧
    ∀ r ∈ i.reservations, o.key ≠ some (matchKey r.recipient "native")

/-- What the builder checks. -/
def Blocked : Prop :=
  Unclosed i ∨ i.status = .draft ∧ 0 < total i.reservations ∨
    (i.status = .draft ∨ i.status = .locked) ∧ (0 < total i.unresolvedHolds ∨ 0 < total i.disputes ∨
      0 < total i.settled ∧ total i.settled < total i.reservations)

variable {i : ReportInput} {now : Int}

theorem counts_pos {c : ReconciliationDiffCategory} :
    0 < (reconciliationDiff now i).counts c ↔ ∃ e ∈ (reconciliationDiff now i).entries, e.category = c := by
  have hcount : (reconciliationDiff now i).counts c =
      (reconciliationDiff now i).entries.countP (·.category = c) := rfl
  rw [hcount, List.countP_pos_iff]
  simp only [decide_eq_true_iff]

variable {observed : Option ObservedPaymentState} {outcome : PaymentExecutionOutcome}

theorem classify_eq_missing (hs : outcome.status = .success) :
    (classify outcome observed).1 = .missing ↔ ∀ o, observed = some o → o.onChainStatus = .not_found := by
  unfold classify
  rw [hs, if_neg (by decide)]
  cases observed with
  | none => simp
  | some o =>
    by_cases ho : o.onChainStatus = .not_found
    · simp [ho]
    · simp only [if_neg ho, Option.some.injEq, forall_eq']
      refine iff_of_false ?_ ho
      split
      · simp
      · split <;> simp

/-- A successful outcome agrees with a confirmed observation of its amount. -/
theorem classify_eq_match (hs : outcome.status = .success) :
    (classify outcome observed).1 = .match ↔
      ∃ o, observed = some o ∧ o.onChainStatus = .confirmed ∧ ∀ amount ∈ o.amount, amount = outcome.amount := by
  unfold classify
  rw [hs, if_neg (by decide)]
  cases observed with
  | none => simp
  | some o =>
    simp only [Option.some.injEq, exists_eq_left']
    cases ho : o.onChainStatus with
    | not_found => simp
    | failed => simp
    | confirmed =>
      simp only [reduceCtorEq, if_false, true_and]
      split
      · rename_i hne
        cases hne
      · split
        · rename_i hex
          refine iff_of_false nofun fun hall => ?_
          obtain ⟨amount, hmem, hne⟩ := hex
          exact hne (hall amount hmem)
        · rename_i hno
          refine iff_of_true rfl fun amount hmem => ?_
          by_contra hne
          exact hno ⟨amount, hmem, hne⟩

/-- A successful outcome is not pending. -/
theorem classify_ne_still_pending (hs : outcome.status = .success)
    : (classify outcome observed).1 ≠ .still_pending := by
  unfold classify
  rw [hs, if_neg (by decide)]
  split
  · simp
  · split
    · simp
    · split
      · simp
      · split <;> simp

/-- No entry is counted as one to be resolved when each agrees or is pending. -/
theorem counts_eq_zero_iff :
    (∀ c ∈ [ReconciliationDiffCategory.missing, .unexpected, .failed_mismatch, .amount_mismatch],
      (reconciliationDiff now i).counts c = 0) ↔
    ∀ e ∈ (reconciliationDiff now i).entries, e.category = .match ∨ e.category = .still_pending := by
  constructor
  · intro h e he
    have hcount : ∀ c ∈ [ReconciliationDiffCategory.missing, .unexpected, .failed_mismatch, .amount_mismatch],
        e.category ≠ c := by
      intro c hc heq
      exact absurd (counts_pos.mpr ⟨e, he, heq⟩) (by rw [h c hc]; decide)
    cases hcat : e.category with
    | «match» => exact .inl rfl
    | still_pending => exact .inr rfl
    | _ => exact absurd hcat (hcount _ (by decide))
  · intro h c hc
    refine Nat.eq_zero_of_not_pos fun hpos => ?_
    obtain ⟨e, he, rfl⟩ := counts_pos.mp hpos
    rcases h e he with hcat | hcat <;>
    · rw [hcat] at hc
      exact absurd hc (by decide)

/-- The diff of the reservations is without such an entry when the input is. -/
theorem quiet_iff :
    (∀ e ∈ (reconciliationDiff now i).entries, e.category = .match ∨ e.category = .still_pending) ↔
      (∀ r ∈ i.reservations, ∃ o,
        (observedByKey i.observedPayments).lookup (matchKey r.recipient "native") = some o ∧
          o.onChainStatus = .confirmed ∧ ∀ amount ∈ o.amount, amount = r.amount) ∧
      ∀ o ∈ i.observedPayments, o.onChainStatus ≠ .not_found →
        ∃ r ∈ i.reservations, o.key = some (matchKey r.recipient "native") := by
  constructor
  · intro h
    refine ⟨fun r hr => ?_, fun o ho hchain => ?_⟩
    · rcases h _ (mem_entries_diff.mpr (.inl ⟨_, List.mem_map_of_mem hr, rfl⟩)) with hcat | hcat
      · exact (classify_eq_match rfl).mp hcat
      · exact absurd hcat (classify_ne_still_pending rfl)
    · by_contra hno
      have hkey : ∀ outcome ∈ i.reservations.map expectedPayment, o.key ≠ some outcome.key := by
        intro outcome hmem heq
        obtain ⟨r, hr, rfl⟩ := List.mem_map.mp hmem
        exact hno ⟨r, hr, heq⟩
      rcases h _ (mem_entries_diff.mpr (.inr ⟨o, ho, ⟨hchain, hkey⟩, rfl⟩)) with hcat | hcat <;> cases hcat
  · intro h e he
    obtain ⟨hpaid, hother⟩ := h
    rcases mem_entries_diff.mp he with ⟨outcome, hmem, rfl⟩ | ⟨o, ho, ⟨hchain, hkey⟩, rfl⟩
    · obtain ⟨r, hr, rfl⟩ := List.mem_map.mp hmem
      exact .inl ((classify_eq_match rfl).mpr (hpaid r hr))
    · obtain ⟨r, hr, heq⟩ := hother o ho hchain
      exact absurd heq (hkey _ (List.mem_map_of_mem hr))

theorem resolved_iff_cleared : Resolved now i ↔ Cleared i := by
  constructor
  · intro h
    obtain ⟨hpaid, hother⟩ := quiet_iff.mp (counts_eq_zero_iff.mp h.diff)
    exact ⟨h.holds, h.disputes, h.covered, hpaid, hother⟩
  · intro h
    exact ⟨h.holds, h.disputes, h.covered, counts_eq_zero_iff.mpr (quiet_iff.mpr ⟨h.paid, h.noOther⟩)⟩

theorem counts_pos_iff_unclosed :
    (0 < (reconciliationDiff now i).counts .unexpected ∨ 0 < (reconciliationDiff now i).counts .missing) ↔
      Unclosed i := by
  rw [counts_pos, counts_pos, or_comm]
  refine or_congr ⟨?_, ?_⟩ ⟨?_, ?_⟩
  · intro h
    obtain ⟨e, he, hc⟩ := h
    rcases mem_entries_diff.mp he with ⟨outcome, hmem, rfl⟩ | ⟨o, -, -, rfl⟩
    · obtain ⟨r, hr, rfl⟩ := List.mem_map.mp hmem
      exact ⟨r, hr, (classify_eq_missing rfl).mp hc⟩
    · cases hc
  · intro h
    obtain ⟨r, hr, hnone⟩ := h
    refine ⟨_, mem_entries_diff.mpr (.inl ⟨_, List.mem_map_of_mem hr, rfl⟩), ?_⟩
    exact (classify_eq_missing rfl).mpr hnone
  · intro h
    obtain ⟨e, he, hc⟩ := h
    rcases mem_entries_diff.mp he with ⟨outcome, hmem, rfl⟩ | ⟨o, ho, ⟨hchain, hkey⟩, rfl⟩
    · exact absurd hc (classify_ne_unexpected outcome _)
    · exact ⟨o, ho, hchain, fun r hr => hkey _ (List.mem_map_of_mem hr)⟩
  · intro h
    obtain ⟨o, ho, hchain, hkey⟩ := h
    refine ⟨_, mem_entries_diff.mpr (.inr ⟨o, ho, ⟨hchain, fun outcome hmem => ?_⟩, rfl⟩), rfl⟩
    obtain ⟨r, hr, rfl⟩ := List.mem_map.mp hmem
    exact hkey r hr

theorem isCloseable_iff : (buildReport now i).readiness.isCloseable = true ↔ ¬ Blocked i := by
  have hnil {c : Prop} [Decidable c] {b : ReadinessBlocker} : (if c then [b] else []) = [] ↔ ¬ c := by
    split <;> simp [*]
  have hblockers : (buildReport now i).readiness.isCloseable = true ↔
      calculateReadinessBlockers i.status (total i.reservations) (total i.settled) (total i.refunded)
        (total i.unresolvedHolds) (total i.disputes) (reconciliationDiff now i) = [] := decide_eq_true_iff
  rw [hblockers, calculateReadinessBlockers, List.append_eq_nil_iff, List.append_eq_nil_iff, hnil, hnil,
    counts_pos_iff_unclosed, Blocked]
  by_cases hstatus : i.status = .draft ∨ i.status = .locked
  · rw [if_pos hstatus, List.append_eq_nil_iff, List.append_eq_nil_iff, hnil, hnil, hnil]
    constructor
    · intro h hblocked
      obtain ⟨⟨⟨⟨hholds, hdisputes⟩, hpending⟩, hclosed⟩, hreserved⟩ := h
      rcases hblocked with hu | hr | ⟨-, hh | hd | hp⟩
      · exact hclosed hu
      · exact hreserved hr
      · exact hholds hh
      · exact hdisputes hd
      · exact hpending ⟨hp.2, hp.1⟩
    · intro h
      exact ⟨⟨⟨⟨fun hh => h (.inr (.inr ⟨hstatus, .inl hh⟩)), fun hd => h (.inr (.inr ⟨hstatus, .inr (.inl hd)⟩))⟩,
        fun hp => h (.inr (.inr ⟨hstatus, .inr (.inr ⟨hp.2, hp.1⟩)⟩))⟩, fun hu => h (.inl hu)⟩,
        fun hr => h (.inr (.inl hr))⟩
  · rw [if_neg hstatus]
    constructor
    · intro h hblocked
      rcases hblocked with hu | hr | ⟨hst, -⟩
      · exact h.1.2 hu
      · exact h.2 hr
      · exact hstatus hst
    · intro h
      exact ⟨⟨rfl, fun hu => h (.inl hu)⟩, fun hr => h (.inr (.inl hr))⟩

/-- A closeable period is resolved exactly where the input leaves nothing to
resolve, or the builder's own checks hold it back. -/
theorem closeable_iff (now : Int) (i : ReportInput) :
    ((buildReport now i).readiness.isCloseable = true → Resolved now i) ↔ Cleared i ∨ Blocked i := by
  rw [isCloseable_iff, resolved_iff_cleared, or_comm, or_iff_not_imp_left]

/-- A settled period with a hold and a dispute, whose only payment failed. -/
theorem unresolved_closeable : ∃ i : ReportInput, (buildReport 0 i).readiness.isCloseable = true ∧ ¬ Resolved 0 i :=
  ⟨⟨"E", "2024-01", .settled, [⟨"G", 5⟩], [], [], [⟨"G", 5⟩], [⟨"G", 5⟩],
      [⟨"G", none, some "native", none, .failed, 1⟩]⟩,
    by decide +kernel, fun h => absurd h.holds (by decide)⟩

end ZkPayroll.Reconciliation
