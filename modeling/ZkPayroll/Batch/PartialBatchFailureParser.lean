import Mathlib.Algebra.Order.Field.Rat
import Mathlib.Data.Rat.Floor
import Mathlib.Tactic.Linarith
import ZkPayroll.Framework.Grouping

/-!
# Partial failures of a batch

`parsePartialBatchFailure` of `batch/partialBatchFailureParser.ts`: the items
of a batch, grouped by their outcomes, with a code for the whole batch and a
summary. The success rate is computed with exact fractions, and `now` is what
`Date.now()` returns.

The summary and the code are counted apart: an item that timed out is pending
for the code (`classifyBatchFailure`) and is in no count of the summary, an item
that was skipped is no failure to either, and a partial item is taken off the
successes. `consistent_iff` says for which batches the result is consistent.
-/

namespace ZkPayroll.Batch

open Framework

/-! ## Data -/

inductive BatchItemOutcome where
  | succeeded
  | failed
  /-- `"partial"`. -/
  | partial_
  | skipped
  | pending
  | timeout
  deriving DecidableEq

inductive BatchFailureCode where
  | ALL_SUCCEEDED
  | ALL_FAILED
  | PARTIAL_FAILURE
  | TIMEOUT_REACHED
  | INSUFFICIENT_FUNDS
  | INVALID_RECIPIENT
  | RATE_LIMIT_EXCEEDED
  | CONTRACT_REVERTED
  | UNKNOWN_ERROR
  deriving DecidableEq

structure BatchItem where
  itemNumber : Int
  employeeId : Option String := none
  txHash : Option String := none
  outcome : BatchItemOutcome
  error : Option String := none
  executedAt : Option Int := none

structure PartialBatchFailureSummary where
  total : Nat
  succeededCount : Nat
  failedCount : Nat
  pendingCount : Nat
  skippedCount : Nat
  successRate : ℚ
  allSucceeded : Bool
  allFailed : Bool
  hasRetryableFailures : Bool
  mostCommonFailureCode : Option String

structure ParsedPartialBatchFailure where
  code : BatchFailureCode
  summary : PartialBatchFailureSummary
  groups : BatchItemOutcome → List BatchItem
  primaryFailureCode : Option String
  parsedAt : Int

/-- The option that the parser uses: it reads `redactEmployeeId` and does
nothing with it, and `redactErrors` is not read. -/
structure PartialBatchFailureParserOptions where
  treatTimeoutAsRetryable : Option Bool := none

/-! ## The parser -/

/-- `error.match(/^([A-Z_]+):/)`, what is in the parentheses. -/
def codeOf (error : String) : Option String :=
  let code := error.toList.takeWhile fun c => ('A' ≤ c && c ≤ 'Z') || c = '_'
  if code ≠ [] ∧ error.toList[code.length]? = some ':' then some (String.ofList code) else none

/-- The first of the codes that occur most. -/
def extractPrimaryFailureCode (errors : List String) : Option String :=
  let codeCounts : List (String × Nat) := sumByKey id (fun _ => 1) (errors.filterMap codeOf) []
  let mostCommon := codeCounts.foldl (fun best entry =>
    match best with
    | none => some entry
    | some b => if entry.2 > b.2 then some entry else some b) none
  mostCommon.map Prod.fst

def classifyBatchFailure (succeededCount failedCount total pendingCount : Nat) : BatchFailureCode :=
  if total = 0 then .UNKNOWN_ERROR
  else if failedCount = 0 ∧ pendingCount = 0 then .ALL_SUCCEEDED
  else if succeededCount = 0 ∧ pendingCount = 0 then .ALL_FAILED
  else if pendingCount > 0 ∧ succeededCount > 0 then .PARTIAL_FAILURE
  else if pendingCount > 0 then .TIMEOUT_REACHED
  else .PARTIAL_FAILURE

/-- `groups[item.outcome].push(item)`. -/
def pushItem (groups : BatchItemOutcome → List BatchItem) (item : BatchItem) :
    BatchItemOutcome → List BatchItem :=
  fun o => if o = item.outcome then groups o ++ [item] else groups o

/-- The items by their outcome, in order. -/
def groupItems (items : List BatchItem) : BatchItemOutcome → List BatchItem :=
  items.foldl pushItem fun _ => []

/-- `Math.round((succeededCount - partialCount) / total * 100 * 10) / 10`. -/
def successRate (succeededCount partialCount total : Nat) : ℚ :=
  if total > 0 then
    (⌊((succeededCount : ℚ) - partialCount) / total * 100 * 10 + 1 / 2⌋ : ℚ) / 10
  else 0

def parsePartialBatchFailure (items : List BatchItem) (options : PartialBatchFailureParserOptions)
    (now : Int) : ParsedPartialBatchFailure :=
  let treatTimeoutAsRetryable := options.treatTimeoutAsRetryable != some false
  let groups := groupItems items
  let succeededCount := (groups .succeeded).length
  let failedCount := (groups .failed).length
  let timeoutCount := (groups .timeout).length
  let pendingCount := (groups .pending).length
  let skippedCount := (groups .skipped).length
  let partialCount := (groups .partial_).length
  let total := items.length
  let totalFailures := failedCount + partialCount
  let primaryFailureCode :=
    extractPrimaryFailureCode (items.filterMap fun i => i.error.filter fun e => e ≠ "")
  { code := classifyBatchFailure succeededCount (failedCount + partialCount) total
      (pendingCount + timeoutCount)
    summary :=
      { total, succeededCount
        failedCount := totalFailures
        pendingCount, skippedCount
        successRate := successRate succeededCount partialCount total
        allSucceeded := totalFailures = 0 ∧ pendingCount = 0
        allFailed := succeededCount = 0 ∧ pendingCount = 0
        hasRetryableFailures :=
          failedCount > 0 ∨ (treatTimeoutAsRetryable ∧ timeoutCount > 0) ∨ partialCount > 0
        mostCommonFailureCode := primaryFailureCode }
    groups, primaryFailureCode
    parsedAt := now }

/-! ## The groups -/

/-- The items of an outcome are its group, in their order. -/
theorem groupItems_eq (items : List BatchItem) (o : BatchItemOutcome) :
    groupItems items o = items.filter fun i => i.outcome = o := by
  induction items using List.reverseRecOn with
  | nil => rfl
  | append_singleton items i ih =>
    have hstep : groupItems (items ++ [i]) = pushItem (groupItems items) i := List.foldl_concat _ _ _ _
    rw [hstep, pushItem, ih, List.filter_append]
    by_cases h : i.outcome = o
    · simp [h]
    · simp [h, Ne.symm h]

variable {items : List BatchItem}

theorem length_group_eq_zero {o : BatchItemOutcome} :
    (groupItems items o).length = 0 ↔ ∀ i ∈ items, i.outcome ≠ o := by
  simp [groupItems_eq]

theorem length_group_pos {o : BatchItemOutcome} :
    0 < (groupItems items o).length ↔ ∃ i ∈ items, i.outcome = o := by
  rw [Nat.pos_iff_ne_zero, ne_eq, length_group_eq_zero]
  simp

/-- Each item is in one of the six groups. -/
theorem length_eq_groups (items : List BatchItem) :
    items.length = (groupItems items .succeeded).length + (groupItems items .failed).length +
      (groupItems items .partial_).length + (groupItems items .skipped).length +
      (groupItems items .pending).length + (groupItems items .timeout).length := by
  simp only [groupItems_eq]
  induction items with
  | nil => rfl
  | cons i items ih =>
    rw [List.length_cons, ih]
    cases h : i.outcome <;> simp [h] <;> omega

/-! ## The code -/

theorem classify_allSucceeded_iff {s f total p : Nat} :
    classifyBatchFailure s f total p = .ALL_SUCCEEDED ↔ 0 < total ∧ f = 0 ∧ p = 0 := by
  unfold classifyBatchFailure
  repeat' split
  all_goals simp; omega

theorem classify_allFailed_iff {s f total p : Nat} :
    classifyBatchFailure s f total p = .ALL_FAILED ↔ 0 < total ∧ 0 < f ∧ s = 0 ∧ p = 0 := by
  unfold classifyBatchFailure
  repeat' split
  all_goals simp; omega

/-! ## The success rate -/

theorem successRate_le (s p total : Nat) (hs : s ≤ total) : successRate s p total ≤ 100 := by
  rw [successRate]
  split
  · rename_i htotal
    have htotal : (0 : ℚ) < (total : ℚ) := by exact_mod_cast htotal
    have hp : (0 : ℚ) ≤ (p : ℚ) := Nat.cast_nonneg p
    have hs : (s : ℚ) ≤ (total : ℚ) := by exact_mod_cast hs
    have hquot : ((s : ℚ) - p) / total ≤ 1 := (div_le_one htotal).mpr (by linarith)
    have hfloor : ⌊((s : ℚ) - p) / total * 100 * 10 + 1 / 2⌋ ≤ 1000 := by
      refine Int.lt_add_one_iff.mp (Int.floor_lt.mpr ?_)
      push_cast
      linarith
    have hcast : (⌊((s : ℚ) - p) / total * 100 * 10 + 1 / 2⌋ : ℚ) ≤ 1000 := by exact_mod_cast hfloor
    linarith
  · norm_num

/-- The rate is negative where the partial items outnumber the successes by
more than rounding hides. -/
theorem successRate_nonneg_iff {s p total : Nat} (htotal : 0 < total) :
    0 ≤ successRate s p total ↔ 2000 * p ≤ 2000 * s + total := by
  have htotal' : (0 : ℚ) < (total : ℚ) := by exact_mod_cast htotal
  have hcast : (0 : ℚ) ≤ (⌊((s : ℚ) - p) / total * 100 * 10 + 1 / 2⌋ : ℚ) / 10 ↔
      0 ≤ ⌊((s : ℚ) - p) / total * 100 * 10 + 1 / 2⌋ := by
    rw [le_div_iff₀ (by norm_num), zero_mul, Int.cast_nonneg_iff]
  rw [successRate, if_pos htotal, hcast, Int.floor_nonneg]
  have hmul : ((s : ℚ) - p) / total * 100 * 10 + 1 / 2 = (2000 * ((s : ℚ) - p) + total) / (2 * total) := by
    field_simp
    ring
  rw [hmul, le_div_iff₀ (by linarith), zero_mul]
  constructor
  · intro h
    have : (2000 * p : ℚ) ≤ 2000 * s + total := by linarith
    exact_mod_cast this
  · intro h
    have : (2000 * p : ℚ) ≤ 2000 * s + total := by exact_mod_cast h
    linarith

/-! ## Consistency -/

/-- The flags tell what became of the items, the code agrees with the flags, the
counts add up and the rate is a percentage. -/
structure Consistent (items : List BatchItem) (r : ParsedPartialBatchFailure) : Prop where
  allSucceeded : r.summary.allSucceeded = true ↔ ∀ i ∈ items, i.outcome = .succeeded
  allFailed : r.summary.allFailed = true ↔ ∀ i ∈ items, i.outcome ≠ .succeeded
  code_allSucceeded : r.code = .ALL_SUCCEEDED ↔ r.summary.allSucceeded = true
  code_allFailed : r.code = .ALL_FAILED ↔ r.summary.allFailed = true
  counts : r.summary.succeededCount + r.summary.failedCount + r.summary.pendingCount +
    r.summary.skippedCount = items.length
  successRate : 0 ≤ r.summary.successRate ∧ r.summary.successRate ≤ 100

/-- The batches that the parser counts throughout. -/
structure CountedThroughout (items : List BatchItem) : Prop where
  nonempty : items ≠ []
  no_timeout : ∀ i ∈ items, i.outcome ≠ .timeout
  skipped : (∃ i ∈ items, i.outcome = .skipped) →
    ∃ i ∈ items, i.outcome = .failed ∨ i.outcome = .partial_ ∨ i.outcome = .pending
  pending : (∃ i ∈ items, i.outcome = .pending) → ∃ i ∈ items, i.outcome = .succeeded
  few_partial : 2000 * (items.filter fun i => i.outcome = .partial_).length ≤
    2000 * (items.filter fun i => i.outcome = .succeeded).length + items.length

/-- `CountedThroughout`, by the sizes of the groups. -/
theorem countedThroughout_iff :
    CountedThroughout items ↔ 0 < items.length ∧ (groupItems items .timeout).length = 0 ∧
      (0 < (groupItems items .skipped).length → 0 < (groupItems items .failed).length ∨
        0 < (groupItems items .partial_).length ∨ 0 < (groupItems items .pending).length) ∧
      (0 < (groupItems items .pending).length → 0 < (groupItems items .succeeded).length) ∧
      2000 * (groupItems items .partial_).length ≤
        2000 * (groupItems items .succeeded).length + items.length := by
  simp only [length_group_pos, length_group_eq_zero, ← exists_or, ← and_or_left]
  rw [List.length_pos_iff, groupItems_eq, groupItems_eq]
  constructor
  · exact fun h => ⟨h.nonempty, h.no_timeout, h.skipped, h.pending, h.few_partial⟩
  · exact fun ⟨hne, ht, hsk, hpe, hpa⟩ => ⟨hne, ht, hsk, hpe, hpa⟩

theorem forall_succeeded_iff :
    (∀ i ∈ items, i.outcome = .succeeded) ↔ (groupItems items .succeeded).length = items.length := by
  rw [groupItems_eq, List.length_filter_eq_length_iff]
  simp

/-- The result is consistent just for the batches that are counted throughout. -/
theorem consistent_iff (items : List BatchItem) (options : PartialBatchFailureParserOptions) (now : Int) :
    Consistent items (parsePartialBatchFailure items options now) ↔ CountedThroughout items := by
  have hlen := length_eq_groups items
  have hle : (groupItems items .succeeded).length ≤ items.length := by omega
  rw [countedThroughout_iff]
  constructor
  · rintro ⟨hall, hnone, hcode, hcode', hcounts, hrate⟩
    rw [forall_succeeded_iff] at hall
    rw [← length_group_eq_zero] at hnone
    simp only [parsePartialBatchFailure, classify_allSucceeded_iff, classify_allFailed_iff,
      decide_eq_true_eq] at hall hnone hcode hcode' hcounts hrate
    -- an empty batch is of unknown error, with both flags
    have htotal : 0 < items.length := by omega
    rw [successRate_nonneg_iff htotal] at hrate
    exact ⟨htotal, by omega, by omega, by omega, hrate.1⟩
  · rintro ⟨htotal, ht, hsk, hpe, hpa⟩
    refine ⟨?_, ?_, ?_, ?_, ?_, (successRate_nonneg_iff htotal).mpr hpa, successRate_le _ _ _ hle⟩
    · rw [forall_succeeded_iff]
      simp only [parsePartialBatchFailure, decide_eq_true_eq]
      omega
    · rw [← length_group_eq_zero]
      simp only [parsePartialBatchFailure, decide_eq_true_eq]
      omega
    · simp only [parsePartialBatchFailure, classify_allSucceeded_iff, decide_eq_true_eq]
      omega
    · simp only [parsePartialBatchFailure, classify_allFailed_iff, decide_eq_true_eq]
      omega
    · show (groupItems items .succeeded).length +
        ((groupItems items .failed).length + (groupItems items .partial_).length) +
        (groupItems items .pending).length + (groupItems items .skipped).length = items.length
      omega

/-- One success and one timeout. -/
def timedOutBatch : List BatchItem :=
  [{ itemNumber := 1, outcome := .succeeded }, { itemNumber := 2, outcome := .timeout }]

/-- The batch is said to have succeeded whole, under another code, and one of
its items is in no count. -/
theorem timedOutBatch_all_succeeded :
    (parsePartialBatchFailure timedOutBatch {} 0).summary.allSucceeded = true ∧
      (parsePartialBatchFailure timedOutBatch {} 0).code = .PARTIAL_FAILURE ∧
      ¬ Consistent timedOutBatch (parsePartialBatchFailure timedOutBatch {} 0) := by
  refine ⟨rfl, rfl, fun h => ?_⟩
  have htimeout := h.allSucceeded.mp rfl _ (List.mem_cons_of_mem _ List.mem_cons_self)
  cases htimeout

end ZkPayroll.Batch
