import Mathlib.Algebra.Order.Ring.Int
import ZkPayroll.Framework.ByKey

/-!
# The reconciliation diff

`generateReconciliationDiff` of `reconciliation/ReconciliationDiffGenerator.ts`:
what a payroll run expects is compared with what is observed on chain. Of an
execution summary only its results are read.
-/

namespace ZkPayroll.Reconciliation

open Framework

/-! ## Data -/

/-- How the client recorded a payment. -/
inductive OutcomeStatus where
  | success
  | failure
  | pending
  deriving DecidableEq

/-- What the diff reads of a `PaymentExecutionOutcome`. -/
structure PaymentExecutionOutcome where
  recipient : String
  amount : Int
  asset : String
  status : OutcomeStatus
  txHash : Option String := none
  deriving DecidableEq

structure PayrollExecutionSummary where
  results : List PaymentExecutionOutcome

/-- What the chain shows of a payment. -/
inductive OnChainStatus where
  | confirmed
  | failed
  | not_found
  deriving DecidableEq

structure ObservedPaymentState where
  recipient : String
  amount : Option Int := none
  asset : Option String := none
  txHash : Option String := none
  onChainStatus : OnChainStatus
  observedAt : Int
  deriving DecidableEq

inductive ReconciliationDiffCategory where
  | «match»
  | missing
  | failed_mismatch
  | amount_mismatch
  | still_pending
  | unexpected
  deriving DecidableEq

/-- The `expected` of an entry. -/
structure ExpectedPayment where
  amount : Int
  asset : String
  status : OutcomeStatus
  txHash : Option String
  deriving DecidableEq

structure ReconciliationDiffEntry where
  recipient : String
  category : ReconciliationDiffCategory
  expected : Option ExpectedPayment
  observed : Option ObservedPaymentState
  reason : String
  deriving DecidableEq

structure ReconciliationDiffResult where
  entries : List ReconciliationDiffEntry
  counts : ReconciliationDiffCategory → Nat
  isFullyReconciled : Bool
  generatedAt : Int

/-! ## One outcome -/

def matchKey (recipient asset : String) : String := recipient ++ ":" ++ asset

variable (outcome : PaymentExecutionOutcome)

def PaymentExecutionOutcome.key : String :=
  matchKey outcome.recipient outcome.asset

/-- An observation without an asset has no key. -/
def ObservedPaymentState.key (o : ObservedPaymentState) : Option String := o.asset.map (matchKey o.recipient)

def PaymentExecutionOutcome.expected : ExpectedPayment where
  amount := outcome.amount
  asset := outcome.asset
  status := outcome.status
  txHash := outcome.txHash

/-- The text for a payment that is not found. -/
def missingReason (status : OutcomeStatus) : String :=
  if status = .success then
    "Client recorded this payment as successful, but no matching on-chain record was found."
  else
    "Client recorded this payment as failed, and no on-chain record was found (consistent, but unverifiable)."

/-- The text for one with another result. -/
def mismatchReason (status : OutcomeStatus) : String :=
  if status = .success then
    "Client recorded this payment as successful, but the chain shows it failed."
  else
    "Client recorded this payment as failed, but the chain shows it actually confirmed -- possible duplicate submission or a stale client-side result."

/-- The category and the reason of the entry of an outcome. -/
def classify (observed : Option ObservedPaymentState) : ReconciliationDiffCategory × String :=
  if outcome.status = .pending then
    (.still_pending, "Expected outcome has not reached a terminal state yet; nothing to reconcile.")
  else
    match observed with
    | none => (.missing, missingReason outcome.status)
    | some o =>
      if o.onChainStatus = .not_found then (.missing, missingReason outcome.status)
      else if (outcome.status == .success) != (o.onChainStatus == .confirmed) then
        (.failed_mismatch, mismatchReason outcome.status)
      else if o.onChainStatus = .confirmed ∧ ∃ amount ∈ o.amount, amount ≠ outcome.amount then
        (.amount_mismatch,
          s!"Expected amount {outcome.amount} stroops does not match observed amount " ++
            s!"{o.amount.getD 0} stroops.")
      else (.match, "Expected and observed outcomes agree.")

def diffOne (observed : Option ObservedPaymentState) : ReconciliationDiffEntry where
  recipient := outcome.recipient
  category := (classify outcome observed).1
  expected := some outcome.expected
  observed := observed
  reason := (classify outcome observed).2

/-! ## The diff -/

/-- The latest observation of each key. -/
def observedByKey (observed : List ObservedPaymentState) : List (String × ObservedPaymentState) :=
  newestByKey ObservedPaymentState.key ObservedPaymentState.observedAt observed

/-- The keys of the outcomes for which there is an observation. -/
def matchedObservedKeys (results : List PaymentExecutionOutcome)
    (byKey : List (String × ObservedPaymentState)) : List String :=
  (results.map PaymentExecutionOutcome.key).filter fun key => (byKey.lookup key).isSome

def unexpectedEntry (o : ObservedPaymentState) : ReconciliationDiffEntry where
  recipient := o.recipient
  category := .unexpected
  expected := none
  observed := some o
  reason := "On-chain record found for this recipient with no corresponding expected outcome in this run."

/-- Whether an observation is on-chain activity that no outcome has claimed. -/
def isUnexpected (matched : List String) (o : ObservedPaymentState) : Bool :=
  let wasMatched := match o.key with
    | none => false
    | some key => decide (key ∈ matched)
  !wasMatched && o.onChainStatus != .not_found

def generateReconciliationDiff (now : Int) (expected : PayrollExecutionSummary)
    (observed : List ObservedPaymentState) : ReconciliationDiffResult :=
  let byKey := observedByKey observed
  let entries :=
    expected.results.map (fun outcome => diffOne outcome (byKey.lookup outcome.key)) ++
    (observed.filter (isUnexpected (matchedObservedKeys expected.results byKey))).map unexpectedEntry
  { entries := entries
    counts := fun category => entries.countP (·.category = category)
    isFullyReconciled := entries.all fun e => e.category = .match || e.category = .still_pending
    generatedAt := now }

end ZkPayroll.Reconciliation
