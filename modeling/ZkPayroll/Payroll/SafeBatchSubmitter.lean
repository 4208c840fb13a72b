import ZkPayroll.Core.Retry
import ZkPayroll.Payroll.BatchResumeToken
import ZkPayroll.Redaction.RedactionEngine

/-!
# Sequential submission of batches

`submitSequentialPayrollBatches` of `payroll/safeBatchSubmitter.ts`, as a
function of everything it reads from outside: the outcome of each call of
`submitBatchFn`, what `signal.aborted` is at each place that reads it, whether
each back-off sleep ends or rejects, and the clock (`Environment`). A run
(`Run`) is the list of its effects, in order, and what it returns or throws.

Callbacks return normally. The percentage and the timestamp of progress events
are left out.
-/

namespace ZkPayroll.Payroll

open Framework ZkPayroll.Core Batch Redaction

/-! ## Data -/

inductive SafeBatchProgressStage where
  | validating
  | batch_starting
  | batch_submitting
  | batch_retrying
  | batch_completed
  | completed
  | failed
  deriving DecidableEq

/-- `SafeBatchProgressEvent`. -/
structure SafeBatchProgressEvent where
  stage : SafeBatchProgressStage
  batchIndex : Int
  totalBatches : Nat
  itemsProcessed : Int
  totalItems : Nat
  message : String
  retryAttempt : Option Nat := none
  maxRetries : Option Int := none
  deriving DecidableEq

/-- `SafeBatchErrorDetail`. -/
structure SafeBatchErrorDetail where
  message : String
  code : String
  failedBatchIndex : Nat
  batchesSucceeded : Nat
  itemsSucceeded : Int
  actionableGuidance : String
  resumeToken : Option String
  deriving DecidableEq

/-- `SafeBatchSubmissionOptions`, less its callbacks. -/
structure SafeBatchSubmissionOptions where
  batchSize : Option Int := none
  maxRetries : Option Int := none
  initialDelayMs : Option Int := none
  maxDelayMs : Option Int := none
  backoffFactor : Option Int := none
  stopOnFirstFailure : Option Bool := none
  resumeToken : Option String := none
  deriving DecidableEq

/-- `SafeBatchSubmissionResult`. -/
structure SafeBatchSubmissionResult (R : Type) where
  success : Bool
  batchesProcessed : Nat
  totalBatches : Nat
  itemsProcessed : Int
  totalItems : Nat
  results : List R
  failedBatchIndex : Option Nat := none
  error : Option SafeBatchErrorDetail := none
  deriving DecidableEq

/-- A place that reads `signal.aborted`. -/
inductive AbortRead where
  /-- Before a batch. -/
  | batchStart (batchIndex : Nat)
  /-- Before an attempt. -/
  | attemptStart (batchIndex attempt : Nat)
  /-- After an attempt that failed. -/
  | afterFailure (batchIndex attempt : Nat)
  deriving DecidableEq

/-- What a run reads from outside. -/
structure Environment (R : Type) where
  /-- What the call of `submitBatchFn` for a batch, at an attempt, resolves to or rejects with. -/
  submitBatchFn : (batchIndex attempt : Nat) → Except SdkError (List R)
  aborted : AbortRead → Bool
  /-- Whether the sleep after an attempt ends; it rejects otherwise. -/
  sleep : (batchIndex attempt : Nat) → Bool
  /-- The clock when the token after a batch is made. -/
  now : (batchIndex : Nat) → Int

/-- An effect of a run. -/
inductive Effect (R : Type) where
  | onProgress (event : SafeBatchProgressEvent)
  /-- A call of `submitBatchFn`, and how it settled. -/
  | submit (batchIndex attempt : Nat) (outcome : Except SdkError (List R))
  | onBatchError (batchIndex : Nat) (error : SdkError) (willRetry : Bool)
  | sleep (ms : Int)
  | onBatchSuccess (batchIndex : Nat) (results : List R)
  | onCheckpoint (resumeToken : String)

/-- A run: its effects, and what it returns or throws. -/
structure Run (R : Type) where
  effects : List (Effect R)
  outcome : Except SdkError (SafeBatchSubmissionResult R)

/-! ## The submission -/

variable (options : SafeBatchSubmissionOptions)

def SafeBatchSubmissionOptions.effectiveBatchSize : Int :=
  options.batchSize.getD 50

/-- `stopOnFirstFailure`, or its default. -/
def SafeBatchSubmissionOptions.stops : Bool :=
  options.stopOnFirstFailure.getD true

def SafeBatchSubmissionOptions.retries : Int :=
  options.maxRetries.getD 3

/-- `Math.max(1, maxRetries + 1)`. -/
def SafeBatchSubmissionOptions.maxAttempts : Nat :=
  (max 1 (options.retries + 1)).toNat

/-- The delay before the attempt after `attempt`. -/
def SafeBatchSubmissionOptions.delay (attempt : Nat) : Int :=
  min (options.initialDelayMs.getD 100 * options.backoffFactor.getD 2 ^ (attempt - 1))
    (options.maxDelayMs.getD 2000)

/-- `/validation|invalid|unauthorized|forbidden|signature.*fail|schema/i`. -/
def matchesNonRetryable (message : List Char) : Bool :=
  containsInsensitive "validation".toList message || containsInsensitive "invalid".toList message ||
    containsInsensitive "unauthorized".toList message || containsInsensitive "forbidden".toList message ||
    containsAround "signature".toList notLineEnd "fail".toList message ||
    containsInsensitive "schema".toList message

def isNonRetryable (rawError : SdkError) : Bool :=
  (classifyError rawError).category == .NON_RETRYABLE || matchesNonRetryable rawError.message.toList

section Submit

variable {T R : Type} [PayrollEntry T] (host : Host) (entries : List T)
  (options : SafeBatchSubmissionOptions) (env : Environment R)

/-- The number of batches of the plan. -/
def totalBatches : Nat := (batchPages entries options.effectiveBatchSize.toNat).length

/-- `emitProgress`. -/
def emitProgress (stage : SafeBatchProgressStage) (batchIndex itemsProcessed : Int) (message : String)
    (retryAttempt : Option Nat := none) : Effect R :=
  .onProgress
    { stage, batchIndex, totalBatches := totalBatches entries options, itemsProcessed,
      totalItems := entries.length, message, retryAttempt,
      maxRetries := if 0 < options.retries then some options.retries else none }

/-- `makeResumeToken(nextBatchIndex)`, at the clock of batch `batchIndex`. -/
def makeResumeToken (batchIndex nextBatchIndex : Nat) (itemsProcessed : Int) : String :=
  createBatchResumeToken host entries nextBatchIndex itemsProcessed (totalBatches entries options)
    options.effectiveBatchSize (env.now batchIndex)

/-- The attempts of one batch from number `attempt` on, with `left` to go: the
effects, and the results or the message of the last error. -/
def submitAttempts (batch : BatchPage T) (itemsProcessed : Int) :
    (left attempt : Nat) → (lastError : Option String) → List (Effect R) × Except (Option String) (List R)
  | 0, _, lastError => ([], .error lastError)
  | left + 1, attempt, _ =>
    if env.aborted (.attemptStart batch.index attempt) then
      ([], .error (some "Batch submission was cancelled via AbortSignal."))
    else
      let submitting : List (Effect R) :=
        [emitProgress entries options .batch_submitting batch.index itemsProcessed
            s!"Submitting batch {batch.index + 1} of {totalBatches entries options} (attempt {attempt}/{options.maxAttempts})...",
          .submit batch.index attempt (env.submitBatchFn batch.index attempt)]
      match env.submitBatchFn batch.index attempt with
      | .ok batchResults => (submitting, .ok batchResults)
      | .error err =>
        let rawError := toError err
        let redacted := redactError rawError
        let willRetry := !isNonRetryable rawError && decide (attempt < options.maxAttempts) &&
          !env.aborted (.afterFailure batch.index attempt)
        let reported := submitting ++ [.onBatchError batch.index redacted willRetry]
        if willRetry then
          let waiting := reported ++
            [emitProgress entries options .batch_retrying batch.index itemsProcessed
                s!"Batch {batch.index + 1} failed with transient error; retrying in {options.delay attempt}ms (attempt {attempt}/{options.retries})..."
                (some attempt),
              .sleep (options.delay attempt)]
          if env.sleep batch.index attempt then
            let rest := submitAttempts batch itemsProcessed left (attempt + 1) (some redacted.message)
            (waiting ++ rest.1, rest.2)
          else (waiting, .error (some "Batch submission was cancelled during backoff delay."))
        else (reported, .error (some redacted.message))

/-- All attempts of one batch. -/
def submitBatch (batch : BatchPage T) (itemsProcessed : Int) :
    List (Effect R) × Except (Option String) (List R) :=
  submitAttempts entries options env batch itemsProcessed options.maxAttempts 1 none

/-- The token in the error of a run that stops at batch `batchIndex`: none if
no batch has succeeded. -/
def errorToken (batchIndex batchesSucceeded : Nat) (itemsProcessed : Int) : Option String :=
  if 0 < batchesSucceeded then
    some (makeResumeToken host entries options env batchIndex batchIndex itemsProcessed)
  else none

/-- The error of a run that finds the signal aborted before a batch. -/
def cancelledDetail (batchIndex batchesSucceeded : Nat) (itemsProcessed : Int) : SafeBatchErrorDetail where
  message := "Batch submission was cancelled via AbortSignal."
  code := "BATCH_SUBMISSION_CANCELLED"
  failedBatchIndex := batchIndex
  batchesSucceeded := batchesSucceeded
  itemsSucceeded := itemsProcessed
  actionableGuidance :=
    if 0 < batchesSucceeded then
      s!"Submission cancelled. {batchesSucceeded} of {totalBatches entries options} batches succeeded ({itemsProcessed} items). Resume from batch index {batchIndex}."
    else s!"Submission cancelled before batch {batchIndex} started. No items were submitted."
  resumeToken := errorToken host entries options env batchIndex batchesSucceeded itemsProcessed

/-- `lastError?.message || "Batch submission failed."`. -/
def failureMessage (lastError : Option String) : String :=
  match lastError with
  | some message => if message = "" then "Batch submission failed." else message
  | none => "Batch submission failed."

/-- The error of a run that stops because a batch failed. -/
def failedDetail (batchIndex batchesSucceeded : Nat) (itemsProcessed : Int) (lastError : Option String) :
    SafeBatchErrorDetail where
  message := failureMessage lastError
  code := "BATCH_SUBMISSION_FAILED"
  failedBatchIndex := batchIndex
  batchesSucceeded := batchesSucceeded
  itemsSucceeded := itemsProcessed
  actionableGuidance :=
    if 0 < batchesSucceeded then
      s!"Batch {batchIndex + 1} failed. {batchesSucceeded} previous batch(es) succeeded ({itemsProcessed} items). Verify the failure reason and resume from batch index {batchIndex}."
    else
      "Batch 1 failed. No items were committed on-chain. Verify input parameters and permissions before retrying."
  resumeToken := errorToken host entries options env batchIndex batchesSucceeded itemsProcessed

/-- The variables of the loop over the batches. -/
structure Progress (R : Type) where
  batchesSucceeded : Nat
  itemsProcessed : Int
  results : List R

/-- What a run returns when it stops at batch `batchIndex`. -/
def stoppedResult (p : Progress R) (batchIndex : Nat) (detail : SafeBatchErrorDetail) :
    SafeBatchSubmissionResult R where
  success := false
  batchesProcessed := p.batchesSucceeded
  totalBatches := totalBatches entries options
  itemsProcessed := p.itemsProcessed
  totalItems := entries.length
  results := p.results
  failedBatchIndex := some batchIndex
  error := some detail

/-- What a run returns when it falls through the loop. -/
def completedResult (p : Progress R) : SafeBatchSubmissionResult R where
  success := true
  batchesProcessed := p.batchesSucceeded
  totalBatches := totalBatches entries options
  itemsProcessed := p.itemsProcessed
  totalItems := entries.length
  results := p.results

/-- The loop over the batches. -/
def submitBatches : List (BatchPage T) → Progress R → List (Effect R) × SafeBatchSubmissionResult R
  | [], p =>
    ([emitProgress entries options .completed (totalBatches entries options - 1) p.itemsProcessed
        s!"Successfully processed all {totalBatches entries options} batch(es) ({p.itemsProcessed}/{entries.length} items)."],
      completedResult entries options p)
  | batch :: batches, p =>
    if env.aborted (.batchStart batch.index) then
      let detail := cancelledDetail host entries options env batch.index p.batchesSucceeded p.itemsProcessed
      ([emitProgress entries options .failed batch.index p.itemsProcessed detail.message],
        stoppedResult entries options p batch.index detail)
    else
      let starting : Effect R := emitProgress entries options .batch_starting batch.index p.itemsProcessed
        s!"Starting batch {batch.index + 1} of {totalBatches entries options} ({batch.count} item(s))..."
      let attempts := submitBatch entries options env batch p.itemsProcessed
      match attempts.2 with
      | .ok batchResults =>
        let p' : Progress R :=
          { batchesSucceeded := p.batchesSucceeded + 1
            itemsProcessed := p.itemsProcessed + batch.count
            results := p.results ++ batchResults }
        let rest := submitBatches batches p'
        (starting :: attempts.1 ++
          [.onBatchSuccess batch.index batchResults,
            emitProgress entries options .batch_completed batch.index p'.itemsProcessed
              s!"Batch {batch.index + 1} of {totalBatches entries options} completed successfully.",
            .onCheckpoint
              (makeResumeToken host entries options env batch.index (batch.index + 1) p'.itemsProcessed)] ++
          rest.1, rest.2)
      | .error lastError =>
        let detail :=
          failedDetail host entries options env batch.index p.batchesSucceeded p.itemsProcessed lastError
        let failed : List (Effect R) := starting :: attempts.1 ++
          [emitProgress entries options .failed batch.index p.itemsProcessed detail.message]
        if options.stops then (failed, stoppedResult entries options p batch.index detail)
        else
          let rest := submitBatches batches p
          (failed ++ rest.1, rest.2)

/-- Where a run starts: the batch and the items already processed, from the
resume token if there is one. -/
def resumePoint : Except SdkError (Int × Int) :=
  match options.resumeToken with
  | none => .ok (0, 0)
  | some token =>
    if token = "" then .ok (0, 0)
    else do
      let resumePoint ← resolveResumeStart host entries (some options.effectiveBatchSize) token
      return (resumePoint.startBatchIndex, resumePoint.itemsAlreadyProcessed)

/-- The message of the validation stage. -/
def validatingMessage (startBatchIndex : Int) : String :=
  match options.resumeToken with
  | some token =>
    if token = "" then
      s!"Validating {entries.length} payroll item(s) across {totalBatches entries options} batch(es)..."
    else
      s!"Resuming submission of {entries.length} payroll item(s) from batch {startBatchIndex + 1} of {totalBatches entries options}..."
  | none =>
    s!"Validating {entries.length} payroll item(s) across {totalBatches entries options} batch(es)..."

/-- What a run on no entries returns. -/
def emptyResult : SafeBatchSubmissionResult R where
  success := true
  batchesProcessed := 0
  totalBatches := 0
  itemsProcessed := 0
  totalItems := 0
  results := []

/-- What a run returns whose token covers all batches. -/
def coveredResult (initialItemsProcessed : Int) : SafeBatchSubmissionResult R where
  success := true
  batchesProcessed := totalBatches entries options
  totalBatches := totalBatches entries options
  itemsProcessed := initialItemsProcessed
  totalItems := entries.length
  results := []

def submitSequentialPayrollBatches : Run R :=
  match assertValidPageSize (some options.effectiveBatchSize) with
  | .error e => { effects := [], outcome := .error e }
  | .ok () =>
    if entries.length = 0 then
      { effects := [.onProgress
          { stage := .completed, batchIndex := 0, totalBatches := 0, itemsProcessed := 0, totalItems := 0,
            message := "Batch submission completed: no entries to process." }]
        outcome := .ok emptyResult }
    else
      match resumePoint host entries options with
      | .error e => { effects := [], outcome := .error e }
      | .ok (startBatchIndex, initialItemsProcessed) =>
        let validating : Effect R := emitProgress entries options .validating startBatchIndex
          initialItemsProcessed (validatingMessage entries options startBatchIndex)
        if startBatchIndex ≥ totalBatches entries options then
          { effects := [validating,
              emitProgress entries options .completed (totalBatches entries options - 1) initialItemsProcessed
                s!"Resume token indicates all {totalBatches entries options} batch(es) already completed ({initialItemsProcessed}/{entries.length} items)."]
            outcome := .ok (coveredResult entries options initialItemsProcessed) }
        else
          let rest := submitBatches host entries options env
            ((batchPages entries options.effectiveBatchSize.toNat).drop startBatchIndex.toNat)
            { batchesSucceeded := startBatchIndex.toNat, itemsProcessed := initialItemsProcessed, results := [] }
          { effects := validating :: rest.1, outcome := .ok rest.2 }

end Submit

end ZkPayroll.Payroll
