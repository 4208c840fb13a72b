import ZkPayroll.Core.Errors

/-!
# Classification of errors for retry

`classifyError` of `core/retry.ts`.
-/

namespace ZkPayroll.Core

open Framework

inductive RetryCategory where
  | RETRYABLE
  | NON_RETRYABLE
  | UNKNOWN
  deriving DecidableEq, Repr

structure RetryDecision where
  category : RetryCategory
  retryable : Bool
  reason : String
  deriving DecidableEq, Repr

def decision (category : RetryCategory) (reason : String) : RetryDecision where
  category := category
  retryable := category == .RETRYABLE
  reason := reason

variable (error : SdkError)

def classifyNetworkError : RetryDecision :=
  match error.statusCode with
  | none =>
    decision .RETRYABLE "Network error without status code — likely a transient connection issue"
  | some code =>
    if 500 ≤ code then decision .RETRYABLE s!"Server error (HTTP {code}) — may succeed on retry"
    else if code = 429 then decision .RETRYABLE "Rate limited (HTTP 429) — retry after backoff"
    else if 400 ≤ code then
      decision .NON_RETRYABLE s!"Client error (HTTP {code}) — request will fail on retry"
    else decision .UNKNOWN s!"Unexpected HTTP status ({code}) — retry with caution"

def classifyContractError : RetryDecision :=
  if error.code = "SIMULATION_FAILED" then
    decision .RETRYABLE "Simulation failure is often transient — retry may succeed"
  else if error.code = "TRANSACTION_SUBMISSION_FAILED" then
    decision .RETRYABLE "Transaction submission failure is often transient — retry with backoff"
  else if error.code = "TRANSACTION_TIMEOUT" then
    decision .RETRYABLE "Transaction timeout is transient — retry with backoff"
  else if error.code = "INSUFFICIENT_FEE" then
    decision .NON_RETRYABLE "Insufficient fee requires user intervention — not retryable"
  else if error.code = "CONTRACT_REVERT" then
    decision .NON_RETRYABLE "Contract revert indicates rejected logic — not retryable"
  else decision .UNKNOWN "Unknown RPC error — retry once with caution, then fail"

/-- `NETWORK_ERROR_PATTERNS`. -/
def matchesNetworkError (message : List Char) : Bool :=
  containsInsensitive "econnrefused".toList message || containsInsensitive "econnreset".toList message ||
    containsInsensitive "etimedout".toList message || containsInsensitive "enotfound".toList message ||
    containsInsensitive "eai_again".toList message || containsInsensitive "network".toList message ||
    containsInsensitive "timeout".toList message ||
    containsAround "timed".toList isSpace "out".toList message ||
    containsInsensitive "connection".toList message || containsInsensitive "socket".toList message ||
    containsAround "request".toList isSpace "failed".toList message

def classifyGenericError : RetryDecision :=
  if matchesNetworkError error.message.toList then
    decision .RETRYABLE "Generic error matches network failure pattern — retryable"
  else if error.name = "AbortError" ∨ error.name = "TimeoutError" then
    decision .RETRYABLE "Request aborted or timed out — retryable"
  else decision .UNKNOWN "Generic Error without known retryable markers — retry with caution"

def classifyError : RetryDecision :=
  match error.kind with
  | .network => classifyNetworkError error
  | .contractExecution => classifyContractError error
  | .proofGeneration =>
    decision .NON_RETRYABLE
      "Proof generation errors are not retryable — they indicate a data or circuit issue"
  | .validation =>
    decision .NON_RETRYABLE "Validation errors are not retryable — they indicate invalid input"
  | .batchValidationFailed =>
    decision .NON_RETRYABLE "Batch validation errors are not retryable — they indicate invalid input"
  | .zkPayroll =>
    decision .UNKNOWN s!"Unrecognized SDK error (code={error.code}) — retry with caution"
  | .error => classifyGenericError error
  | .notAnError =>
    decision .UNKNOWN "Non-Error thrown value — cannot determine retryability"

end ZkPayroll.Core
