import ZkPayroll.Framework.Text

/-!
# SDK errors

The errors of `core/errors.ts`, as far as the SDK reads them: the class
(`ErrorClass`, what `instanceof` tells), the message and the fields that a
class adds to `Error`.

`mapRpcError` of `core/errors.ts`: what was thrown around an RPC call, as an
error of the contract call. The class is told from the words of its message.
-/

namespace ZkPayroll.Core

/-- What `instanceof` tells of a thrown value. -/
inductive ErrorClass where
  | network
  | contractExecution
  | proofGeneration
  | validation
  | batchValidationFailed
  /-- Another subclass of `ZkPayrollError`. -/
  | zkPayroll
  /-- An `Error` that is none of the SDK's. -/
  | error
  /-- A thrown value that is no `Error`; its message is its `String`. -/
  | notAnError
  deriving DecidableEq, Repr

/-- A thrown value. -/
structure SdkError where
  kind : ErrorClass
  name : String
  message : String
  code : String := ""
  /-- Of a validation error. -/
  field : String := ""
  /-- Of a network error. -/
  statusCode : Option Int := none
  stack : String := ""
  /-- The value `undefined` was thrown. -/
  isUndefined : Bool := false
  deriving DecidableEq, Repr

def validationError (message field : String) (code : String := "VALIDATION_ERROR") : SdkError where
  kind := .validation
  name := "ValidationError"
  message := message
  code := code
  field := field

def networkError (message : String) (statusCode : Option Int := none)
    (code : String := "NETWORK_ERROR") : SdkError where
  kind := .network
  name := "NetworkError"
  message := message
  code := code
  statusCode := statusCode

/-- `new Error(message)`. -/
def genericError (message : String) : SdkError where
  kind := .error
  name := "Error"
  message := message

/-- The value `undefined`. -/
def undefinedValue : SdkError where
  kind := .notAnError
  name := ""
  message := "undefined"
  isUndefined := true

/-- `err instanceof Error ? err : new Error(String(err))`. -/
def toError (e : SdkError) : SdkError :=
  if e.kind = .notAnError then genericError e.message else e

section

open Framework

/-- A `ContractExecutionError`, or one of its subclasses. -/
def contractExecutionError (message code : String) (name : String := "ContractExecutionError") : SdkError where
  kind := .contractExecution
  name := name
  message := message
  code := code

/-- `/word|…/i.test(message)`. -/
def mentions (words : List String) (message : List Char) : Bool :=
  words.any fun word => containsInsensitive word.toList message

def mapRpcError (error : SdkError) : SdkError :=
  let msg := error.message
  let cs := msg.toList
  if error.kind = .contractExecution then error
  else if containsAround "transaction".toList notLineEnd "timeout".toList cs ||
      containsAround "timeout".toList notLineEnd "transaction".toList cs then
    contractExecutionError ("Transaction timed out: " ++ msg) "TRANSACTION_TIMEOUT"
  else if mentions ["timeout", "expired", "econnaborted", "etimedout"] cs then
    contractExecutionError ("RPC request timed out: " ++ msg) "RPC_TIMEOUT" "RpcTimeoutError"
  else if mentions ["invalid", "malformed", "unexpected response", "parse error", "bad response"] cs then
    contractExecutionError ("Invalid RPC response: " ++ msg) "INVALID_RESPONSE" "InvalidResponseError"
  else if mentions ["simulate"] cs then
    contractExecutionError ("Simulation failed: " ++ msg) "SIMULATION_FAILED"
  else if mentions ["fee", "insufficient"] cs then
    contractExecutionError ("Insufficient fee: " ++ msg) "INSUFFICIENT_FEE"
  else if mentions ["revert", "trap", "wasm"] cs then
    contractExecutionError ("Contract reverted: " ++ msg) "CONTRACT_REVERT"
  else if mentions ["submit", "send"] cs then
    contractExecutionError ("Transaction submission failed: " ++ msg) "TRANSACTION_SUBMISSION_FAILED"
  else contractExecutionError ("Unknown RPC error: " ++ msg) "UNKNOWN_RPC_ERROR"

end

end ZkPayroll.Core
