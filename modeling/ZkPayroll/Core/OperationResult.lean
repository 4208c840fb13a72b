import ZkPayroll.Core.Errors
import ZkPayroll.Core.Retry
import ZkPayroll.Framework.Guards
import ZkPayroll.Framework.Json
import ZkPayroll.Redaction.RedactionEngine
import ZkPayroll.Remediation.Mapper

/-!
# Results of operations

`runSdkOperation` of `core/operationResult.ts`. What its callbacks do is given
(`execute`, `SdkOperationRunnerOptions`), and a run logs the calls of them that
it makes (`CallbackCall`). It calls `validate` and `execute` at most once, and
`onEvent` at most once for each stage.
-/

namespace ZkPayroll.Core.OperationResult

open Framework Redaction Remediation

/-! ## Data -/

abbrev ErrorContext := List (String × Json Int)

/-- A thrown value, and what comes of processing it. A message that is no text
stands as its `String`, and a code of an SDK error that is none as the code that
guidance is looked up for. -/
structure RawError where
  error : SdkError
  /-- Of an SDK error: the properties of its context, or what listing them throws
  (it is `null`). -/
  context : Except SdkError ErrorContext := .ok []
  /-- What telling its class and reading its code throws. -/
  codeError : Option SdkError := none
  /-- What `String` throws of it or, if it is an `Error`, of its message. -/
  stringError : Option SdkError := none
  /-- What `error.message.replace` throws of an `Error` whose message is no text. -/
  replaceError : Option SdkError := none
  /-- What its constructor makes of a message, if its class is not one of those
  that `SdkError` names: the message of the new error. -/
  construct : Option (String → Except SdkError String) := none
  /-- What `classifyError` throws of it. -/
  classifyError : Option SdkError := none

inductive SdkOperationEventStage where
  | validating
  | executing
  | succeeded
  | failed
  deriving DecidableEq, Repr

structure SdkOperationEventError where
  code : String
  message : String
  deriving DecidableEq, Repr

structure SdkOperationEvent where
  operation : String
  stage : SdkOperationEventStage
  correlationId : String
  timestamp : String
  error : Option SdkOperationEventError := none
  deriving DecidableEq, Repr

/-- What `validate` returns. -/
inductive SdkOperationValidationInput where
  /-- `null`, `undefined`, or a value that is no object. -/
  | noObject
  /-- An object whose `ok` is `false`. -/
  | failed (code : Option String) (message : String)
  /-- A promise, and what it is rejected with. -/
  | promise (rejection : Option RawError)
  /-- Another object. -/
  | passed

structure SdkOperationRunnerOptions where
  operation : String
  correlationId : Option String := none
  /-- What `validate` returns or throws, or reading its answer does. -/
  validate : Option (Except RawError SdkOperationValidationInput) := none
  /-- What `onEvent` throws; a promise that it returns is not awaited. -/
  onEvent : Option (SdkOperationEvent → Option RawError) := none
  /-- The readings of the clock for the events. -/
  now : SdkOperationEventStage → String
  /-- The reading of the clock for the result. -/
  completedAt : String

structure SdkOperationRemediation where
  summary : String
  action : String
  selfServiceable : Bool

structure SdkOperationErrorDetail where
  code : String
  message : String
  attempted : Bool
  retryable : Bool
  retryReason : String
  remediation : SdkOperationRemediation

variable {T : Type}

inductive SdkOperationResult (T : Type) where
  | success (value : T) (correlationId timestamp : String)
  | failure (error : SdkOperationErrorDetail) (correlationId timestamp : String) (context : ErrorContext)

/-- A call of a callback, and what came of it. -/
inductive CallbackCall (T : Type) where
  | validate (outcome : Except RawError SdkOperationValidationInput)
  | execute (outcome : Except RawError T)
  | onEvent (event : SdkOperationEvent) (thrown : Option RawError)

def CallbackCall.isExecute : CallbackCall T → Bool
  | .execute _ => true
  | _ => false

/-- A part of a run: it changes the log. -/
abbrev Run (T α : Type) := Method RawError (List (CallbackCall T)) α

/-! ## Failures -/

def sdkOperationValidationErrorCode : String := "SDK_OPERATION_VALIDATION_FAILED"

def isZkPayrollError (e : SdkError) : Bool := e.kind != .error && e.kind != .notAnError

/-- What `e` throws, if anything. -/
def throwFault : Option SdkError → Except RawError Unit
  | none => .ok ()
  | some e => .error { error := e }

/-- `extractSdkErrorCode`. A code that is not a string, or blank, is the empty
code. -/
def extractSdkErrorCode (raw : RawError) : Except RawError String := do
  throwFault raw.codeError
  if isZkPayrollError raw.error then return raw.error.code
  if trim raw.error.code ≠ "" then return raw.error.code
  throwFault raw.stringError
  return (mapRpcError raw.error).code

/-- `sanitizeErrorMessage`. -/
def sanitizeErrorMessage (raw : RawError) : Except RawError String :=
  if raw.error.kind = .notAnError then .ok "Operation failed with an unrecognized thrown value."
  else do
    throwFault raw.replaceError
    match raw.construct with
    | none => return (redactError raw.error).message
    | some construct => (construct (redactMessage raw.error.message)).mapError fun e => { error := e }

/-- `redactObject(context).redacted`. A property `__proto__` that is assigned is
not one of the new object. -/
def redactObject (context : ErrorContext) : ErrorContext :=
  (context.filter fun f => f.1 != "__proto__").map fun f =>
    if f.1 ∈ defaultSensitiveFields then (f.1, .str "[redacted]") else f

def extractRedactedContext (raw : RawError) : Except RawError ErrorContext :=
  if isZkPayrollError raw.error then (raw.context.map redactObject).mapError fun e => { error := e } else .ok []

def buildRemediation (code : String) : Except RawError SdkOperationRemediation :=
  match mapErrorToRemediation code with
  | .error e => .error { error := e }
  | .ok remediation =>
    .ok { summary := remediation.summary
          action := remediation.guidance.action
          selfServiceable := remediation.guidance.selfServiceable }

def buildValidationFailure (message code : String) : Except RawError SdkOperationErrorDetail := do
  let remediation ← buildRemediation code
  return {
    code := code
    message := message
    attempted := false
    retryable := false
    retryReason := "Validation errors are not retryable — they indicate invalid input"
    remediation := remediation }

/-- The detail of an operation that was attempted. -/
def buildFailure (rawError : RawError) : Except RawError SdkOperationErrorDetail := do
  let code ← extractSdkErrorCode rawError
  let message ← sanitizeErrorMessage rawError
  throwFault rawError.classifyError
  let decision := classifyError rawError.error
  let remediation ← buildRemediation code
  return {
    code := code
    message := message
    attempted := true
    retryable := decision.retryable
    retryReason := decision.reason
    remediation := remediation }

/-! ## A run -/

namespace SdkOperationRunnerOptions

variable (options : SdkOperationRunnerOptions) (correlationId : String)

def event (stage : SdkOperationEventStage) (error : Option SdkOperationEventError := none) : SdkOperationEvent where
  operation := options.operation
  stage := stage
  correlationId := correlationId
  timestamp := options.now stage
  error := error

def emit (stage : SdkOperationEventStage) (error : Option SdkOperationEventError := none) : Run T Unit := do
  match options.onEvent with
  | none => pure ()
  | some onEvent =>
    let event := options.event correlationId stage error
    let thrown := onEvent event
    modify fun calls => calls ++ [.onEvent event thrown]
    match thrown with
    | none => pure ()
    | some e => throw e

/-- The end of a failed run. -/
def fail (failure : SdkOperationErrorDetail) (context : Except RawError ErrorContext) :
    Run T (SdkOperationResult T) := do
  options.emit correlationId .failed (some { code := failure.code, message := failure.message })
  let context ← liftM context
  return .failure failure correlationId options.completedAt context

/-- The body of the `try`. -/
def perform (execute : Except RawError T) : Run T (SdkOperationResult T) := do
  modify fun calls => calls ++ [.execute execute]
  let value ← liftM execute
  options.emit correlationId .succeeded
  return .success value correlationId options.completedAt

/-- The body of the `catch`. -/
def handle (rawError : RawError) : Run T (SdkOperationResult T) := do
  let failure ← liftM (buildFailure rawError)
  options.fail correlationId failure (extractRedactedContext rawError)

/-- `emit("executing")`, and what follows it. -/
def attempt (execute : Except RawError T) : Run T (SdkOperationResult T) := do
  options.emit correlationId .executing
  tryCatch (options.perform correlationId execute) (options.handle correlationId)

end SdkOperationRunnerOptions

/-- `runSdkOperation`; `generated` is the correlation id that it generates. -/
def runSdkOperation (execute : Except RawError T) (options : SdkOperationRunnerOptions) (generated : String) :
    Run T (SdkOperationResult T) := do
  let correlationId := options.correlationId.getD generated
  match options.validate with
  | none => options.attempt correlationId execute
  | some validate =>
    options.emit correlationId .validating
    modify fun calls => calls ++ [.validate validate]
    let validation ← liftM validate
    match validation with
    | .noObject =>
      let failure ← liftM (buildValidationFailure "Operation validation returned an invalid result."
        sdkOperationValidationErrorCode)
      options.fail correlationId failure (.ok [])
    | .failed code message =>
      let failure ← liftM (buildValidationFailure message (code.getD sdkOperationValidationErrorCode))
      options.fail correlationId failure (.ok [])
    | .promise _ | .passed => options.attempt correlationId execute

end ZkPayroll.Core.OperationResult
