import ZkPayroll.Core.Idempotency
import ZkPayroll.Core.Retry
import Mathlib.Data.Rat.Floor

/-!
# Retry budgets

`core/retry-budget.ts`: the budget of an operation, and `withRetryBudget`, a
loop of attempts with a wait after each. A `RetrySequence` is one call of
`withRetryBudget` in a world of calls; its steps (`RetrySequence.Step`) are
what happens to it and around it. Every step that runs code of the loop runs it
to its next `await`, with the readings of the clock and of the random source
that it takes (`Reads`).
-/

namespace ZkPayroll.Core.RetryBudget

open Framework Idempotency

/-! ## Budgets -/

inductive RetryOperationType where
  | READ
  | WRITE
  | POLL
  deriving DecidableEq, Repr

def RetryOperationType.toString : RetryOperationType → String
  | .READ => "read"
  | .WRITE => "write"
  | .POLL => "poll"

/-- `RetryBudgetConfig`, with the fields of `RetryBackoffConfig`. -/
structure RetryBudgetConfig where
  initialDelayMs : ℚ
  backoffFactor : ℚ
  maxDelayMs : ℚ
  jitterMs : ℚ
  maxAttempts : Int
  timeoutMs : Option Int
  idempotencyRequired : Bool

/-- `Partial<RetryBudgetConfig>`. -/
structure PartialRetryBudget where
  initialDelayMs : Option ℚ := none
  backoffFactor : Option ℚ := none
  maxDelayMs : Option ℚ := none
  jitterMs : Option ℚ := none
  maxAttempts : Option Int := none
  timeoutMs : Option Int := none
  idempotencyRequired : Option Bool := none

structure RetryBudgetByOperation where
  read : PartialRetryBudget := {}
  write : PartialRetryBudget := {}
  poll : PartialRetryBudget := {}

def RetryBudgetByOperation.get (budgets : RetryBudgetByOperation) : RetryOperationType → PartialRetryBudget
  | .READ => budgets.read
  | .WRITE => budgets.write
  | .POLL => budgets.poll

/-- `DEFAULT_RETRY_BUDGETS`. -/
def defaultRetryBudget (operationType : RetryOperationType) : RetryBudgetConfig where
  maxAttempts := if operationType = .WRITE then 1 else 3
  initialDelayMs := 100
  backoffFactor := 2
  maxDelayMs := 1600
  jitterMs := 0
  timeoutMs := none
  idempotencyRequired := operationType = .WRITE

/-- `{ ...b, ...o }`, where an override that is there is not `undefined`. -/
def RetryBudgetConfig.merge (b : RetryBudgetConfig) (o : PartialRetryBudget) : RetryBudgetConfig where
  initialDelayMs := o.initialDelayMs.getD b.initialDelayMs
  backoffFactor := o.backoffFactor.getD b.backoffFactor
  maxDelayMs := o.maxDelayMs.getD b.maxDelayMs
  jitterMs := o.jitterMs.getD b.jitterMs
  maxAttempts := o.maxAttempts.getD b.maxAttempts
  timeoutMs := o.timeoutMs.or b.timeoutMs
  idempotencyRequired := o.idempotencyRequired.getD b.idempotencyRequired

def resolveRetryBudget (operationType : RetryOperationType) (budgets : RetryBudgetByOperation)
    (overrides : PartialRetryBudget) : RetryBudgetConfig :=
  ((defaultRetryBudget operationType).merge (budgets.get operationType)).merge overrides

def computeBackoffDelay (attempt : Nat) (budget : RetryBudgetConfig) (random : ℚ) : ℚ :=
  let attemptIndex := max 1 attempt
  let exponentialDelay := budget.initialDelayMs * budget.backoffFactor ^ (attemptIndex - 1)
  let cappedDelay := min exponentialDelay budget.maxDelayMs
  let jitter : ℚ := if budget.jitterMs > 0 then ⌊random * (budget.jitterMs + 1)⌋ else 0
  cappedDelay + jitter

/-! ## Options -/

/-- The options that `withRetryBudget` reads; the signal is part of a
`RetrySequence`, and what the injected functions return is of its steps. -/
structure WithRetryBudgetOptions where
  operationType : RetryOperationType := .READ
  budget : PartialRetryBudget := {}
  budgets : RetryBudgetByOperation := {}
  idempotencyKey : Option String := none
  attemptTimeoutMs : Option Int := none
  /-- There is a registry: that of the world. -/
  registry : Bool := false

namespace WithRetryBudgetOptions

variable (o : WithRetryBudgetOptions)

def retryBudget : RetryBudgetConfig := resolveRetryBudget o.operationType o.budgets o.budget

/-- The key, without the white space around it. -/
def key : String := normalizeIdempotencyKey (o.idempotencyKey.getD "")

def hasIdempotencyKey : Bool := o.key != ""

def retryRefused : Bool := o.retryBudget.idempotencyRequired && !o.hasIdempotencyKey

def maxAttempts : Int := if o.retryRefused then 1 else max 1 o.retryBudget.maxAttempts

end WithRetryBudgetOptions

/-! ## Outcomes -/

structure RetryBudgetExhaustedError where
  message : String
  operationType : RetryOperationType
  attempts : Int
  maxAttempts : Int
  retryRefused : Bool
  deadlineExceeded : Bool
  cause : SdkError

structure RetryCancelledError where
  message : String
  operationType : RetryOperationType

/-- How a call of `withRetryBudget` ends. -/
inductive Outcome (T : Type) where
  /-- The value `undefined` is `none`. -/
  | resolved (value : Option T)
  | threw (e : SdkError)
  | exhausted (e : RetryBudgetExhaustedError)
  | cancelled (e : RetryCancelledError)

variable {T : Type}

def cancelled (o : WithRetryBudgetOptions) (stage : String) : Outcome T :=
  .cancelled
    { message := s!"Retry sequence for {o.operationType.toString} was cancelled " ++ stage
      operationType := o.operationType }

def exhausted (o : WithRetryBudgetOptions) (attempts : Int) (deadlineExceeded : Bool) (cause : SdkError) :
    Outcome T :=
  let lastMessage := if cause.isUndefined then "no attempt completed" else cause.message
  let op := o.operationType.toString
  let message :=
    if o.retryRefused then
      s!"Retry budget for {op} refused to retry after {attempts} attempt(s): non-idempotent operations " ++
        "require an idempotency key/nonce before they can be retried safely (last error: " ++ lastMessage ++ ")"
    else if deadlineExceeded then
      let timeoutMs := (o.retryBudget.timeoutMs.map toString).getD "undefined"
      s!"Retry budget for {op} exceeded its {timeoutMs}ms deadline after {attempts} attempt(s) " ++
        s!"(max {o.maxAttempts}) - giving up (last error: {lastMessage})"
    else
      s!"Retry budget for {op} exhausted after {attempts} attempt(s) (max {o.maxAttempts}) - giving up " ++
        s!"(last error: {lastMessage})"
  .exhausted
    { message := message
      operationType := o.operationType
      attempts := attempts
      maxAttempts := o.maxAttempts
      retryRefused := o.retryRefused
      deadlineExceeded := deadlineExceeded
      cause := cause }

/-- `RetryAttemptTimeoutError`. -/
def timeoutError (o : WithRetryBudgetOptions) (attempt : Nat) : SdkError :=
  let ms := (o.attemptTimeoutMs.map toString).getD "undefined"
  { genericError s!"Attempt {attempt} of {o.operationType.toString} did not complete within {ms}ms" with
    name := "RetryAttemptTimeoutError" }

/-! ## Calls of the function -/

/-- What a function does when it is called: it returns its promise, or throws. -/
inductive FnCall where
  | promise
  | throws (e : SdkError)

/-- What an attempt waits for. -/
inductive Awaited where
  | call (id : Nat)
  | rejected (e : SdkError)

def Awaited.ids : Awaited → List Nat
  | .call id => [id]
  | .rejected _ => []

/-- `registry.execute(key, fn, { ttlMs: 0 })`, with the call of the function. -/
def executeAttempt (w : World T) (key : String) (f : FnCall) : Awaited × World T :=
  match w.execute key { ttlMs := some 0 } with
  | (.threw e, w') => (.rejected e, w')
  | (.existing id, w') => (.call id, w')
  | (.started id, w') =>
    match w'.calls[id]?, f with
    | some c, .promise => (.call id, w'.returned id c)
    | some c, .throws e => (.call id, w'.setState id c (.finished (.error e)))
    | none, _ => (.call id, w')

/-- `fn()`. A call that no registry knows has the empty key, which no entry
has. -/
def callDirectly (w : World T) (f : FnCall) : Awaited × World T :=
  let state := match f with
    | .promise => CallState.pending
    | .throws e => .finished (.error e)
  (.call w.calls.length,
    { w with calls := w.calls ++ [{ key := "", ttlMs := 0, cacheErrors := false, state := state }] })

/-- An attempt is started. -/
def invokeAttempt (o : WithRetryBudgetOptions) (w : World T) (f : FnCall) : Awaited × World T :=
  if o.registry && o.hasIdempotencyKey then executeAttempt w (o.idempotencyKey.getD "") f
  else callDirectly w f

/-- What an attempt waits for has come to an end. -/
def Awaited.result (w : World T) : Awaited → Option (Except SdkError T)
  | .rejected e => some (.error e)
  | .call id =>
    match (w.calls[id]?).map Call.state with
    | some (.finished result) => some result
    | _ => none

/-! ## The loop -/

/-- How far the loop has come. -/
inductive Phase (T : Type) where
  | idle
  /-- In `runAttemptWithTimeout`; the timer may be running. -/
  | attempting (attempt : Nat) (awaited : Awaited) (timer : Bool)
  /-- In the sleep after an attempt. -/
  | sleeping (attempt : Nat) (lastError : SdkError)
  | done (outcome : Outcome T)

/-- A call of `withRetryBudget`, and where it is. -/
structure RetrySequence (T : Type) where
  world : World T
  aborted : Bool
  startedAt : Int
  phase : Phase T
  /-- The calls that its attempts have waited for. -/
  attempts : List Nat
  /-- Those among them that an attempt has stopped waiting for. -/
  abandoned : List Nat

/-- What a step reads: the clock, the random source, and what `onRetry` throws. -/
structure Reads where
  now : Int
  random : ℚ := 0
  onRetry : Option SdkError := none

namespace RetrySequence

variable (o : WithRetryBudgetOptions) (s : RetrySequence T)

/-- The deadline has passed, or will have after a delay. -/
def deadlineExceeded (now : Int) (delayMs : ℚ) : Bool :=
  match o.retryBudget.timeoutMs with
  | none => false
  | some timeoutMs => decide ((timeoutMs : ℚ) ≤ (now - s.startedAt : Int) + delayMs)

variable (r : Reads)

/-- What ends the loop before an attempt calls the function. -/
def stopped (attempt : Nat) (lastError : SdkError) : Option (Outcome T) :=
  if s.aborted then some (cancelled o s!"before attempt {attempt}")
  else if s.deadlineExceeded o r.now 0 then some (exhausted o (attempt - 1 : Nat) true lastError)
  else none

/-- The timer of an attempt is started when `invokeAttempt` has returned. -/
def hasTimer (f : FnCall) : Bool :=
  o.attemptTimeoutMs.isSome &&
    match f with
    | .promise => true
    | .throws _ => o.registry && o.hasIdempotencyKey

/-- The loop up to the end of `invokeAttempt`. -/
def beginAttempt (f : FnCall) (attempt : Nat) (lastError : SdkError) : RetrySequence T :=
  match s.stopped o r attempt lastError with
  | some outcome => { s with phase := .done outcome }
  | none =>
    let (awaited, world) := invokeAttempt o s.world f
    { s with
      world := world
      phase := .attempting attempt awaited (hasTimer o f)
      attempts := s.attempts ++ awaited.ids }

/-- The loop from the failure of an attempt to its sleep. -/
def failAttempt (attempt : Nat) (attemptError : SdkError) (timedOut : Bool) : RetrySequence T :=
  if o.maxAttempts ≤ attempt then { s with phase := .done (exhausted o o.maxAttempts false attemptError) }
  else if !timedOut && (classifyError attemptError).category == .NON_RETRYABLE then
    { s with phase := .done (.threw attemptError) }
  else
    match r.onRetry with
    | some e => { s with phase := .done (.threw e) }
    | none =>
      let backoffMs := computeBackoffDelay attempt o.retryBudget r.random
      if s.deadlineExceeded o r.now backoffMs then
        { s with phase := .done (exhausted o attempt true attemptError) }
      else { s with phase := .sleeping attempt attemptError }

/-- The `catch` of the loop. -/
def catchAttempt (attempt : Nat) (err : SdkError) : RetrySequence T :=
  if s.aborted then { s with phase := .done (cancelled o s!"after attempt {attempt}") }
  else s.failAttempt o r attempt err false

/-- `onAttemptSettled`, and the loop after it. With a timer, a rejection with
`undefined` counts as a result. -/
def attemptSettled (attempt : Nat) (timer : Bool) : Except SdkError T → RetrySequence T
  | .ok value => { s with phase := .done (.resolved (some value)) }
  | .error err =>
    if timer && err.isUndefined then { s with phase := .done (.resolved none) }
    else s.catchAttempt o r attempt err

end RetrySequence

/-! ## Steps -/

/-- What happens to a sequence or around it. -/
inductive RetryEvent (T : Type) where
  | start (startedAt : Int) (r : Reads) (f : FnCall)
  | settled (r : Reads)
  | timedOut (r : Reads)
  | timerRejected (r : Reads) (e : SdkError)
  | slept (r : Reads) (f : FnCall)
  | sleepRejected (e : SdkError)
  | abort
  /-- An attempt of another sequence with the same key and registry. -/
  | shared (key : String) (f : FnCall)
  /-- What else happens to the registry and its calls. -/
  | other (e : Event T)

/-- The event is a call of `execute` with the key. -/
def executesKey (key : String) : Event T → Prop
  | .execute key' _ => normalizeIdempotencyKey key' = key
  | _ => False

inductive RetrySequence.Step (o : WithRetryBudgetOptions) (s : RetrySequence T) :
    RetryEvent T → RetrySequence T → Prop
  | start (startedAt : Int) (r : Reads) (f : FnCall) (h : s.phase = .idle) :
    s.Step o (.start startedAt r f)
      (if s.aborted then { s with phase := .done (cancelled o "before the first attempt") }
      else { s with startedAt := startedAt }.beginAttempt o r f 1 undefinedValue)
  | settled (r : Reads) {attempt : Nat} {awaited : Awaited} {timer : Bool} {result : Except SdkError T}
      (h : s.phase = .attempting attempt awaited timer) (hr : awaited.result s.world = some result) :
    s.Step o (.settled r) (s.attemptSettled o r attempt timer result)
  | timedOut (r : Reads) {attempt : Nat} {awaited : Awaited} (h : s.phase = .attempting attempt awaited true) :
    s.Step o (.timedOut r)
      ({ s with abandoned := s.abandoned ++ awaited.ids }.failAttempt o r attempt
        (timeoutError o attempt) true)
  | timerRejected (r : Reads) (e : SdkError) {attempt : Nat} {awaited : Awaited}
      (h : s.phase = .attempting attempt awaited true) :
    s.Step o (.timerRejected r e)
      ({ s with abandoned := s.abandoned ++ awaited.ids }.attemptSettled o r attempt true
        (.error e))
  | slept (r : Reads) (f : FnCall) {attempt : Nat} {lastError : SdkError}
      (h : s.phase = .sleeping attempt lastError) :
    s.Step o (.slept r f) (s.beginAttempt o r f (attempt + 1) lastError)
  | sleepRejected (e : SdkError) {attempt : Nat} {lastError : SdkError}
      (h : s.phase = .sleeping attempt lastError) :
    s.Step o (.sleepRejected e)
      { s with phase := .done (if s.aborted then cancelled o "during the backoff delay" else .threw e) }
  | abort : s.Step o .abort { s with aborted := true }
  | shared {key : String} (f : FnCall) (hk : normalizeIdempotencyKey key = o.key) :
    s.Step o (.shared key f) { s with world := (executeAttempt s.world key f).2 }
  | other {e : Event T} {w : World T} (hw : s.world.Step e w) (he : ¬executesKey o.key e) :
    s.Step o (.other e) { s with world := w }

/-- The step is an attempt that starts the function: it waits for a new call. -/
def RetrySequence.StartsFn (s s' : RetrySequence T) : Prop :=
  s'.attempts = s.attempts ++ [s.world.calls.length]

end ZkPayroll.Core.RetryBudget
