import Mathlib.Algebra.Order.Ring.Cast
import Mathlib.Data.List.Chain
import ZkPayroll.Core.Errors
import ZkPayroll.Framework.AttemptLoop
import ZkPayroll.Framework.JsArithmetic
import ZkPayroll.Treasury.Readiness

/-!
# Polling

`polling.ts`: `pollTransaction` asks a server for a transaction, and
`pollPayrollCompletion` a caller for a status, until there is nothing more to wait
for. Both are loops of attempts (`Framework.AttemptLoop`). A turn has what the
loop reads around one check: the clock, whether the signal is aborted, and what
the check comes to.

No check is made at or after the deadline but the first one of
`pollPayrollCompletion`. So, where a wait takes as long as it should and the clock
does not go back, the interval bounds the number of checks
(`length_transactionChecks`, `length_statusChecks`).
-/

namespace ZkPayroll.Core.Polling

open Framework Treasury

variable {ν : Type} [Ring ν] [LinearOrder ν] [NumberFormat ν]

/-- `Date.now() - startTime`. -/
def elapsed (startTime now : Int) : ν := ((now - startTime : Int) : ν)

/-! ## Transactions -/

/-- What `server.getTransaction` reports. -/
inductive TransactionResponse (V : Type) where
  | SUCCESS (returnValue : Option V) (ledger : Option Nat)
  | FAILED
  | NOT_FOUND

inductive TransactionStatusResult (V : Type) where
  | SUCCESS (returnValue : Option V) (ledger : Option Nat) (txHash : String)
  | FAILED (txHash : String)

structure PollTransactionOptions (ν : Type) where
  timeoutMs : Option (JsNumber ν) := none
  intervalMs : Option (JsNumber ν) := none

namespace PollTransactionOptions

def timeout (options : PollTransactionOptions ν) : JsNumber ν := options.timeoutMs.getD (.finite ((30000 : Nat) : ν))

def interval (options : PollTransactionOptions ν) : JsNumber ν := options.intervalMs.getD (.finite ((2000 : Nat) : ν))

end PollTransactionOptions

/-- One turn of the loop of `pollTransaction`. -/
structure TransactionTurn (V : Type) where
  /-- The clock, in the condition of the loop. -/
  now : Int
  aborted : Bool := false
  response : Except SdkError (TransactionResponse V)
  /-- The signal is aborted before the wait is over. -/
  sleepAborted : Bool := false

def transactionCancelled (txHash : String) : SdkError :=
  genericError s!"Polling for transaction {txHash} was cancelled."

def transactionTimeout (txHash : String) (timeoutMs : JsNumber ν) : SdkError :=
  contractExecutionError s!"Transaction {txHash} timed out after {numberText timeoutMs}ms" "TRANSACTION_TIMEOUT"

/-- The loop of `pollTransaction`; its state is the number of checks made. -/
def transactionLoop (V : Type) (txHash : String) (options : PollTransactionOptions ν) (startTime : Int) :
    AttemptLoop Nat (TransactionTurn V) (JsNumber ν) (Except SdkError (TransactionStatusResult V)) where
  enter _ t :=
    if JsNumber.lt (.finite (elapsed startTime t.now)) options.timeout = false then
      some (.error (transactionTimeout txHash options.timeout))
    else if t.aborted then some (.error (transactionCancelled txHash))
    else none
  leave n t :=
    match t.response with
    | .error e => .inl (.error e)
    | .ok (.SUCCESS returnValue ledger) => .inl (.ok (.SUCCESS returnValue ledger txHash))
    | .ok .FAILED => .inl (.ok (.FAILED txHash))
    | .ok .NOT_FOUND =>
      if t.sleepAborted then .inl (.error (transactionCancelled txHash)) else .inr (options.interval, n + 1)

def pollTransaction {V : Type} (txHash : String) (options : PollTransactionOptions ν) (startTime : Int)
    (turns : List (TransactionTurn V)) :
    Progress (TransactionTurn V) (JsNumber ν) (Except SdkError (TransactionStatusResult V)) :=
  (transactionLoop V txHash options startTime).run 0 turns

section

variable {V : Type} (txHash : String) (options : PollTransactionOptions ν) (startTime : Int)

/-- The check of the turn is made. -/
structure TransactionTurn.Begun (t : TransactionTurn V) : Prop where
  inTime : JsNumber.lt (.finite (elapsed startTime t.now)) options.timeout = true
  not_aborted : t.aborted = false

/-- The check of the turn is made, and leads to another one. -/
structure TransactionTurn.Missed (t : TransactionTurn V) : Prop extends t.Begun options startTime where
  notFound : t.response = .ok .NOT_FOUND
  not_cancelled : t.sleepAborted = false

/-- What the check of the turn says of the transaction, if it says something. -/
inductive TransactionTurn.Reports (t : TransactionTurn V) : TransactionStatusResult V → Prop
  | success {returnValue : Option V} {ledger : Option Nat} (h : t.response = .ok (.SUCCESS returnValue ledger)) :
      t.Reports (.SUCCESS returnValue ledger txHash)
  | failure (h : t.response = .ok .FAILED) : t.Reports (.FAILED txHash)

/-- What a call of `pollTransaction` comes to. -/
structure TransactionPolled (turns : List (TransactionTurn V))
    (p : Progress (TransactionTurn V) (JsNumber ν) (Except SdkError (TransactionStatusResult V))) : Prop where
  /-- It settles with the first report. -/
  settles_iff : ∀ r, p.outcome = some (.ok r) ↔
    ∃ ts t rest, turns = ts ++ t :: rest ∧ (∀ u ∈ ts, u.Missed options startTime) ∧ t.Begun options startTime ∧
      t.Reports txHash r
  begun : ∀ t ∈ p.attempts, t.Begun options startTime
  missed : ∀ t ∈ p.attempts.dropLast, t.Missed options startTime
  waits : ∀ d ∈ p.waits, d = options.interval

variable {txHash options startTime}
variable {t : TransactionTurn V}

theorem transaction_enter {n : Nat} :
    (transactionLoop V txHash options startTime).enter n t = none ↔ t.Begun options startTime := by
  simp only [transactionLoop]
  constructor
  · intro h
    split at h
    · cases h
    · rename_i hlt
      split at h
      · cases h
      · rename_i ha
        exact ⟨by simpa using hlt, by simpa using ha⟩
  · rintro ⟨hlt, ha⟩
    rw [if_neg (by simp [hlt]), if_neg (by simp [ha])]

theorem transaction_leave {n : Nat} {d : JsNumber ν} {n' : Nat} :
    (transactionLoop V txHash options startTime).leave n t = .inr (d, n') ↔
      (t.response = .ok .NOT_FOUND ∧ t.sleepAborted = false) ∧ d = options.interval ∧ n' = n + 1 := by
  simp only [transactionLoop]
  rcases hr : t.response with e | r
  · simp
  · cases r with
    | SUCCESS returnValue ledger => simp
    | FAILED => simp
    | NOT_FOUND =>
      cases ha : t.sleepAborted with
      | true => simp
      | false => simp [eq_comm]

theorem transaction_settles {n : Nat} {r : TransactionStatusResult V} :
    ((transactionLoop V txHash options startTime).enter n t = some (.ok r) ∨
        (transactionLoop V txHash options startTime).enter n t = none ∧
          (transactionLoop V txHash options startTime).leave n t = .inl (.ok r)) ↔
      t.Begun options startTime ∧ t.Reports txHash r := by
  rw [transaction_enter]
  constructor
  · rintro (he | ⟨hb, hl⟩)
    · simp only [transactionLoop] at he
      repeat' split at he
      all_goals cases he
    · refine ⟨hb, ?_⟩
      simp only [transactionLoop] at hl
      split at hl
      · cases hl
      · rename_i hr
        cases hl
        exact .success hr
      · rename_i hr
        cases hl
        exact .failure hr
      · split at hl
        · cases hl
        · cases hl
  · rintro ⟨hb, hr⟩
    refine .inr ⟨hb, ?_⟩
    cases hr with
    | success h => simp only [transactionLoop, h]
    | failure h => simp only [transactionLoop, h]

theorem transaction_counts : (transactionLoop V txHash options startTime).Counts id
    (fun _ t => t.Begun options startTime) (fun _ t => t.Missed options startTime) where
  enter := transaction_enter
  leave hb := by
    constructor
    · rintro ⟨d, n', hl⟩
      obtain ⟨⟨hr, hs⟩, -, -⟩ := transaction_leave.mp hl
      exact { hb with notFound := hr, not_cancelled := hs }
    · exact fun hm => ⟨_, _, transaction_leave.mpr ⟨⟨hm.notFound, hm.not_cancelled⟩, rfl, rfl⟩⟩
  next _ hl := (transaction_leave.mp hl).2.2
  begun hm := hm.toBegun

theorem attempts_of_transaction (txHash : String) (options : PollTransactionOptions ν) (startTime : Int)
    (turns : List (TransactionTurn V)) :
    (∀ t ∈ (pollTransaction txHash options startTime turns).attempts, t.Begun options startTime) ∧
      ∀ t ∈ (pollTransaction txHash options startTime turns).attempts.dropLast, t.Missed options startTime := by
  have hcounts : (transactionLoop V txHash options startTime).Counts id _ _ := transaction_counts
  have hattempts := hcounts.attempts 0 turns
  exact ⟨AttemptLoop.allAt_const.mp hattempts.1, AttemptLoop.allAt_const.mp hattempts.2⟩

/-- A call of `pollTransaction` settles with the first report, and makes no check
after the deadline, after the signal is aborted, or after a report. -/
theorem transactionPolled (txHash : String) (options : PollTransactionOptions ν) (startTime : Int)
    (turns : List (TransactionTurn V)) :
    TransactionPolled txHash options startTime turns (pollTransaction txHash options startTime turns) where
  settles_iff r := by
    rw [pollTransaction, transaction_counts.outcome_eq_some_iff
      (fun _ t => t.Begun options startTime ∧ t.Reports txHash r) fun _ _ => transaction_settles]
    simp only [AttemptLoop.allAt_const]
  begun := (attempts_of_transaction txHash options startTime turns).1
  missed := (attempts_of_transaction txHash options startTime turns).2
  waits := AttemptLoop.allAt_const.mp
    (transaction_counts.allAt_waits (fun _ _ _ _ _ hl => (transaction_leave.mp hl).2.1) 0 turns)

end

/-! ## Completion of a payroll -/

structure PollPayrollCompletionOptions (ν : Type) where
  timeoutMs : Option (JsNumber ν) := none
  intervalMs : Option (JsNumber ν) := none
  timeoutMessage : Option String := none

/-- What `assertBoundedPollOptions` lets pass. -/
structure PollBounds (ν : Type) [Ring ν] [LinearOrder ν] where
  timeoutMs : ν
  intervalMs : ν
  timeoutMs_pos : 0 < timeoutMs
  intervalMs_pos : 0 < intervalMs

/-- A number that is finite and positive. -/
def positive : JsNumber ν → Option { n : ν // 0 < n }
  | .finite n => if h : 0 < n then some ⟨n, h⟩ else none
  | _ => none

omit [NumberFormat ν] in
theorem positive_eq_some {n : JsNumber ν} {p : { n : ν // 0 < n }} : positive n = some p ↔ n = .finite p.val := by
  constructor
  · intro h
    unfold positive at h
    split at h
    · split at h
      · cases h
        rfl
      · cases h
    · cases h
  · rintro rfl
    exact dif_pos p.property

def assertBoundedPollOptions (timeoutMs intervalMs : JsNumber ν) (method : String) : Except SdkError (PollBounds ν) :=
  let refused (field : String) (n : JsNumber ν) : SdkError :=
    { genericError s!"{method} requires a positive {field} (got {numberText n})." with name := "RangeError" }
  match positive timeoutMs with
  | none => .error (refused "timeoutMs" timeoutMs)
  | some t =>
    match positive intervalMs with
    | none => .error (refused "intervalMs" intervalMs)
    | some i =>
      .ok { timeoutMs := t.val, intervalMs := i.val, timeoutMs_pos := t.property, intervalMs_pos := i.property }

structure PayrollCompletionResult (T : Type) where
  value : T
  attempts : Nat
  elapsedMs : Int

/-- One turn of the loop of `pollPayrollCompletion`. -/
structure StatusTurn (T : Type) where
  aborted : Bool := false
  /-- What `getStatus` settles with. -/
  status : Except SdkError T
  /-- The signal when `getStatus` or `isComplete` has thrown. -/
  abortedAfter : Bool := false
  /-- The clock when the status is known. -/
  now : Int
  /-- The clock when the length of the wait is decided. -/
  sleptAt : Int
  /-- The signal is aborted before the wait is over. -/
  sleepAborted : Bool := false
  /-- The clock after the wait. -/
  woken : Int

def completionCancelled : SdkError := genericError "Payroll completion polling was cancelled."

/-- The callbacks of a call. -/
structure Callbacks (T : Type) where
  isComplete : T → Except SdkError Bool
  onAttempt : Nat → T → Except SdkError Unit := fun _ _ => .ok ()

section

variable {T : Type} (callbacks : Callbacks T) (bounds : PollBounds ν) (timeoutMessage : Option String) (startTime : Int)

def completionTimeout (attempts : Nat) : SdkError :=
  let timeoutMs := numberText (.finite bounds.timeoutMs)
  contractExecutionError
    (timeoutMessage.getD s!"Payroll did not reach a terminal state within {timeoutMs}ms (attempts: {attempts}).")
    "TRANSACTION_TIMEOUT"

/-- The wait after a check. -/
def waitAfter (t : StatusTurn T) : ν :=
  min bounds.intervalMs (max 0 (bounds.timeoutMs - elapsed startTime t.sleptAt))

/-- The loop of `pollPayrollCompletion`; its state is the number of checks made. -/
def completionLoop : AttemptLoop Nat (StatusTurn T) ν (Except SdkError (PayrollCompletionResult T)) where
  enter _ t := if t.aborted then some (.error completionCancelled) else none
  leave n t :=
    match t.status with
    | .error e => .inl (.error (if t.abortedAfter then completionCancelled else e))
    | .ok value =>
      match callbacks.onAttempt (n + 1) value with
      | .error e => .inl (.error e)
      | .ok _ =>
        match callbacks.isComplete value with
        | .error e => .inl (.error (if t.abortedAfter then completionCancelled else e))
        | .ok true => .inl (.ok { value := value, attempts := n + 1, elapsedMs := t.now - startTime })
        | .ok false =>
          if bounds.timeoutMs ≤ elapsed startTime t.now then
            .inl (.error (completionTimeout bounds timeoutMessage (n + 1)))
          else if t.sleepAborted then .inl (.error completionCancelled)
          else if bounds.timeoutMs ≤ elapsed startTime t.woken then
            .inl (.error (completionTimeout bounds timeoutMessage (n + 1)))
          else .inr (waitAfter bounds startTime t, n + 1)

end

def pollPayrollCompletion {T : Type} (callbacks : Callbacks T) (options : PollPayrollCompletionOptions ν)
    (startTime : Int) (turns : List (StatusTurn T)) :
    Progress (StatusTurn T) ν (Except SdkError (PayrollCompletionResult T)) :=
  match assertBoundedPollOptions (options.timeoutMs.getD (.finite ((60000 : Nat) : ν)))
      (options.intervalMs.getD (.finite ((2000 : Nat) : ν))) "pollPayrollCompletion" with
  | .error e => { attempts := [], waits := [], outcome := some (.error e) }
  | .ok bounds => (completionLoop callbacks bounds options.timeoutMessage startTime).run 0 turns

/-- A raw status, or an object with a `status` field. -/
inductive RunStatusValue where
  | text (status : String)
  /-- `none` is a field that is no string. -/
  | object (status : Option String)
  deriving DecidableEq

/-- `typeof value === "string" ? value : value?.status`, if that is a string. -/
def RunStatusValue.raw : RunStatusValue → Option String
  | .text status => some status
  | .object status => status

def terminalStatuses : List String := ["executed", "cancelled", "failed"]

def isTerminalPayrollRunStatus (status : String) : Bool := terminalStatuses.contains status

/-- The predicate of `waitForPayrollRunCompletion`. -/
def isRunComplete (toLowerCase : String → String) (value : RunStatusValue) : Bool :=
  match value.raw with
  | none => false
  | some raw =>
    let normalized := toLowerCase (trim raw)
    normalized == "executed" || normalized == "cancelled" || normalized == "failed" ||
      isTerminalPayrollRunStatus normalized

def waitForPayrollRunCompletion (toLowerCase : String → String)
    (onAttempt : Nat → RunStatusValue → Except SdkError Unit) (options : PollPayrollCompletionOptions ν)
    (startTime : Int) (turns : List (StatusTurn RunStatusValue)) :
    Progress (StatusTurn RunStatusValue) ν (Except SdkError (PayrollCompletionResult RunStatusValue)) :=
  pollPayrollCompletion { isComplete := fun value => .ok (isRunComplete toLowerCase value), onAttempt := onAttempt }
    options startTime turns

section

variable {T : Type} (callbacks : Callbacks T) (bounds : PollBounds ν) (timeoutMessage : Option String) (startTime : Int)

/-- The check of the turn, after `n` others, is made and leads to another one. -/
structure StatusTurn.Missed (n : Nat) (t : StatusTurn T) : Prop where
  not_aborted : t.aborted = false
  incomplete : ∃ value, t.status = .ok value ∧ callbacks.onAttempt (n + 1) value = .ok () ∧
    callbacks.isComplete value = .ok false
  checked : (elapsed startTime t.now : ν) < bounds.timeoutMs
  not_cancelled : t.sleepAborted = false
  inTime : (elapsed startTime t.woken : ν) < bounds.timeoutMs

/-- The check of the turn, after `n` others, finds the payroll complete. -/
structure StatusTurn.Completes (n : Nat) (t : StatusTurn T) (r : PayrollCompletionResult T) : Prop where
  not_aborted : t.aborted = false
  status : t.status = .ok r.value
  observed : callbacks.onAttempt (n + 1) r.value = .ok ()
  complete : callbacks.isComplete r.value = .ok true
  attempts : r.attempts = n + 1
  elapsedMs : r.elapsedMs = t.now - startTime

/-- What a rejection tells of a call that made the given checks. -/
inductive Rejection (turns attempts : List (StatusTurn T)) : SdkError → Prop
  | cancelled {t : StatusTurn T} (ht : t ∈ turns)
      (h : t.aborted = true ∨ t.abortedAfter = true ∨ t.sleepAborted = true) :
      Rejection turns attempts completionCancelled
  | timedOut {t : StatusTurn T} (ht : t ∈ attempts)
      (h : bounds.timeoutMs ≤ elapsed startTime t.now ∨ bounds.timeoutMs ≤ elapsed startTime t.woken) :
      Rejection turns attempts (completionTimeout bounds timeoutMessage attempts.length)
  | getStatus {t : StatusTurn T} {e : SdkError} (ht : t ∈ attempts.getLast?) (h : t.status = .error e) :
      Rejection turns attempts e
  | callback {t : StatusTurn T} {value : T} {e : SdkError} (ht : t ∈ attempts.getLast?) (hv : t.status = .ok value)
      (h : callbacks.onAttempt attempts.length value = .error e ∨ callbacks.isComplete value = .error e) :
      Rejection turns attempts e

/-- What a call of `pollPayrollCompletion` comes to. -/
structure CompletionPolled (turns : List (StatusTurn T))
    (p : Progress (StatusTurn T) ν (Except SdkError (PayrollCompletionResult T))) : Prop where
  /-- It resolves with the first value that is complete. -/
  resolves_iff : ∀ r, p.outcome = some (.ok r) ↔
    ∃ ts t rest, turns = ts ++ t :: rest ∧
      AttemptLoop.AllAt (StatusTurn.Missed callbacks bounds startTime) 0 ts ∧ t.Completes callbacks startTime ts.length r
  rejects : ∀ e, p.outcome = some (.error e) → Rejection callbacks bounds timeoutMessage startTime turns p.attempts e
  /-- There is no check after the signal is aborted, nor one after the deadline. -/
  begun : ∀ t ∈ p.attempts, t.aborted = false
  missed : AttemptLoop.AllAt (StatusTurn.Missed callbacks bounds startTime) 0 p.attempts.dropLast
  /-- No wait is longer than the interval. -/
  waits : ∀ d ∈ p.waits, 0 ≤ d ∧ d ≤ bounds.intervalMs

variable {callbacks bounds timeoutMessage startTime}
variable {t : StatusTurn T}

theorem completion_enter {n : Nat} :
    (completionLoop callbacks bounds timeoutMessage startTime).enter n t = none ↔ t.aborted = false := by
  simp [completionLoop]

theorem completion_leave {n n' : Nat} {d : ν} (ha : t.aborted = false) :
    (completionLoop callbacks bounds timeoutMessage startTime).leave n t = .inr (d, n') ↔
      t.Missed callbacks bounds startTime n ∧ d = waitAfter bounds startTime t ∧ n' = n + 1 := by
  simp only [completionLoop]
  constructor
  · intro h
    split at h
    · cases h
    · rename_i value hs
      split at h
      · cases h
      · rename_i ho
        split at h
        · cases h
        · cases h
        · rename_i hc
          repeat' split at h
          all_goals cases h
          rename_i hnow hsleep hwoken
          exact ⟨⟨ha, ⟨value, hs, ho, hc⟩, not_le.mp hnow, by simpa using hsleep, not_le.mp hwoken⟩, rfl, rfl⟩
  · rintro ⟨⟨-, ⟨value, hs, ho, hc⟩, hnow, hsleep, hwoken⟩, rfl, rfl⟩
    simp only [hs, ho, hc, if_neg (not_le.mpr hnow), hsleep, if_neg (not_le.mpr hwoken)]
    rfl

theorem completion_counts : (completionLoop callbacks bounds timeoutMessage startTime).Counts id
    (fun _ t => t.aborted = false) (StatusTurn.Missed callbacks bounds startTime) where
  enter := completion_enter
  leave ha := by
    constructor
    · rintro ⟨d, n', hl⟩
      exact ((completion_leave ha).mp hl).1
    · exact fun hm => ⟨_, _, (completion_leave ha).mpr ⟨hm, rfl, rfl⟩⟩
  next ha hl := ((completion_leave ha).mp hl).2.2
  begun hm := hm.not_aborted

/-- With what a turn ends the loop. -/
theorem completion_ends {n : Nat} {r : PayrollCompletionResult T} :
    ((completionLoop callbacks bounds timeoutMessage startTime).enter n t = some (.ok r) ∨
        (completionLoop callbacks bounds timeoutMessage startTime).enter n t = none ∧
          (completionLoop callbacks bounds timeoutMessage startTime).leave n t = .inl (.ok r)) ↔
      t.Completes callbacks startTime n r := by
  rw [completion_enter]
  constructor
  · rintro (he | ⟨ha, hl⟩)
    · simp only [completionLoop] at he
      split at he
      · cases he
      · cases he
    · simp only [completionLoop] at hl
      split at hl
      · cases hl
      · rename_i value hs
        split at hl
        · cases hl
        · rename_i ho
          split at hl
          · cases hl
          · rename_i hc
            cases hl
            exact ⟨ha, hs, ho, hc, rfl, rfl⟩
          · repeat' split at hl
            all_goals cases hl
  · rintro ⟨ha, hs, ho, hc, hn, he⟩
    refine .inr ⟨ha, ?_⟩
    simp only [completionLoop, hs, ho, hc]
    rw [← hn, ← he]

/-- With what else a turn ends the loop. -/
theorem completion_fails {n : Nat} {e : SdkError} {turns ts : List (StatusTurn T)} (ht : t ∈ turns)
    (hn : n = ts.length) :
    ((completionLoop callbacks bounds timeoutMessage startTime).enter n t = some (.error e) →
        Rejection callbacks bounds timeoutMessage startTime turns ts e) ∧
      ((completionLoop callbacks bounds timeoutMessage startTime).leave n t = .inl (.error e) →
        Rejection callbacks bounds timeoutMessage startTime turns (ts ++ [t]) e) := by
  have hlast : t ∈ (ts ++ [t]).getLast? := by simp
  have hmem : t ∈ ts ++ [t] := by simp
  have hlen : n + 1 = (ts ++ [t]).length := by simp [hn]
  constructor
  · intro he
    simp only [completionLoop] at he
    split at he
    · rename_i ha
      cases he
      exact .cancelled ht (.inl ha)
    · cases he
  · intro hl
    simp only [completionLoop, hlen] at hl
    split at hl
    · rename_i hs
      split at hl
      · rename_i ha
        cases hl
        exact .cancelled ht (.inr (.inl ha))
      · cases hl
        exact .getStatus hlast hs
    · rename_i value hs
      split at hl
      · rename_i ho
        cases hl
        exact .callback hlast hs (.inl ho)
      · split at hl
        · rename_i hc
          split at hl
          · rename_i ha
            cases hl
            exact .cancelled ht (.inr (.inl ha))
          · cases hl
            exact .callback hlast hs (.inr hc)
        · cases hl
        · split at hl
          · rename_i hnow
            cases hl
            exact .timedOut hmem (.inl hnow)
          · split at hl
            · rename_i hsleep
              cases hl
              exact .cancelled ht (.inr (.inr hsleep))
            · split at hl
              · rename_i hwoken
                cases hl
                exact .timedOut hmem (.inr hwoken)
              · cases hl

omit [NumberFormat ν] in
theorem waitAfter_mem (t : StatusTurn T) :
    0 ≤ waitAfter bounds startTime t ∧ waitAfter bounds startTime t ≤ bounds.intervalMs :=
  ⟨le_min bounds.intervalMs_pos.le (le_max_left _ _), min_le_left _ _⟩

/-- A call with bounds resolves with the first value that is complete, and tells
how many checks it made. -/
theorem completionPolled (callbacks : Callbacks T) (bounds : PollBounds ν) (timeoutMessage : Option String)
    (startTime : Int) (turns : List (StatusTurn T)) :
    CompletionPolled callbacks bounds timeoutMessage startTime turns
      ((completionLoop callbacks bounds timeoutMessage startTime).run 0 turns) where
  resolves_iff r := by
    rw [completion_counts.outcome_eq_some_iff (fun n t => t.Completes callbacks startTime n r)
      fun _ _ => completion_ends]
    simp
  rejects e he := by
    have hended := AttemptLoop.ended_run (completionLoop callbacks bounds timeoutMessage startTime) 0 turns
    generalize AttemptLoop.run _ 0 turns = p at hended he
    cases hended with
    | unfinished h => cases he
    | before hturns h hb =>
      cases he
      exact (completion_fails (by simp [hturns]) (by simpa using (completion_counts.waits h).2)).1 hb
    | after hturns h _ hl =>
      cases he
      exact (completion_fails (by simp [hturns]) (by simpa using (completion_counts.waits h).2)).2 hl
  begun := AttemptLoop.allAt_const.mp (completion_counts.attempts 0 turns).1
  missed := (completion_counts.attempts 0 turns).2
  waits := AttemptLoop.allAt_const.mp (completion_counts.allAt_waits (fun n t d n' ha hl => by
    rw [((completion_leave ha).mp hl).2.1]
    exact waitAfter_mem t) 0 turns)

end

/-! ## Completion of a payroll run -/

/-- The bounds that the options, or the defaults, give. -/
structure PollPayrollCompletionOptions.Bounded (options : PollPayrollCompletionOptions ν) (bounds : PollBounds ν) :
    Prop where
  timeoutMs : options.timeoutMs.getD (.finite ((60000 : Nat) : ν)) = .finite bounds.timeoutMs
  intervalMs : options.intervalMs.getD (.finite ((2000 : Nat) : ν)) = .finite bounds.intervalMs

section

variable {T : Type} (callbacks : Callbacks T) {options : PollPayrollCompletionOptions ν} (startTime : Int)
  (turns : List (StatusTurn T))

theorem pollPayrollCompletion_eq {bounds : PollBounds ν} (h : options.Bounded bounds) :
    pollPayrollCompletion callbacks options startTime turns =
      (completionLoop callbacks bounds options.timeoutMessage startTime).run 0 turns := by
  have ht := positive_eq_some (p := ⟨_, bounds.timeoutMs_pos⟩).mpr h.timeoutMs
  have hi := positive_eq_some (p := ⟨_, bounds.intervalMs_pos⟩).mpr h.intervalMs
  simp only [pollPayrollCompletion, assertBoundedPollOptions, ht, hi]

theorem pollPayrollCompletion_refused (h : ¬∃ bounds, options.Bounded bounds) :
    ∃ e, e.name = "RangeError" ∧ pollPayrollCompletion callbacks options startTime turns =
      { attempts := [], waits := [], outcome := some (.error e) } := by
  unfold pollPayrollCompletion assertBoundedPollOptions
  cases ht : positive (options.timeoutMs.getD (.finite ((60000 : Nat) : ν))) with
  | none => exact ⟨_, rfl, rfl⟩
  | some t =>
    cases hi : positive (options.intervalMs.getD (.finite ((2000 : Nat) : ν))) with
    | none => exact ⟨_, rfl, rfl⟩
    | some i => exact absurd ⟨⟨_, _, t.property, i.property⟩, positive_eq_some.mp ht, positive_eq_some.mp hi⟩ h

end

theorem isRunComplete_iff {toLowerCase : String → String} {value : RunStatusValue} :
    isRunComplete toLowerCase value = true ↔ ∃ raw, value.raw = some raw ∧ toLowerCase (trim raw) ∈ terminalStatuses := by
  unfold isRunComplete
  cases value.raw with
  | none => simp
  | some raw => simp [isTerminalPayrollRunStatus, terminalStatuses, or_assoc]

/-- A call of `pollPayrollCompletion` with bounds resolves with the first value
that is complete; without them it is refused, and makes no check. -/
theorem payrollPolled {T : Type} (callbacks : Callbacks T) (options : PollPayrollCompletionOptions ν) (startTime : Int)
    (turns : List (StatusTurn T)) :
    let p := pollPayrollCompletion callbacks options startTime turns
    (∀ bounds, options.Bounded bounds →
      CompletionPolled callbacks bounds options.timeoutMessage startTime turns p) ∧
      ((¬∃ bounds, options.Bounded bounds) →
        ∃ e, e.name = "RangeError" ∧ p = { attempts := [], waits := [], outcome := some (.error e) }) := by
  intro p
  refine ⟨fun bounds hbounds => ?_, pollPayrollCompletion_refused callbacks startTime turns⟩
  show CompletionPolled _ _ _ _ _ (pollPayrollCompletion callbacks options startTime turns)
  rw [pollPayrollCompletion_eq callbacks startTime turns hbounds]
  exact completionPolled callbacks bounds options.timeoutMessage startTime turns

/-- A call of `waitForPayrollRunCompletion` resolves with the first status that is
terminal. -/
theorem runAwaited {toLowerCase : String → String} {onAttempt : Nat → RunStatusValue → Except SdkError Unit}
    {options : PollPayrollCompletionOptions ν} {startTime : Int} {turns : List (StatusTurn RunStatusValue)}
    {r : PayrollCompletionResult RunStatusValue}
    (h : (waitForPayrollRunCompletion toLowerCase onAttempt options startTime turns).outcome = some (.ok r)) :
    (∃ raw, r.value.raw = some raw ∧ toLowerCase (trim raw) ∈ terminalStatuses) ∧
      ∃ ts t rest, turns = ts ++ t :: rest ∧ t.status = .ok r.value ∧ r.attempts = ts.length + 1 ∧
        ∀ u ∈ ts, ∃ value, u.status = .ok value ∧
          ∀ raw, value.raw = some raw → toLowerCase (trim raw) ∉ terminalStatuses := by
  unfold waitForPayrollRunCompletion at h
  by_cases hex : ∃ bounds, options.Bounded bounds
  · obtain ⟨bounds, hbounds⟩ := hex
    rw [pollPayrollCompletion_eq _ startTime turns hbounds,
      (completionPolled _ bounds options.timeoutMessage startTime turns).resolves_iff] at h
    obtain ⟨ts, t, rest, hturns, hmissed, hc⟩ := h
    refine ⟨isRunComplete_iff.mp (Except.ok.inj hc.complete), ts, t, rest, hturns, hc.status, hc.attempts,
      fun u hu => ?_⟩
    obtain ⟨n, hn⟩ := hmissed.mem hu
    obtain ⟨value, hs, -, hnot⟩ := hn.incomplete
    refine ⟨value, hs, fun raw hraw hterminal => ?_⟩
    have hcomplete := isRunComplete_iff.mpr ⟨raw, hraw, hterminal⟩
    rw [Except.ok.inj hnot] at hcomplete
    cases hcomplete
  · obtain ⟨e, -, hp⟩ := pollPayrollCompletion_refused _ startTime turns hex
    rw [hp] at h
    cases h

/-- The second status is terminal, in an object and with a space before it. -/
theorem awaited_second :
    let turns : List (StatusTurn RunStatusValue) :=
      [{ status := .ok (.text "scheduled"), now := 0, sleptAt := 0, woken := 2000 },
        { status := .ok (.object (some " executed")), now := 2000, sleptAt := 2000, woken := 4000 }]
    ∃ ts t rest, turns = ts ++ t :: rest ∧ t.status = .ok (.object (some " executed")) ∧ 2 = ts.length + 1 := by
  intro turns
  have h : (waitForPayrollRunCompletion (ν := Int) id (fun _ _ => .ok ()) {} 0 turns).outcome =
      some (.ok { value := .object (some " executed"), attempts := 2, elapsedMs := 2000 }) := rfl
  obtain ⟨-, ts, t, rest, hturns, hstatus, hattempts, -⟩ := runAwaited h
  exact ⟨ts, t, rest, hturns, hstatus, hattempts⟩

/-! ## How many checks there are -/

section

variable [IsStrictOrderedRing ν]

omit [NumberFormat ν] in
/-- Numbers each of which is at least `i` above the one before it. -/
theorem add_mul_le_of_isChain {i : ν} : ∀ {l : List ν} {a b : ν}, (a :: l).IsChain (fun c d => c + i ≤ d) →
    b ∈ (a :: l).getLast? → a + (l.length : ν) * i ≤ b
  | [], a, b, _, hb => by
    obtain rfl : a = b := by simpa using hb
    simp
  | c :: l, a, b, h, hb => by
    rw [List.isChain_cons_cons] at h
    have hrest := add_mul_le_of_isChain h.2 (by rwa [List.getLast?_cons_cons] at hb)
    have hcast : ((c :: l).length : ν) * i = i + (l.length : ν) * i := by
      rw [List.length_cons, Nat.cast_succ, add_mul, one_mul, add_comm]
    rw [hcast, ← add_assoc]
    exact (add_le_add_left h.1 _).trans hrest

omit [NumberFormat ν] in
/-- Numbers that are `i` apart, and lie between 0 and a bound. -/
theorem length_sub_one_mul_lt {i : ν} (bound : ν) {l : List ν} (hne : l ≠ []) (h : l.IsChain (fun c d => c + i ≤ d))
    (hhead : ∀ a ∈ l.head?, 0 ≤ a) (hbound : ∀ a ∈ l, a < bound) : ((l.length - 1 : Nat) : ν) * i < bound := by
  cases l with
  | nil => exact absurd rfl hne
  | cons a l =>
    obtain ⟨b, hb⟩ : ∃ b, b ∈ (a :: l).getLast? := ⟨_, List.getLast?_eq_some_getLast (List.cons_ne_nil a l)⟩
    have hle := add_mul_le_of_isChain h hb
    have ha : 0 ≤ a := hhead a rfl
    calc ((l.length : Nat) : ν) * i ≤ a + (l.length : ν) * i := le_add_of_nonneg_left ha
      _ ≤ b := hle
      _ < bound := hbound b (List.mem_of_getLast? hb)

theorem mem_head?_of_isPrefix {α : Type} {l l' : List α} {a : α} (h : l <+: l') (ha : a ∈ l.head?) : a ∈ l'.head? := by
  obtain ⟨rest, rfl⟩ := h
  rw [List.head?_append, Option.mem_def.mp ha]
  rfl

/-- A wait takes as long as the interval, and the clock does not go back. -/
structure TransactionPaced {V : Type} (options : PollTransactionOptions ν) (startTime : Int) (timeout interval : ν)
    (turns : List (TransactionTurn V)) : Prop where
  timeout_eq : options.timeout = .finite timeout
  interval_eq : options.interval = .finite interval
  started : ∀ t ∈ turns.head?, startTime ≤ t.now
  slept : turns.IsChain fun t u => (elapsed startTime t.now : ν) + interval ≤ elapsed startTime u.now

/-- So the interval bounds the number of checks, and a call that has not settled
has not seen more turns than that. -/
theorem length_transactionChecks {V : Type} (txHash : String) {options : PollTransactionOptions ν} {startTime : Int}
    {timeout interval : ν} {turns : List (TransactionTurn V)}
    (h : TransactionPaced options startTime timeout interval turns) :
    let p := pollTransaction txHash options startTime turns
    (p.attempts ≠ [] → ((p.attempts.length - 1 : Nat) : ν) * interval < timeout) ∧
      (p.outcome = none → turns ≠ [] → ((turns.length - 1 : Nat) : ν) * interval < timeout) := by
  intro p
  have hprefix : p.attempts <+: turns := AttemptLoop.attempts_prefix _ 0 turns
  have hbound (hne : p.attempts ≠ []) : ((p.attempts.length - 1 : Nat) : ν) * interval < timeout := by
    have hchain : (p.attempts.map fun t => (elapsed startTime t.now : ν)).IsChain fun c d => c + interval ≤ d :=
      (List.isChain_map _).mpr <| List.IsChain.prefix h.slept hprefix
    have hlt := length_sub_one_mul_lt timeout (by simpa using hne) hchain ?_ ?_
    · rwa [List.length_map] at hlt
    · intro a ha
      rw [List.head?_map] at ha
      obtain ⟨t, ht, rfl⟩ := Option.mem_map.mp ha
      have hstart := h.started t (mem_head?_of_isPrefix hprefix ht)
      exact Int.cast_nonneg (by omega)
    · intro a ha
      obtain ⟨t, ht, rfl⟩ := List.mem_map.mp ha
      have hlt := ((attempts_of_transaction txHash options startTime turns).1 t ht).inTime
      rw [h.timeout_eq] at hlt
      rw [JsNumber.lt, Bool.and_eq_true, Bool.not_eq_true'] at hlt
      exact not_le.mp (of_decide_eq_false hlt.2)
  refine ⟨hbound, fun hnone hne => ?_⟩
  have hall : p.attempts = turns := AttemptLoop.attempts_of_outcome_none hnone
  rw [← hall] at hne ⊢
  exact hbound hne

/-- A transaction that is found by the second check, one interval after the first. -/
theorem found_second :
    let turns : List (TransactionTurn Unit) :=
      [{ now := 0, response := .ok .NOT_FOUND }, { now := 2000, response := .ok .FAILED }]
    let p := pollTransaction (ν := Int) "tx" {} 0 turns
    (p.attempts ≠ [] → ((p.attempts.length - 1 : Nat) : Int) * 2000 < 30000) ∧
      (p.outcome = none → turns ≠ [] → ((turns.length - 1 : Nat) : Int) * 2000 < 30000) :=
  length_transactionChecks "tx"
    { timeout_eq := rfl
      interval_eq := rfl
      started := by simp
      slept := by simp [elapsed] }

/-- A wait takes as long as was decided, and the clock does not go back. -/
structure StatusPaced {T : Type} (bounds : PollBounds ν) (startTime : Int) (turns : List (StatusTurn T)) : Prop where
  started : ∀ t ∈ turns.head?, startTime ≤ t.now
  slept : ∀ t ∈ turns, t.now ≤ t.sleptAt ∧
    (elapsed startTime t.sleptAt : ν) + waitAfter bounds startTime t ≤ elapsed startTime t.woken
  resumed : turns.IsChain fun t u => t.woken ≤ u.now

variable {T : Type} {callbacks : Callbacks T} {bounds : PollBounds ν} {startTime : Int} {turns : List (StatusTurn T)}

omit [IsStrictOrderedRing ν] [NumberFormat ν] in
theorem elapsed_mono [IsStrictOrderedRing ν] {a b : Int} (h : a ≤ b) : (elapsed startTime a : ν) ≤ elapsed startTime b :=
  Int.cast_le.mpr (by omega)

omit [NumberFormat ν] in
/-- A wait that ends before the deadline is not cut short by it. -/
theorem StatusPaced.interval_le (h : StatusPaced bounds startTime turns) {n : Nat} {t : StatusTurn T} (ht : t ∈ turns)
    (hm : t.Missed callbacks bounds startTime n) :
    (elapsed startTime t.now : ν) + bounds.intervalMs ≤ elapsed startTime t.woken := by
  obtain ⟨hslept, hwoken⟩ := h.slept t ht
  have hnow : (elapsed startTime t.now : ν) ≤ elapsed startTime t.sleptAt := elapsed_mono hslept
  have hwait : bounds.intervalMs ≤ waitAfter bounds startTime t := by
    by_contra hlt
    have hrest : bounds.timeoutMs - elapsed startTime t.sleptAt ≤ waitAfter bounds startTime t := by
      rw [waitAfter, min_eq_right (le_of_not_ge fun hle => hlt (by rw [waitAfter, min_eq_left hle]))]
      exact le_max_right _ _
    exact absurd hm.inTime (not_lt.mpr ((sub_le_iff_le_add'.mp hrest).trans hwoken))
  exact (add_le_add hnow hwait).trans hwoken

/-- So the interval bounds the number of checks, and a call that has not settled
has not seen more turns than that. -/
theorem length_statusChecks (callbacks : Callbacks T) (timeoutMessage : Option String)
    (h : StatusPaced bounds startTime turns) :
    let p := (completionLoop callbacks bounds timeoutMessage startTime).run 0 turns
    ((p.attempts.length - 1 : Nat) : ν) * bounds.intervalMs < bounds.timeoutMs ∧
      (p.outcome = none → ((turns.length : Nat) : ν) * bounds.intervalMs < bounds.timeoutMs) := by
  intro p
  -- The clock is read once more than there are checks that lead to another one.
  have hbound {ts : List (StatusTurn T)} (hts : ts <+: turns)
      (hm : AttemptLoop.AllAt (StatusTurn.Missed callbacks bounds startTime) 0 ts) :
      ((ts.length : Nat) : ν) * bounds.intervalMs < bounds.timeoutMs := by
    have hmissed : ∀ t ∈ ts, ∃ n, t.Missed callbacks bounds startTime n := fun t ht => hm.mem ht
    have hchain : ((0 : ν) :: ts.map fun t => elapsed startTime t.woken).IsChain
        fun c d => c + bounds.intervalMs ≤ d := by
      rw [List.isChain_cons]
      constructor
      · intro a ha
        rw [List.head?_map] at ha
        obtain ⟨t, ht, rfl⟩ := Option.mem_map.mp ha
        obtain ⟨n, hn⟩ := hmissed t (List.mem_of_mem_head? ht)
        have hstart := h.started t (mem_head?_of_isPrefix hts ht)
        have hnow : (0 : ν) ≤ elapsed startTime t.now := Int.cast_nonneg (by omega)
        exact (add_le_add_left hnow _).trans (h.interval_le (hts.subset (List.mem_of_mem_head? ht)) hn)
      · have hresumed : ts.IsChain fun t u => t.woken ≤ u.now := List.IsChain.prefix h.resumed hts
        refine (List.isChain_map _).mpr (hresumed.imp_of_mem_imp fun t u _ hu htu => ?_)
        obtain ⟨n, hn⟩ := hmissed u hu
        exact (add_le_add_left (elapsed_mono htu) _).trans (h.interval_le (hts.subset hu) hn)
    have hlt := length_sub_one_mul_lt bounds.timeoutMs (List.cons_ne_nil _ _) hchain ?_ ?_
    · simpa using hlt
    · rintro a ⟨⟩
      exact le_rfl
    · intro a ha
      rcases List.mem_cons.mp ha with rfl | ha
      · exact bounds.timeoutMs_pos
      · obtain ⟨t, ht, rfl⟩ := List.mem_map.mp ha
        obtain ⟨n, hn⟩ := hmissed t ht
        exact hn.inTime
  have hprefix : p.attempts <+: turns := AttemptLoop.attempts_prefix _ 0 turns
  have hpolled : CompletionPolled callbacks bounds timeoutMessage startTime turns p :=
    completionPolled callbacks bounds timeoutMessage startTime turns
  constructor
  · have hlt := hbound ((List.dropLast_prefix _).trans hprefix) hpolled.missed
    rwa [List.length_dropLast] at hlt
  · intro hnone
    obtain ⟨ds, n, hw⟩ := AttemptLoop.waits_of_outcome_none hnone
    exact hbound (List.prefix_refl turns) (completion_counts.waits hw).1

end

/-- A run that is executed by the second check. -/
theorem executed_second :
    let callbacks : Callbacks RunStatusValue := { isComplete := fun value => .ok (isRunComplete id value) }
    let bounds : PollBounds Int :=
      { timeoutMs := 5000, intervalMs := 2000, timeoutMs_pos := by decide, intervalMs_pos := by decide }
    let turns : List (StatusTurn RunStatusValue) :=
      [{ status := .ok (.text "scheduled"), now := 0, sleptAt := 0, woken := 2000 },
        { status := .ok (.text " executed"), now := 2000, sleptAt := 2000, woken := 4000 }]
    let p := (completionLoop callbacks bounds none 0).run 0 turns
    ((p.attempts.length - 1 : Nat) : Int) * 2000 < 5000 ∧
      (p.outcome = none → ((turns.length : Nat) : Int) * 2000 < 5000) :=
  length_statusChecks _ none
    { started := by simp
      slept := by simp [elapsed, waitAfter]
      resumed := by simp }

end ZkPayroll.Core.Polling
