import ZkPayroll.Core.Errors
import ZkPayroll.Framework.Maps

/-!
# The idempotency registry

`IdempotencyRegistry` of `core/idempotency.ts`. `execute` is asynchronous: its
first part runs at once and ends in a call of the function it is given, its
last part runs when the promise of that function has settled. A `World` is a
registry and the calls of functions that it has started, identified by their
number; the steps of a world (`Event`) are the parts of `execute`, what the
functions do, and the clock; none of them is `clear`.
-/

namespace ZkPayroll.Core.Idempotency

open Framework

/-! ## Data -/

structure IdempotencyExecuteOptions where
  ttlMs : Option Int := none
  cacheErrors : Option Bool := none

/-- `IdempotencyEntry`; its promise is that of the call. -/
structure IdempotencyEntry where
  call : Nat
  expiresAt : Option Int
  deriving DecidableEq

/-- How far a call of a function has come. -/
inductive CallState (T : Type) where
  /-- The function is running, and has not returned its promise. -/
  | starting
  | pending
  /-- The promise has settled, and the rest of `execute` is still to run. -/
  | settled (result : Except SdkError T)
  | finished (result : Except SdkError T)

/-- A call of a function that `execute` started, with what `execute` keeps for
its last part. -/
structure Call (T : Type) where
  key : String
  ttlMs : Int
  cacheErrors : Bool
  /-- The deadline of its entry. -/
  expiresAt : Option Int := none
  state : CallState T := .starting

structure World (T : Type) where
  entries : List (String × IdempotencyEntry)
  defaultTtlMs : Int
  calls : List (Call T)
  /-- `Date.now()`. -/
  now : Int

variable {T : Type}

/-! ## `execute` -/

def normalizeIdempotencyKey (key : String) : String := trim key

def IdempotencyEntry.live (now : Int) (e : IdempotencyEntry) : Bool :=
  match e.expiresAt with
  | none => true
  | some t => !decide (t ≤ now)

def pruneExpired (now : Int) (entries : List (String × IdempotencyEntry)) : List (String × IdempotencyEntry) :=
  entries.filter fun e => e.2.live now

/-- What the first part of `execute` ends with. -/
inductive ExecuteResult where
  | threw (e : SdkError)
  /-- It goes on with the promise of an earlier call. -/
  | existing (call : Nat)
  | started (call : Nat)

variable (w : World T)

/-- `execute`, up to the call of the function. -/
def World.execute (key : String) (options : IdempotencyExecuteOptions) : ExecuteResult × World T :=
  let normalizedKey := normalizeIdempotencyKey key
  if normalizedKey = "" then (.threw (genericError "Idempotency key must not be empty"), w)
  else
    let entries := pruneExpired w.now w.entries
    match entries.lookup normalizedKey with
    | some existing => (.existing existing.call, { w with entries := entries })
    | none =>
      let call : Call T :=
        { key := normalizedKey
          ttlMs := max 0 (options.ttlMs.getD w.defaultTtlMs)
          cacheErrors := options.cacheErrors.getD false }
      (.started w.calls.length, { w with entries := entries, calls := w.calls ++ [call] })

/-- The function returned its promise: the entry is set. -/
def World.returned (id : Nat) (c : Call T) : World T :=
  let expiresAt := if c.ttlMs > 0 then some (w.now + c.ttlMs) else none
  { w with
    entries := setKey c.key { call := id, expiresAt := expiresAt } w.entries
    calls := w.calls.set id { c with expiresAt := expiresAt, state := .pending } }

variable (c : Call T)

/-- Whether the last part of `execute` deletes the entry of the key. -/
def Call.deletes (result : Except SdkError T) : Bool :=
  (match result with
    | .error _ => !c.cacheErrors
    | .ok _ => false) || c.ttlMs == 0

/-- The last part of `execute`. -/
def World.cleanup (id : Nat) (c : Call T) (result : Except SdkError T) : World T :=
  { w with
    entries := if c.deletes result then eraseKey c.key w.entries else w.entries
    calls := w.calls.set id { c with state := .finished result } }

/-- `clear()`. -/
def World.clear : World T := { w with entries := [] }

/-! ## Steps -/

/-- What can happen next. -/
inductive Event (T : Type) where
  | execute (key : String) (options : IdempotencyExecuteOptions)
  | returned (id : Nat)
  /-- The function threw instead of returning a promise. -/
  | threw (id : Nat) (e : SdkError)
  | settle (id : Nat) (result : Except SdkError T)
  | cleanup (id : Nat)
  | tick (ms : Nat)

/-- The state of a call changes. -/
def World.setState (id : Nat) (c : Call T) (state : CallState T) : World T :=
  { w with calls := w.calls.set id { c with state := state } }

/-- What one step makes of a world. -/
inductive World.Step (w : World T) : Event T → World T → Prop
  | execute (key : String) (options : IdempotencyExecuteOptions) :
    w.Step (.execute key options) (w.execute key options).2
  | returned {id : Nat} {c : Call T} (h : w.calls[id]? = some c) (hc : c.state = .starting) :
    w.Step (.returned id) (w.returned id c)
  | threw {id : Nat} {c : Call T} (e : SdkError) (h : w.calls[id]? = some c) (hc : c.state = .starting) :
    w.Step (.threw id e) (w.setState id c (.finished (.error e)))
  | settle {id : Nat} {c : Call T} (result : Except SdkError T) (h : w.calls[id]? = some c)
      (hc : c.state = .pending) :
    w.Step (.settle id result) (w.setState id c (.settled result))
  | cleanup {id : Nat} {c : Call T} {result : Except SdkError T} (h : w.calls[id]? = some c)
      (hc : c.state = .settled result) :
    w.Step (.cleanup id) (w.cleanup id c result)
  | tick (ms : Nat) : w.Step (.tick ms) { w with now := w.now + ms }

/-! ## What is read of a call -/

/-- The function was called and its promise, if there is one yet, has not
settled. -/
def Call.isPending : Bool :=
  match c.state with
  | .starting | .pending => true
  | .settled _ | .finished _ => false

def Call.isStarting : Bool :=
  match c.state with
  | .starting => true
  | _ => false

/-- The call may still need its entry: it is pending, or is going to delete the
entry of its key. -/
def Call.isOpen : Bool :=
  match c.state with
  | .starting | .pending => true
  | .settled result => c.deletes result
  | .finished _ => false

/-- The promise of the function resolved. -/
def Call.succeeded : Bool :=
  match c.state with
  | .settled (.ok _) | .finished (.ok _) => true
  | _ => false

/-- The deadline of the call's entry has passed. -/
def Call.overdue (now : Int) (c : Call T) : Bool :=
  match c.expiresAt with
  | none => false
  | some t => decide (t ≤ now)

theorem Call.isOpen_of_isPending {c : Call T} (h : c.isPending = true) : c.isOpen = true := by
  unfold Call.isPending at h
  unfold Call.isOpen
  split at h <;> simp_all

theorem Call.isOpen_of_isStarting {c : Call T} (h : c.isStarting = true) : c.isOpen = true := by
  unfold Call.isStarting at h
  unfold Call.isOpen
  split at h <;> simp_all

end ZkPayroll.Core.Idempotency
