import ZkPayroll.Core.Errors
import ZkPayroll.Core.RetryBudget
import ZkPayroll.Core.RetryBudgetSafety

/-!
# Invoking a contract

`invoke` of `adapters/BaseContractWrapper.ts`, with the parts of it that build,
send and poll. A `Wrapper` is one `BaseContractWrapper` with all the calls of
`invoke` there have been; it takes a step (`Wrapper.Step`) when something that
an invocation awaits comes to an end, and then runs the invocation to its next
`await`. Sends of transactions are the calls of the registry's world, those
without an idempotency key included.

`submitTransaction` keeps the registry such that the entry of a key is that of
its open send, and no key has two (`Guarded`). A send for the key joins the
open one, or starts one where there is none (`submit_cases`).
-/

namespace ZkPayroll.Adapters

section

open ZkPayroll.Core Core.Idempotency Core.RetryBudget

/-! ## Answers of the RPC server -/

/-- What the server answers to a submission. -/
inductive SendStatus where
  | PENDING
  | DUPLICATE
  | TRY_AGAIN_LATER
  | ERROR
  deriving DecidableEq, Repr

/-- `rpc.Api.SendTransactionResponse`. -/
structure SendTransactionResponse where
  status : SendStatus
  hash : String
  /-- As JSON. -/
  errorResult : String
  deriving DecidableEq

/-- A returned value: void, or another one. -/
inductive ScVal where
  | scvVoid
  | other (xdr : String)
  deriving DecidableEq

/-- `rpc.Api.SimulateTransactionResponse`. -/
inductive SimulateTransactionResponse where
  | error (error : String)
  | success

/-- `rpc.Api.GetTransactionResponse`. -/
inductive GetTransactionResponse where
  | SUCCESS (returnValue : Option ScVal)
  /-- The metadata are JSON. -/
  | FAILED (resultMetaXdr : String)
  | NOT_FOUND

/-! ## Errors -/

/-- What an invocation throws. -/
inductive InvokeError where
  | sdk (e : SdkError)
  | exhausted (e : RetryBudgetExhaustedError)
  | cancelled (e : RetryCancelledError)

/-- The `catch` of `buildInvocation` and `submitInvocation`. -/
def catchError : InvokeError → InvokeError
  | .sdk e => .sdk (mapRpcError e)
  | e => e

/-- What `await withRetryBudget(…)` gives. -/
def ofOutcome {T : Type} : Outcome T → Except InvokeError (Option T)
  | .resolved value => .ok value
  | .threw e => .error (.sdk e)
  | .exhausted e => .error (.exhausted e)
  | .cancelled e => .error (.cancelled e)

/-! ## Invocations -/

/-- What an invocation awaits. -/
inductive Phase where
  | gettingPublicKey
  | loadingAccount
  | simulating
  | signing
  | sending (awaited : Awaited)
  /-- The sleep before a poll, and the poll. -/
  | polling (txHash : String) (startTime : Int) (attempt : Nat)
  /-- It has ended, after polling for a transaction or not. -/
  | done (txHash : Option String) (result : Except InvokeError ScVal)

structure Invocation where
  method : String
  idempotencyKey : Option String
  phase : Phase

/-- `BaseContractWrapper`, with its invocations. -/
structure Wrapper where
  /-- Of the timeout configuration. -/
  maxPolls : Option Int
  world : World SendTransactionResponse
  invocations : List Invocation
  /-- The hashes for which a poll was answered `FAILED`. -/
  failed : List String

namespace Invocation

variable (i : Invocation)

/-- The key without the white space around it. -/
def key : String := normalizeIdempotencyKey (i.idempotencyKey.getD "")

/-- The invocation throws before it polls. -/
def fail (e : InvokeError) : Invocation := { i with phase := .done none (.error (catchError e)) }

def publicKey : Except SdkError Unit → Invocation
  | .ok _ => { i with phase := .loadingAccount }
  | .error e => i.fail (.sdk e)

/-- `buildInvocation` up to the simulation; `built` is what building the
transaction comes to. -/
def accountLoaded (account : Outcome Unit) (built : Except SdkError Unit) : Invocation :=
  match ofOutcome account, built with
  | .error e, _ => i.fail e
  | .ok _, .error e => i.fail (.sdk e)
  | .ok _, .ok _ => { i with phase := .simulating }

/-- The rest of `buildInvocation`, and `submitInvocation` up to the signature;
`assembled` is what assembling the transaction comes to. -/
def simulated (simResult : Outcome SimulateTransactionResponse) (assembled : Except SdkError Unit) : Invocation :=
  match ofOutcome simResult, assembled with
  | .error e, _ => i.fail e
  | .ok (some (.error error)), _ =>
    i.fail (.sdk (contractExecutionError ("Simulation failed for \"" ++ i.method ++ "\": " ++ error)
      "SIMULATION_FAILED"))
  | .ok _, .error e => i.fail (.sdk e)
  | .ok _, .ok _ => { i with phase := .signing }

/-- The loop of `pollForResult` at an attempt. -/
def pollAgain (maxPolls : Int) (now : Int) (txHash : String) (startTime : Int) (attempt : Nat) : Invocation :=
  if (attempt : Int) < maxPolls then { i with phase := .polling txHash startTime attempt }
  else
    let message := s!"Transaction timed out after {maxPolls} polls ({now - startTime}ms) for \"{i.method}\" " ++
      s!"(hash: {txHash})"
    { i with
      phase := .done (some txHash)
        (.error (.sdk (contractExecutionError message "TRANSACTION_TIMEOUT" "RpcTimeoutError"))) }

/-- `submitInvocation` after the send. -/
def sent (maxPolls : Int) (now : Int) : Except SdkError SendTransactionResponse → Invocation
  | .error e => i.fail (.sdk e)
  | .ok sendResult =>
    if sendResult.status = .ERROR then
      i.fail (.sdk (contractExecutionError
        ("Transaction submission failed for \"" ++ i.method ++ "\": " ++ sendResult.errorResult)
        "TRANSACTION_SUBMISSION_FAILED"))
    else i.pollAgain maxPolls now sendResult.hash now 0

/-- The loop of `pollForResult` after a poll. -/
def polled (maxPolls : Int) (now : Int) (txHash : String) (startTime : Int) (attempt : Nat)
    (statusResult : Outcome GetTransactionResponse) : Invocation :=
  match ofOutcome statusResult with
  | .error e => { i with phase := .done (some txHash) (.error (catchError e)) }
  | .ok none =>
    let e := { genericError "Cannot read properties of undefined (reading 'status')" with name := "TypeError" }
    { i with phase := .done (some txHash) (.error (catchError (.sdk e))) }
  | .ok (some (.SUCCESS returnValue)) =>
    { i with phase := .done (some txHash) (.ok (returnValue.getD .scvVoid)) }
  | .ok (some (.FAILED resultMetaXdr)) =>
    { i with
      phase := .done (some txHash) (.error (.sdk (contractExecutionError
        ("Contract reverted during \"" ++ i.method ++ "\": " ++ resultMetaXdr) "CONTRACT_REVERT"))) }
  | .ok (some .NOT_FOUND) => i.pollAgain maxPolls now txHash startTime (attempt + 1)

end Invocation

/-- The hash of a transaction that was found to have failed. -/
def newlyFailed (txHash : String) : Outcome GetTransactionResponse → List String
  | .resolved (some (.FAILED _)) => [txHash]
  | _ => []

/-- `submitTransaction(transaction, idempotencyKey)`, where `f` is what
`sendTransaction` does if it is called. -/
def submitTransaction (w : World SendTransactionResponse) (idempotencyKey : Option String) (f : FnCall) :
    Awaited × World SendTransactionResponse :=
  if normalizeIdempotencyKey (idempotencyKey.getD "") = "" then callDirectly w f
  else executeAttempt w (idempotencyKey.getD "") f

/-! ## Steps -/

/-- What can happen next. -/
inductive WrapperEvent where
  | invoke (method : String) (idempotencyKey : Option String)
  | publicKey (n : Nat) (result : Except SdkError Unit)
  | account (n : Nat) (account : Outcome Unit) (built : Except SdkError Unit)
  | simulated (n : Nat) (simResult : Outcome SimulateTransactionResponse) (assembled : Except SdkError Unit)
  /-- The signer is done; `f` is what `sendTransaction` does if it is called. -/
  | signed (n : Nat) (result : Except SdkError Unit) (f : FnCall)
  | sent (n : Nat)
  | polled (n : Nat) (statusResult : Outcome GetTransactionResponse)
  /-- A send is answered, the rest of `execute` runs, or time goes by. -/
  | outside (e : Event SendTransactionResponse)

/-- The event is no code of the wrapper. -/
def isOutside : Event SendTransactionResponse → Bool
  | .settle _ _ | .cleanup _ | .tick _ => true
  | .execute _ _ | .returned _ | .threw _ _ => false

namespace Wrapper

variable (s : Wrapper)

/-- `this.timeoutConfig?.maxPolls ?? DEFAULT_MAX_POLLS`. -/
def polls : Int := s.maxPolls.getD 15

def setInvocation (n : Nat) (i : Invocation) : Wrapper := { s with invocations := s.invocations.set n i }

/-- `submitInvocation` after the signature. -/
def signed (n : Nat) (i : Invocation) (f : FnCall) : Wrapper :=
  let send := submitTransaction s.world i.idempotencyKey f
  { s.setInvocation n { i with phase := .sending send.1 } with world := send.2 }

inductive Step : WrapperEvent → Wrapper → Prop
  | invoke (method : String) (idempotencyKey : Option String) :
    Step (.invoke method idempotencyKey)
      { s with invocations := s.invocations ++ [{ method, idempotencyKey, phase := .gettingPublicKey }] }
  | publicKey {n : Nat} {i : Invocation} (result : Except SdkError Unit) (hi : s.invocations[n]? = some i)
      (hp : i.phase = .gettingPublicKey) :
    Step (.publicKey n result) (s.setInvocation n (i.publicKey result))
  | account {n : Nat} {i : Invocation} (account : Outcome Unit) (built : Except SdkError Unit)
      (hi : s.invocations[n]? = some i) (hp : i.phase = .loadingAccount) :
    Step (.account n account built) (s.setInvocation n (i.accountLoaded account built))
  | simulated {n : Nat} {i : Invocation} (simResult : Outcome SimulateTransactionResponse)
      (assembled : Except SdkError Unit) (hi : s.invocations[n]? = some i) (hp : i.phase = .simulating) :
    Step (.simulated n simResult assembled) (s.setInvocation n (i.simulated simResult assembled))
  | signed {n : Nat} {i : Invocation} (f : FnCall) (hi : s.invocations[n]? = some i) (hp : i.phase = .signing) :
    Step (.signed n (.ok ()) f) (s.signed n i f)
  | unsigned {n : Nat} {i : Invocation} (e : SdkError) (f : FnCall) (hi : s.invocations[n]? = some i)
      (hp : i.phase = .signing) :
    Step (.signed n (.error e) f) (s.setInvocation n (i.fail (.sdk e)))
  | sent {n : Nat} {i : Invocation} {awaited : Awaited} {result : Except SdkError SendTransactionResponse}
      (hi : s.invocations[n]? = some i) (hp : i.phase = .sending awaited) (hr : awaited.result s.world = some result) :
    Step (.sent n) (s.setInvocation n (i.sent s.polls s.world.now result))
  | polled {n : Nat} {i : Invocation} {txHash : String} {startTime : Int} {attempt : Nat}
      (statusResult : Outcome GetTransactionResponse) (hi : s.invocations[n]? = some i)
      (hp : i.phase = .polling txHash startTime attempt) :
    Step (.polled n statusResult)
      { s.setInvocation n (i.polled s.polls s.world.now txHash startTime attempt statusResult) with
        failed := s.failed ++ newlyFailed txHash statusResult }
  | outside {e : Event SendTransactionResponse} {w : World SendTransactionResponse} (he : isOutside e = true)
      (hw : s.world.Step e w) :
    Step (.outside e) { s with world := w }

end Wrapper

end

section

open Framework ZkPayroll.Core Core.Idempotency Core.RetryBudget

variable {T : Type} {k : String} {w w' : World T}

/-- A registry of sends in which an entry of the key is that of an open send
for it. -/
structure Guarded (k : String) (w : World T) : Prop extends AttemptsOnly k w where
  entry {e : IdempotencyEntry} : w.entries.lookup k = some e →
    ∃ c, w.calls[e.call]? = some c ∧ c.key = k ∧ c.isOpen = true

/-- A send loses no entry to time. -/
theorem Guarded.lookup_prune (h : Guarded k w) :
    (pruneExpired w.now w.entries).lookup k = w.entries.lookup k := by
  rw [lookup_pruneExpired h.inv]
  cases hl : w.entries.lookup k with
  | none => rfl
  | some e =>
    obtain ⟨c, hc, hck, hopen⟩ := h.entry hl
    obtain ⟨hexp, -, hs⟩ := h.attempt hc hck
    rcases h.inv.held hc hck hopen hs with he | ⟨hd, -⟩
    · rw [hl] at he
      rw [Option.some.inj he, hexp]
      rfl
    · simp [Call.overdue, hexp] at hd

/-- An open send has the entry of its key. -/
theorem Guarded.lookup_of_open (h : Guarded k w) {i : Nat} {c : Call T} (hi : w.calls[i]? = some c)
    (hk : c.key = k) (ho : c.isOpen = true) : w.entries.lookup k = some ⟨i, none⟩ := by
  obtain ⟨hexp, -, hs⟩ := h.attempt hi hk
  rcases h.inv.held hi hk ho hs with he | ⟨hd, -⟩
  · rwa [hexp] at he
  · simp [Call.overdue, hexp] at hd

theorem Guarded.prune (h : Guarded k w) : Guarded k { w with entries := pruneExpired w.now w.entries } where
  toAttemptsOnly := h.toAttemptsOnly.prune
  entry hl := h.entry (h.lookup_prune ▸ hl)

section Step

variable {x : IdempotencyEntry} {id : Nat} {c c' : Call T}

/-- A call that is starting is none of the key. -/
theorem Guarded.key_ne_of_starting (h : Guarded k w) (hid : w.calls[id]? = some c) (hstart : c.isStarting = true) :
    c.key ≠ k := by
  intro hck
  have hnot := (h.attempt hid hck).2.2
  rw [hstart] at hnot
  cases hnot

/-- The entry of the key is that of an open send when a call goes on that stays
open. -/
theorem Guarded.entry_set (h : Guarded k w) (hx : w.entries.lookup k = some x) (hid : w.calls[id]? = some c)
    (hkey : c'.key = c.key) (hopen : c.isOpen = true → c'.isOpen = true) :
    ∃ d, (w.calls.set id c')[x.call]? = some d ∧ d.key = k ∧ d.isOpen = true := by
  obtain ⟨d, hd, hdk, hdo⟩ := h.entry hx
  by_cases hxid : x.call = id
  · subst hxid
    obtain rfl : d = c := Option.some.inj (hd.symm.trans hid)
    exact ⟨c', (getElem?_set_iff hid _ _ _).mpr (.inl ⟨rfl, rfl⟩), hkey.trans hdk, hopen hdo⟩
  · exact ⟨d, (getElem?_set_iff hid _ _ _).mpr (.inr ⟨hxid, hd⟩), hdk, hdo⟩

/-- It is when a call for another key goes on. -/
theorem Guarded.entry_set_other (h : Guarded k w) (hx : w.entries.lookup k = some x) (hid : w.calls[id]? = some c)
    (hck : c.key ≠ k) : ∃ d, (w.calls.set id c')[x.call]? = some d ∧ d.key = k ∧ d.isOpen = true := by
  obtain ⟨d, hd, hdk, hdo⟩ := h.entry hx
  refine ⟨d, (getElem?_set_iff hid _ _ _).mpr (.inr ⟨fun hxid => hck ?_, hd⟩), hdk, hdo⟩
  rw [hxid, hid] at hd
  rw [Option.some.inj hd, hdk]

end Step

/-- A step that is no call of `execute` for the key. -/
theorem Guarded.step (h : Guarded k w) {e : Event T} (he : ¬executesKey k e) (hs : w.Step e w') : Guarded k w' := by
  refine ⟨h.toAttemptsOnly.step he hs, fun {x} hx => ?_⟩
  cases hs with
  | execute key options =>
    revert hx
    unfold World.execute
    simp only
    split
    · exact h.entry
    · split
      · exact h.prune.entry
      · intro hx
        obtain ⟨d, hd, hdk, hdo⟩ := h.prune.entry hx
        exact ⟨d, (getElem?_concat_iff _ _ _ _).mpr (.inl hd), hdk, hdo⟩
  | @returned id c hid hc =>
    have hck : c.key ≠ k := h.key_ne_of_starting hid (by simp [Call.isStarting, hc])
    simp only [World.returned, lookup_setKey, if_neg hck.symm] at hx
    exact h.entry_set hx hid rfl fun _ => rfl
  | @threw id c e hid hc =>
    have hck : c.key ≠ k := h.key_ne_of_starting hid (by simp [Call.isStarting, hc])
    exact h.entry_set_other hx hid hck
  | @settle id c result hid hc =>
    by_cases hck : c.key = k
    · refine h.entry_set hx hid rfl fun _ => ?_
      have httl := (h.attempt hid hck).2.1
      simp [Call.isOpen, Call.deletes, httl]
    · exact h.entry_set_other hx hid hck
  | @cleanup id c result hid hc =>
    by_cases hck : c.key = k
    · have hdel : c.deletes result = true := by simp [Call.deletes, (h.attempt hid hck).2.1]
      simp [World.cleanup, hdel, hck] at hx
    · have hl : w.entries.lookup k = some x := by
        simp only [World.cleanup] at hx
        split at hx
        · rwa [lookup_eraseKey, if_neg (Ne.symm hck)] at hx
        · exact hx
      exact h.entry_set_other hl hid hck
  | tick ms => exact h.entry hx

/-! ## A send -/

section Submit

variable {idempotencyKey : Option String}

/-- A send for the key, joined or started. -/
theorem Guarded.submit_cases (h : Guarded k w) (hk : normalizeIdempotencyKey (idempotencyKey.getD "") = k)
    (hne : k ≠ "") (f : FnCall) :
    (∃ id c, w.calls[id]? = some c ∧ c.key = k ∧ c.isOpen = true ∧
      executeAttempt w (idempotencyKey.getD "") f =
        (.call id, { w with entries := pruneExpired w.now w.entries })) ∨
    w.entries.lookup k = none ∧ (executeAttempt w (idempotencyKey.getD "") f).1 = .call w.calls.length ∧
      (executeAttempt w (idempotencyKey.getD "") f).2.calls =
        w.calls ++ [{ (attemptCall (idempotencyKey.getD "") : Call T) with state := f.state }] := by
  rcases executeAttempt_cases hk hne w f with ⟨e, hl, he⟩ | ⟨hnone, -, hid, -, hcalls⟩
  · obtain ⟨c, hc, hck, ho⟩ := h.prune.entry hl
    exact .inl ⟨e.call, c, hc, hck, ho, he⟩
  · exact .inr ⟨h.lookup_prune ▸ hnone, hid, hcalls⟩

theorem Guarded.execute {key : String} (h : Guarded k w) (hk : normalizeIdempotencyKey key = k) (hne : k ≠ "")
    (f : FnCall) : Guarded k (executeAttempt w key f).2 := by
  refine ⟨h.toAttemptsOnly.execute hk hne f, ?_⟩
  rcases executeAttempt_cases hk hne w f with ⟨e, -, he⟩ | ⟨hnone, -, -, hstep, -⟩
  · rw [he]
    exact h.prune.entry
  · intro x hx
    cases f with
    | promise =>
      generalize executeAttempt w key .promise = r at hstep hx ⊢
      obtain ⟨_, w'⟩ := r
      cases hstep with
      | @returned _ c hid hc =>
        rw [getElem?_startAttempt] at hid
        obtain rfl := Option.some.inj hid
        simp only [attemptCall, hk, lookup_setKey, if_true] at hx
        obtain rfl := Option.some.inj hx
        exact ⟨_, (getElem?_set_iff (getElem?_startAttempt w key) _ _ _).mpr (.inl ⟨rfl, rfl⟩), hk, rfl⟩
    | throws e =>
      generalize executeAttempt w key (.throws e) = r at hstep hx ⊢
      obtain ⟨_, w'⟩ := r
      cases hstep with
      | threw _ hid hc =>
        change (pruneExpired w.now w.entries).lookup k = some x at hx
        rw [hnone] at hx
        cases hx

/-- A send for another key. -/
theorem Guarded.executeOther {key : String} (h : Guarded k w) (hk : normalizeIdempotencyKey key ≠ k)
    (hne : normalizeIdempotencyKey key ≠ "") (f : FnCall) : Guarded k (executeAttempt w key f).2 := by
  rcases executeAttempt_cases rfl hne w f with ⟨e, -, he⟩ | ⟨-, hx, -, hstep, -⟩
  · rw [he]
    exact h.prune
  · have hstart : Guarded k (startAttempt w key) := by
      have := h.step (e := .execute key { ttlMs := some 0 }) hk (.execute key _)
      rwa [hx] at this
    exact hstart.step (by cases f <;> exact id) hstep

/-- A send without a key. -/
theorem Guarded.callDirectly (h : Guarded k w) (hne : k ≠ "") (f : FnCall) :
    Guarded k (RetryBudget.callDirectly w f).2 := by
  have hold : ∀ (i : Nat) (c : Call T), (RetryBudget.callDirectly w f).2.calls[i]? = some c → c.key = k →
      w.calls[i]? = some c := by
    intro i c hi hc
    rcases (getElem?_concat_iff _ _ i c).mp hi with hi | ⟨-, rfl⟩
    · exact hi
    · exact absurd hc.symm hne
  refine ⟨⟨h.inv.frame h.inv.keys rfl rfl hold, fun g hg => ?_, fun hi hc => h.attempt (hold _ _ hi hc) hc⟩,
    fun {x} hx => ?_⟩
  · exact (h.known g hg).trans_le (by simp [RetryBudget.callDirectly])
  · obtain ⟨c, hc, hck, ho⟩ := h.entry hx
    exact ⟨c, (getElem?_concat_iff _ _ _ _).mpr (.inl hc), hck, ho⟩

end Submit

end

end ZkPayroll.Adapters
