import ZkPayroll.Core.Idempotency
import ZkPayroll.Framework.Json

/-!
# Proof generation in a worker

`crypto/WorkerProofGenerator.ts`. A request is identified by its number in the
order of `dispatch`; the table `pending` maps the ids of requests to their
numbers. A generator takes a step (`WorkerProofGenerator.Step`) when it is
called, when the worker sends a message or fails, when a timer fires, and when
the registry in front of it goes on. Progress callbacks are left out: a progress
message changes nothing but them.
-/

namespace ZkPayroll.Crypto

open Framework ZkPayroll.Core Core.Idempotency

variable {ν P : Type}

/-! ## Messages -/

/-- What JSON keeps of a witness, a bigint as its text. -/
abbrev Witness (ν : Type) := List (String × Json ν)

def witnessKey [NumberFormat ν] (witness : Witness ν) : String := "proof:" ++ stringify (.obj witness)

/-- `WorkerRequest`, without the configuration. -/
inductive WorkerRequest (ν : Type) where
  | generateProof (id : String) (witness : Witness ν)
  | preloadArtifacts (id : String)
  | clearCache (id : String)

def WorkerRequest.id : WorkerRequest ν → String
  | .generateProof id _ | .preloadArtifacts id | .clearCache id => id

/-- The witness key of what is to be proved. -/
def WorkerRequest.key [NumberFormat ν] : WorkerRequest ν → Option String
  | .generateProof _ witness => some (witnessKey witness)
  | .preloadArtifacts _ | .clearCache _ => none

/-- `WorkerResponse`, without what it tells of the progress. -/
inductive WorkerResponse (P : Type) where
  | proofResult (id : String) (payload : P)
  | proofError (id message : String)
  | progress (id : String)
  | preloadDone (id : String)
  | cacheCleared (id : String)

def WorkerResponse.id : WorkerResponse P → String
  | .proofResult id _ | .proofError id _ | .progress id | .preloadDone id | .cacheCleared id => id

/-- Whether a message is of a type that answers the request. -/
def WorkerResponse.answers : WorkerResponse P → WorkerRequest ν → Bool
  | .proofResult _ _, .generateProof _ _ => true
  | .preloadDone _, .preloadArtifacts _ => true
  | .cacheCleared _, .clearCache _ => true
  | .proofError _ _, _ | .progress _, _ => true
  | _, _ => false

/-! ## Data -/

structure WorkerProofOptions where
  timeoutMs : Option Nat := none
  dedupSameWitness : Option Bool := none

/-- A dispatched request. Its promise settles with the first of `settlements`,
the calls of `resolve` and `reject` there have been; `none` is the value
`undefined`. -/
structure Request (ν P : Type) where
  message : WorkerRequest ν
  /-- The timer of its `dispatch` is running. -/
  timer : Bool := true
  settlements : List (Except SdkError (Option P)) := []

/-- What the request was settled with first. -/
def Request.outcome (r : Request ν P) : Option (Except SdkError (Option P)) := r.settlements.head?

/-- `clearTimeout(timer)`, or the timer has fired, and `resolve` or `reject`. -/
def Request.settle (result : Except SdkError (Option P)) (r : Request ν P) : Request ν P :=
  { r with timer := false, settlements := r.settlements ++ [result] }

/-- The promise that `generateProof` returns. -/
inductive ProofPromise where
  | rejected (e : SdkError)
  | request (n : Nat)
  /-- That of `execute`, which awaits a call of the registry. -/
  | call (c : Nat)

/-- A call of `generateProof` for a witness. -/
structure ProofCall where
  key : String
  promise : ProofPromise

structure WorkerProofGenerator (ν P : Type) where
  options : WorkerProofOptions
  requests : List (Request ν P)
  pending : List (String × Nat)
  seq : Nat
  dedup : World (Option P)
  /-- The request that each call of the registry dispatched. -/
  dispatched : List Nat
  proofs : List ProofCall
  /-- The event listeners are there. -/
  listening : Bool
  /-- The messages that the listener was called with. -/
  received : List (WorkerResponse P)

/-- A `PayrollError`, as `ZkPayrollError` with a numeric code. -/
def workerFailure (message code : String) : SdkError where
  kind := .zkPayroll
  name := "PayrollError"
  message := message
  code := code

namespace WorkerProofGenerator

variable (g : WorkerProofGenerator ν P)

/-! ## `dispatch` -/

def nextId : String × WorkerProofGenerator ν P := (toString g.seq, { g with seq := g.seq + 1 })

/-- `dispatch(req)`: `thrown` is what `postMessage` throws, if it does. -/
def dispatch (req : WorkerRequest ν) (thrown : Option SdkError) : WorkerProofGenerator ν P :=
  { g with
    requests := g.requests ++ [{ message := req, settlements := thrown.toList.map .error }]
    pending := setKey req.id g.requests.length g.pending }

/-- What takes a request off the table: its timer is cleared or has fired, its
entry is deleted, and its promise settled. -/
def settle (id : String) (n : Nat) (result : Except SdkError (Option P)) : WorkerProofGenerator ν P :=
  { g with
    requests := g.requests.modify n (Request.settle result)
    pending := eraseKey id g.pending }

/-- The loop of `onError` and of `terminate`, and `pending.clear()`. -/
def rejectAll (err : SdkError) : WorkerProofGenerator ν P :=
  { g with
    requests := g.pending.foldl (fun requests p => requests.modify p.2 (Request.settle (.error err))) g.requests
    pending := [] }

/-! ## Event handlers -/

def onMessage (msg : WorkerResponse P) : WorkerProofGenerator ν P :=
  match g.pending.lookup msg.id with
  | none => g
  | some n =>
    match msg with
    | .proofResult id payload => g.settle id n (.ok (some payload))
    | .proofError id message =>
      g.settle id n (.error (workerFailure s!"Worker proof generation failed: {message}" "500"))
    | .progress _ => g
    | .preloadDone id | .cacheCleared id => g.settle id n (.ok none)

def onError (message : String) : WorkerProofGenerator ν P :=
  g.rejectAll (workerFailure s!"Worker error: {message}" "500")

def timeoutMs : Nat := g.options.timeoutMs.getD 120000

/-- The timer of a request fires. -/
def onTimeout (id : String) (n : Nat) : WorkerProofGenerator ν P :=
  g.settle id n (.error (workerFailure s!"Proof generation timed out after {g.timeoutMs}ms" "408"))

/-! ## Public methods -/

/-- The function given to the registry returned its promise. -/
def returned (c : Nat) : WorkerProofGenerator ν P :=
  match g.dedup.calls[c]? with
  | some call => { g with dedup := g.dedup.returned c call }
  | none => g

def dedupEnabled : Bool := g.options.dedupSameWitness != some false

/-- `inner()` of `generateProof`: the number of the request, and the dispatch. -/
def inner (witness : Witness ν) (thrown : Option SdkError) : Nat × WorkerProofGenerator ν P :=
  let (id, g') := g.nextId
  (g'.requests.length, g'.dispatch (.generateProof id witness) thrown)

def withProof (key : String) (promise : ProofPromise) : WorkerProofGenerator ν P :=
  { g with proofs := g.proofs ++ [{ key := key, promise := promise }] }

/-- `generateProof(witness)`: `sanitized` is the witness that `sanitizeProofInput`
makes, or the error that is made of its first one. -/
def generateProof [NumberFormat ν] (sanitized : Except SdkError (Witness ν)) (thrown : Option SdkError) :
    WorkerProofGenerator ν P :=
  match sanitized with
  | .error _ => g
  | .ok witness =>
    let key := witnessKey witness
    if g.dedupEnabled then
      match g.dedup.execute key {} with
      | (.threw e, dedup) => { g with dedup := dedup }.withProof key (.rejected e)
      | (.existing c, dedup) => { g with dedup := dedup }.withProof key (.call c)
      | (.started c, dedup) =>
        let (n, g') := { g with dedup := dedup }.inner witness thrown
        ({ g' with dispatched := g'.dispatched ++ [n] }.returned c).withProof key (.call c)
    else
      let (n, g') := g.inner witness thrown
      g'.withProof key (.request n)

def preloadArtifacts (thrown : Option SdkError) : WorkerProofGenerator ν P :=
  let (id, g') := g.nextId
  g'.dispatch (.preloadArtifacts id) thrown

def clearCache (thrown : Option SdkError) : WorkerProofGenerator ν P :=
  let (id, g') := g.nextId
  g'.dispatch (.clearCache id) thrown

def terminate : WorkerProofGenerator ν P :=
  let g' := g.rejectAll (workerFailure "Worker was terminated" "0")
  { g' with dedup := g'.dedup.clear, listening := false }

/-! ## What a call of `generateProof` settles with -/

/-- The request that a promise is that of. -/
def request : ProofPromise → Option Nat
  | .rejected _ => none
  | .request n => some n
  | .call c => g.dispatched[c]?

def outcome (p : ProofPromise) : Option (Except SdkError (Option P)) :=
  match p with
  | .rejected e => some (.error e)
  | p => (g.request p).bind fun n => (g.requests[n]?).bind Request.outcome

end WorkerProofGenerator

/-! ## Steps -/

/-- What can happen next. -/
inductive WorkerEvent (ν P : Type) where
  | generateProof (sanitized : Except SdkError (Witness ν)) (thrown : Option SdkError)
  | preloadArtifacts (thrown : Option SdkError)
  | clearCache (thrown : Option SdkError)
  | terminate
  | message (msg : WorkerResponse P)
  | workerError (message : String)
  | timeout (n : Nat)
  /-- The promise that a call of the registry awaits has settled. -/
  | settled (c : Nat)
  /-- The last part of `execute`. -/
  | cleanup (c : Nat)
  | tick (ms : Nat)

/-- What one step makes of a generator, whose worker answers a request only with
messages of its kind. -/
inductive WorkerProofGenerator.Step [NumberFormat ν] (g : WorkerProofGenerator ν P) :
    WorkerEvent ν P → WorkerProofGenerator ν P → Prop
  | generateProof (sanitized : Except SdkError (Witness ν)) (thrown : Option SdkError) :
    g.Step (.generateProof sanitized thrown) (g.generateProof sanitized thrown)
  | preloadArtifacts (thrown : Option SdkError) : g.Step (.preloadArtifacts thrown) (g.preloadArtifacts thrown)
  | clearCache (thrown : Option SdkError) : g.Step (.clearCache thrown) (g.clearCache thrown)
  | terminate : g.Step .terminate g.terminate
  | message {msg : WorkerResponse P} (hl : g.listening = true)
      (h : ∀ r ∈ g.requests, r.message.id = msg.id → msg.answers r.message = true) :
    g.Step (.message msg) { g.onMessage msg with received := g.received ++ [msg] }
  | workerError (message : String) (hl : g.listening = true) : g.Step (.workerError message) (g.onError message)
  | timeout {n : Nat} {r : Request ν P} (h : g.requests[n]? = some r) (ht : r.timer = true) :
    g.Step (.timeout n) (g.onTimeout r.message.id n)
  | settled {c n : Nat} {call : Call (Option P)} {r : Request ν P} {result : Except SdkError (Option P)}
      (hc : g.dedup.calls[c]? = some call) (hs : call.state = .pending) (hn : g.dispatched[c]? = some n)
      (hr : g.requests[n]? = some r) (ho : r.outcome = some result) :
    g.Step (.settled c) { g with dedup := g.dedup.setState c call (.settled result) }
  | cleanup {c : Nat} {call : Call (Option P)} {result : Except SdkError (Option P)}
      (hc : g.dedup.calls[c]? = some call) (hs : call.state = .settled result) :
    g.Step (.cleanup c) { g with dedup := g.dedup.cleanup c call result }
  | tick (ms : Nat) : g.Step (.tick ms) { g with dedup := { g.dedup with now := g.dedup.now + ms } }

end ZkPayroll.Crypto
