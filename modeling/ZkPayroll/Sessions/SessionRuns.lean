import Mathlib.Data.List.Induction
import ZkPayroll.Framework.Transition
import ZkPayroll.Sessions.QuorumSessionManager

/-!
# Runs of the session manager and their chronicle

A run is any sequence of calls on any sessions, each with its own readings of
the clock. `World` is the manager together with the parameters that each of its
sessions was created with, and `reachable_sessions` the induction over runs: an
invariant of a session and its parameters that every call preserves holds of
every session in every reachable world.

A session keeps one signature for each signer and role and never tells in which
order it was signed and rejected. A `Chronicle` is the world together with
everything that the calls of a run recorded: signatures (those later replaced,
too), rejections and consumptions. `Operation.took` says once what a call that
returns does to the sessions and the nonces.
-/

namespace ZkPayroll.Sessions

open Framework ZkPayroll.Core

section

variable {ν : Type} [NumberFormat ν]

/-- A call that may change the manager. `addSignature` and `replaceSignature`
are `applySignature` without and with `allowReplace`. -/
inductive Operation (ν : Type) where
  | createSession (now : Int) (generatedId : String) (params : CreateSessionParams ν)
  | applySignature (now later : Int) (sessionId : String) (params : AddSignatureParams ν)
      (allowReplace : Bool)
  | rejectSession (now later : Int) (sessionId signerAddress : String) (role : SignerRole)
      (reason : String)
  | markConsumed (now later : Int) (sessionId : String) (txHash : Option String)

/-- The manager, and what its sessions were created with. -/
structure World (ν : Type) where
  manager : Manager
  created : List (String × CreateSessionParams ν)

/-- What the operation does to the world. -/
def Operation.run (sha256 : String → List UInt8) (w : World ν) : Operation ν → World ν
  | .createSession now generatedId params =>
    match Sessions.createSession sha256 now generatedId params w.manager with
    | .ok session m => { manager := m, created := setKey session.sessionId params w.created }
    | .error _ m => { w with manager := m }
  | .applySignature now later sessionId params allowReplace =>
    { w with manager := (Sessions.applySignature sha256 now later sessionId params allowReplace).after w.manager }
  | .rejectSession now later sessionId signerAddress role reason =>
    { w with manager := (Sessions.rejectSession now later sessionId signerAddress role reason).after w.manager }
  | .markConsumed now later sessionId txHash =>
    { w with manager := (Sessions.markConsumed now later sessionId txHash).after w.manager }

/-- A new manager. -/
def Initial (w : World ν) : Prop :=
  w.manager.sessions = [] ∧ w.manager.usedNonces = [] ∧ w.created = []

/-- A call that meets the condition `ok`. -/
def Step (sha256 : String → List UInt8) (ok : World ν → Operation ν → Prop) (w w' : World ν) : Prop :=
  ∃ op, ok w op ∧ w' = op.run sha256 w

/-- The worlds that runs reach whose calls all meet the condition `ok`. -/
def ReachableWorld (sha256 : String → List UInt8) (ok : World ν → Operation ν → Prop) (w : World ν) : Prop :=
  Reachable Initial (Step sha256 ok) w

/-- An invariant `J` of the parameters and the state of a session: creating a
session establishes it, and calls on the session that meet `ok` preserve it. -/
structure Preserved (sha256 : String → List UInt8) (ok : World ν → Operation ν → Prop)
    (J : CreateSessionParams ν → SignerSession → Prop) : Prop where
  create {w : World ν} {now : Int} {generatedId : String} {params : CreateSessionParams ν} {m' : Manager}
    {session : SignerSession} : ok w (.createSession now generatedId params) →
    createSession sha256 now generatedId params w.manager = .ok session m' → J params session
  sign {w : World ν} {now later : Int} {sessionId : String} {params : AddSignatureParams ν}
    {allowReplace : Bool} {p : CreateSessionParams ν} {session : SignerSession} :
    ok w (.applySignature now later sessionId params allowReplace) →
    w.manager.sessions.lookup sessionId = some session →
    SignatureOk sha256 now w.manager session params allowReplace → J p session →
    J p (session.recordSignature (params.toRecord later session.payloadHash))
  reject {w : World ν} {now later : Int} {sessionId signerAddress reason : String} {role : SignerRole}
    {p : CreateSessionParams ν} {session : SignerSession} :
    ok w (.rejectSession now later sessionId signerAddress role reason) →
    w.manager.sessions.lookup sessionId = some session →
    RejectionOk now session signerAddress role reason → J p session →
    J p (session.recordRejection
      { signerAddress := signerAddress, role := role, rejectedAt := later, reason := reason })
  consume {w : World ν} {now later : Int} {sessionId : String} {txHash : Option String}
    {p : CreateSessionParams ν} {session : SignerSession} :
    ok w (.markConsumed now later sessionId txHash) →
    w.manager.sessions.lookup sessionId = some session →
    session.isConsumed = false → now ≤ session.expiresAt → J p session →
    J p (session.consume later txHash)

/-- Every session was created with some parameters, and satisfies `J` with
them. -/
def AllSessions (J : CreateSessionParams ν → SignerSession → Prop) (w : World ν) : Prop :=
  ∀ sessionId session, w.manager.sessions.lookup sessionId = some session →
    ∃ p, w.created.lookup sessionId = some p ∧ J p session

variable {J : CreateSessionParams ν → SignerSession → Prop}

omit [NumberFormat ν] in
/-- Changing one session keeps what holds of the others. -/
theorem AllSessions.set {w : World ν}
    (h : AllSessions J w) {sessionId : String} {session : SignerSession} (session' : SignerSession)
    (hs : w.manager.sessions.lookup sessionId = some session) (hJ : ∀ p, J p session → J p session')
    {m : Manager} (hm : m.sessions = setKey sessionId session' w.manager.sessions) :
    AllSessions J { w with manager := m } := by
  intro i s hi
  simp only [hm, lookup_setKey] at hi
  split at hi
  · rename_i heq
    subst heq
    cases hi
    obtain ⟨p, hp, hj⟩ := h _ _ hs
    exact ⟨p, hp, hJ p hj⟩
  · exact h i s hi

variable {ok : World ν → Operation ν → Prop} {sha256 : String → List UInt8}

theorem allSessions_step (hJ : Preserved sha256 ok J) {w w' : World ν}
    (h : AllSessions J w) (hs : Step sha256 ok w w') : AllSessions J w' := by
  obtain ⟨op, hok, rfl⟩ := hs
  cases op with
  | createSession now generatedId params =>
    simp only [Operation.run]
    cases hc : createSession sha256 now generatedId params w.manager with
    | ok session m =>
      obtain ⟨-, rfl, -⟩ := createSession_eq_ok hc
      intro i s hi
      simp only [lookup_setKey] at hi ⊢
      split
      · rename_i heq
        rw [if_pos heq] at hi
        cases hi
        exact ⟨params, rfl, hJ.create hok hc⟩
      · rename_i heq
        rw [if_neg heq] at hi
        exact h i s hi
    | error e m =>
      have hm := atomic_createSession sha256 now generatedId params _ _ _ hc
      rw [hm]
      exact h
  | applySignature now later sessionId params allowReplace =>
    simp only [Operation.run]
    rcases (atomic_applySignature sha256 now later sessionId params allowReplace).after_eq w.manager
      with hm | ⟨s', hm⟩
    · rw [hm]
      exact h
    · obtain ⟨session, hl, hchecks, hs', heq⟩ := applySignature_eq_ok.mp hm
      refine h.set s' hl (fun p hp => ?_) (by rw [heq])
      rw [hs']
      exact hJ.sign hok hl hchecks hp
  | rejectSession now later sessionId signerAddress role reason =>
    simp only [Operation.run]
    rcases (atomic_rejectSession now later sessionId signerAddress reason role).after_eq w.manager
      with hm | ⟨s', hm⟩
    · rw [hm]
      exact h
    · obtain ⟨session, hl, hchecks, hs', heq⟩ := rejectSession_eq_ok.mp hm
      refine h.set s' hl (fun p hp => ?_) (by rw [heq])
      rw [hs']
      exact hJ.reject hok hl hchecks hp
  | markConsumed now later sessionId txHash =>
    simp only [Operation.run]
    rcases (atomic_markConsumed now later sessionId txHash).after_eq w.manager with hm | ⟨s', hm⟩
    · rw [hm]
      exact h
    · obtain ⟨session, hl, hc, he, hs', heq⟩ := markConsumed_eq_ok.mp hm
      refine h.set s' hl (fun p hp => ?_) (by rw [heq])
      rw [hs']
      exact hJ.consume hok hl hc he hp

/-- The induction over runs. -/
theorem reachable_sessions (hJ : Preserved sha256 ok J) {w : World ν}
    (h : ReachableWorld sha256 ok w) : AllSessions J w := by
  refine Reachable.invariant (I := AllSessions J) (fun w₀ hw sessionId session hl => ?_)
    (fun _ _ hw hs => allSessions_step hJ hw hs) h
  rw [hw.1] at hl
  cases hl

/-! ## Runs on lists of calls -/

/-- The world after some calls on a new manager. -/
def runAll (sha256 : String → List UInt8) (ops : List (Operation ν)) : World ν :=
  ops.foldl (Operation.run sha256) { manager := {}, created := [] }

theorem reachable_nil : ReachableWorld sha256 ok (runAll sha256 []) :=
  Reachable.start ⟨rfl, rfl, rfl⟩

theorem reachable_concat {ops : List (Operation ν)} (op : Operation ν)
    (h : ReachableWorld sha256 ok (runAll sha256 ops))
    (hop : ok (runAll sha256 ops) op) : ReachableWorld sha256 ok (runAll sha256 (ops ++ [op])) := by
  refine Reachable.next h ⟨op, hop, ?_⟩
  rw [runAll, List.foldl_append]
  rfl

/-- Without a condition, every list of calls is a run. -/
theorem reachable_runAll (sha256 : String → List UInt8) (ops : List (Operation ν)) :
    ReachableWorld sha256 (fun _ _ => True) (runAll sha256 ops) := by
  induction ops using List.reverseRecOn with
  | nil => exact reachable_nil
  | append_singleton ops op ih => exact reachable_concat op ih trivial

end

section

variable {ν : Type}

/-- What a call puts on record. -/
inductive Event where
  | signed (signature : SignatureRecord)
  | rejected (rejection : RejectionRecord)
  | consumed
  deriving DecidableEq

/-- An event of a session. -/
structure Entry where
  sessionId : String
  event : Event
  deriving DecidableEq

/-- The nonce of a recorded signature. -/
def Entry.nonce (e : Entry) : Option String :=
  match e.event with
  | .signed signature => some signature.nonce
  | _ => none

/-- The session that is marked consumed. -/
def Entry.consumption (e : Entry) : Option String :=
  match e.event with
  | .consumed => some e.sessionId
  | _ => none

/-- Whether the entry is an action of the signer for the role on the session. -/
def Entry.isBy (sessionId signerAddress : String) (role : SignerRole) (e : Entry) : Bool :=
  e.sessionId == sessionId &&
    match e.event with
    | .signed signature => signature.signerAddress == signerAddress && signature.role == role
    | .rejected rejection => rejection.signerAddress == signerAddress && rejection.role == role
    | .consumed => false

/-- The most recent action of a signer for a role; entries stand latest first. -/
def latestAction (entries : List Entry) (sessionId signerAddress : String) (role : SignerRole) : Option Event :=
  (entries.find? (Entry.isBy sessionId signerAddress role)).map Entry.event

/-! ## Calls -/

/-- The first reading of the clock. -/
def Operation.now : Operation ν → Int
  | .createSession now .. | .applySignature now .. | .rejectSession now .. | .markConsumed now .. => now

/-- The session that a call on an existing session is for. -/
def Operation.target : Operation ν → Option String
  | .createSession .. => none
  | .applySignature _ _ sessionId .. | .rejectSession _ _ sessionId .. | .markConsumed _ _ sessionId _ =>
    some sessionId

/-- The nonce that a call registers. -/
def Operation.nonce : Operation ν → Option String
  | .applySignature _ _ _ params _ => some params.nonce
  | _ => none

/-- What a call puts on record when it returns the session. -/
def Operation.event (session : SignerSession) : Operation ν → Option Event
  | .createSession .. => none
  | .applySignature _ later _ params _ => some (.signed (params.toRecord later session.payloadHash))
  | .rejectSession _ later _ signerAddress role reason =>
    some (.rejected { signerAddress := signerAddress, role := role, rejectedAt := later, reason := reason })
  | .markConsumed .. => some .consumed

variable [NumberFormat ν]

/-- The method that is called. -/
def Operation.call (sha256 : String → List UInt8) : Operation ν → Method SdkError Manager SignerSession
  | .createSession now generatedId params => Sessions.createSession sha256 now generatedId params
  | .applySignature now later sessionId params allowReplace =>
    Sessions.applySignature sha256 now later sessionId params allowReplace
  | .rejectSession now later sessionId signerAddress role reason =>
    Sessions.rejectSession now later sessionId signerAddress role reason
  | .markConsumed now later sessionId txHash => Sessions.markConsumed now later sessionId txHash

/-- What the call records; nothing, if it throws. -/
def Operation.entries (sha256 : String → List UInt8) (m : Manager) (op : Operation ν) : List Entry :=
  match op.call sha256 m with
  | .ok session _ => (op.event session).toList.map fun event => ⟨op.target.getD session.sessionId, event⟩
  | .error _ _ => []

/-- The world, and what was recorded so far. -/
structure Chronicle (ν : Type) where
  world : World ν
  entries : List Entry

/-- The chronicle after a call. -/
def Chronicle.next (sha256 : String → List UInt8) (c : Chronicle ν) (op : Operation ν) : Chronicle ν where
  world := op.run sha256 c.world
  entries := op.entries sha256 c.world.manager ++ c.entries

/-- A new manager, and nothing recorded. -/
def InitialChronicle (c : Chronicle ν) : Prop := Initial c.world ∧ c.entries = []

/-- The chronicles of runs whose calls all meet the condition `ok`. -/
def ReachableChronicle (sha256 : String → List UInt8) (ok : World ν → Operation ν → Prop) (c : Chronicle ν) :
    Prop :=
  Reachable InitialChronicle (fun c c' => ∃ op, ok c.world op ∧ c' = c.next sha256 op) c

/-! ## What a call does -/

variable (sha256 : String → List UInt8)

theorem Operation.run_manager (w : World ν) (op : Operation ν) :
    (op.run sha256 w).manager = (op.call sha256).after w.manager := by
  cases op with
  | createSession now generatedId params =>
    simp only [Operation.run, Operation.call, Method.after]
    cases Sessions.createSession sha256 now generatedId params w.manager <;> rfl
  | _ => rfl

/-- No call changes the manager and then throws. -/
theorem Operation.atomic_call (op : Operation ν) : Method.Atomic (op.call sha256) := by
  cases op with
  | createSession now generatedId params => exact atomic_createSession sha256 now generatedId params
  | applySignature now later sessionId params allowReplace =>
    exact atomic_applySignature sha256 now later sessionId params allowReplace
  | rejectSession now later sessionId signerAddress role reason =>
    exact atomic_rejectSession now later sessionId signerAddress reason role
  | markConsumed now later sessionId txHash => exact atomic_markConsumed now later sessionId txHash

/-- What a call that returns `session'` has done to the manager `m`. -/
structure Operation.Took (op : Operation ν) (m m' : Manager) (session' : SignerSession) : Prop where
  sessions : m'.sessions = setKey (op.target.getD session'.sessionId) session' m.sessions
  nonces : m'.usedNonces = m.usedNonces ++ op.nonce.toList
  fresh : ∀ n ∈ op.nonce, n ∉ m.usedNonces
  /-- The session is new. -/
  created : op.target = none → m.sessions.lookup session'.sessionId = none
  /-- The session took changes. -/
  active : ∀ sessionId ∈ op.target, ∃ session, m.sessions.lookup sessionId = some session ∧
    session.isConsumed = false ∧ op.now ≤ session.expiresAt
  consumed : session'.isConsumed = decide (op.event session' = some .consumed)
  /-- A signature of the session is the one recorded now, or was there before. -/
  signatures : ∀ f ∈ session'.signatures, op.event session' = some (.signed f.2) ∨
    ∃ session, m.sessions.lookup (op.target.getD session'.sessionId) = some session ∧ f ∈ session.signatures
  rejections : ∀ f ∈ session'.rejections, op.event session' = some (.rejected f.2) ∨
    ∃ session, m.sessions.lookup (op.target.getD session'.sessionId) = some session ∧ f ∈ session.rejections

theorem Operation.took {sha256 : String → List UInt8} {op : Operation ν} {m m' : Manager}
    {session' : SignerSession} (h : op.call sha256 m = .ok session' m') : op.Took m m' session' := by
  cases op with
  | createSession now generatedId params =>
    obtain ⟨hnew, rfl, -, -, -, hc, hsig, hrej, -⟩ := createSession_eq_ok h
    exact
      { sessions := rfl
        nonces := by simp [Operation.nonce]
        fresh := nofun
        created := fun _ => hnew
        active := nofun
        consumed := by simp [hc, Operation.event]
        signatures := by simp [hsig]
        rejections := by simp [hrej] }
  | applySignature now later sessionId params allowReplace =>
    obtain ⟨session, hs, hok, rfl, rfl⟩ := applySignature_eq_ok.mp h
    exact
      { sessions := rfl
        nonces := rfl
        fresh := by rintro n ⟨⟩; exact hok.unused
        created := nofun
        active := by rintro id ⟨⟩; exact ⟨session, hs, hok.active, hok.unexpired⟩
        consumed := by simp [SignerSession.recordSignature, hok.active, Operation.event]
        signatures := fun f hf => (eq_or_mem_of_mem_setKey hf).imp (by rintro rfl; rfl) fun hf => ⟨session, hs, hf⟩
        rejections := fun f hf => .inr ⟨session, hs, hf⟩ }
  | rejectSession now later sessionId signerAddress role reason =>
    obtain ⟨session, hs, hok, rfl, rfl⟩ := rejectSession_eq_ok.mp h
    exact
      { sessions := rfl
        nonces := by simp [Operation.nonce]
        fresh := nofun
        created := nofun
        active := by rintro id ⟨⟩; exact ⟨session, hs, hok.active, hok.unexpired⟩
        consumed := by simp [SignerSession.recordRejection, hok.active, Operation.event]
        signatures := fun f hf => .inr ⟨session, hs, hf⟩
        rejections := fun f hf => (eq_or_mem_of_mem_setKey hf).imp (by rintro rfl; rfl) fun hf => ⟨session, hs, hf⟩ }
  | markConsumed now later sessionId txHash =>
    obtain ⟨session, hs, hc, he, rfl, rfl⟩ := markConsumed_eq_ok.mp h
    exact
      { sessions := rfl
        nonces := by simp [Operation.nonce]
        fresh := nofun
        created := nofun
        active := by rintro id ⟨⟩; exact ⟨session, hs, hc, he⟩
        consumed := rfl
        signatures := fun f hf => .inr ⟨session, hs, hf⟩
        rejections := fun f hf => .inr ⟨session, hs, hf⟩ }

/-- A call either throws, and then changes and records nothing, or it returns a
session. -/
theorem Chronicle.next_cases (c : Chronicle ν) (op : Operation ν) :
    ((c.next sha256 op).world.manager = c.world.manager ∧ (c.next sha256 op).entries = c.entries) ∨
    ∃ session' m', op.call sha256 c.world.manager = .ok session' m' ∧
      (c.next sha256 op).world.manager = m' ∧
      (c.next sha256 op).entries = ((op.event session').toList.map fun event =>
        ⟨op.target.getD session'.sessionId, event⟩) ++ c.entries := by
  have hm : (c.next sha256 op).world.manager = (op.call sha256).after c.world.manager :=
    Operation.run_manager sha256 c.world op
  cases hcall : op.call sha256 c.world.manager with
  | ok session' m' =>
    refine .inr ⟨session', m', rfl, ?_, ?_⟩
    · rw [hm, Method.after, hcall]
    · simp [Chronicle.next, Operation.entries, hcall]
  | error e m' =>
    refine .inl ⟨?_, ?_⟩
    · rw [hm, Method.after, hcall]
      exact op.atomic_call sha256 _ _ _ hcall
    · simp [Chronicle.next, Operation.entries, hcall]

/-! ## Runs on lists of calls -/

/-- A new manager with its options. -/
def newManager (defaultTtlMs maxTtlMs : Int) : Manager :=
  { defaultTtlMs := defaultTtlMs, maxTtlMs := maxTtlMs }

/-- The chronicle of some calls on a manager. -/
def chronicle (sha256 : String → List UInt8) (m : Manager) (ops : List (Operation ν)) : Chronicle ν :=
  ops.foldl (Chronicle.next sha256) { world := { manager := m, created := [] }, entries := [] }

theorem chronicle_concat (m : Manager) (ops : List (Operation ν)) (op : Operation ν) :
    chronicle sha256 m (ops ++ [op]) = (chronicle sha256 m ops).next sha256 op := by
  rw [chronicle, List.foldl_append]
  rfl

/-- What a new manager satisfies and every call preserves holds after every
list of calls. -/
theorem chronicle_induction {sha256 : String → List UInt8} {I : Chronicle ν → Prop} (defaultTtlMs maxTtlMs : Int)
    (hinit : ∀ c : Chronicle ν, InitialChronicle c → I c)
    (hnext : ∀ c op, I c → I (c.next sha256 op)) (ops : List (Operation ν)) :
    I (chronicle sha256 (newManager defaultTtlMs maxTtlMs) ops) := by
  induction ops using List.reverseRecOn with
  | nil => exact hinit _ ⟨⟨rfl, rfl, rfl⟩, rfl⟩
  | append_singleton ops op ih =>
    rw [chronicle_concat]
    exact hnext _ op ih

theorem reachableChronicle_concat {sha256 : String → List UInt8} {ok : World ν → Operation ν → Prop}
    {m : Manager} {ops : List (Operation ν)} (op : Operation ν)
    (h : ReachableChronicle sha256 ok (chronicle sha256 m ops)) (hop : ok (chronicle sha256 m ops).world op) :
    ReachableChronicle sha256 ok (chronicle sha256 m (ops ++ [op])) := by
  rw [chronicle_concat]
  exact Reachable.next h ⟨op, hop, rfl⟩

end

end ZkPayroll.Sessions
