import Mathlib.Algebra.Ring.Int.Defs
import ZkPayroll.Framework.Guards
import ZkPayroll.Framework.Maps
import ZkPayroll.Sessions.QuorumSessionManager

/-!
# The coordinator of signers

`MultiSignerCoordinator` of `authorization/MultiSignerCoordinator.ts`, each
method as a `Method` of the coordinator, whose errors are their messages. What a
method reads of the clock is its argument `now`, and `later` where it reads it
again for a time that it records; a random text is an argument as well. The
signer of a request that a method finds is told by its place in the request.
The percentage of an approval and the metadata of a request are left out.
-/

namespace ZkPayroll.Authorization

open Framework
open Sessions (SignerRole)

/-! ## Data -/

inductive SignerState where
  | pending
  | signed
  | rejected
  | expired
  | revoked
  deriving DecidableEq

inductive PolicyType where
  | unanimous
  | threshold
  | weighted
  deriving DecidableEq

def PolicyType.name : PolicyType → String
  | .unanimous => "unanimous"
  | .threshold => "threshold"
  | .weighted => "weighted"

structure AuthorizationPolicy where
  type : PolicyType
  requiredRoles : List SignerRole
  threshold : Option Int := none
  weights : Option (List (SignerRole × Int)) := none
  expiryMs : Option Int := none
  deriving DecidableEq

structure SignerInfo where
  address : String
  role : SignerRole
  state : SignerState
  signedAt : Option Int := none
  rejectedAt : Option Int := none
  rejectionReason : Option String := none
  deriving DecidableEq

structure AuthorizationRequest where
  id : String
  operationId : String
  policy : AuthorizationPolicy
  signers : List SignerInfo
  createdAt : Int
  expiresAt : Int
  deriving DecidableEq

structure SignaturePayload where
  operationId : String
  policyId : String
  signerRole : SignerRole
  timestamp : Int
  nonce : String
  deriving DecidableEq

structure AuthorizationStatus where
  requestId : String
  isApproved : Bool
  isPending : Bool
  isExpired : Bool
  signedCount : Nat
  requiredCount : Int
  rejectionCount : Nat
  signers : List SignerInfo
  reason : Option String

/-- The fields of `MultiSignerCoordinator`. -/
structure Coordinator where
  requests : List (String × AuthorizationRequest) := []
  signerHistory : List (String × List String) := []
  maxExpiryMs : Int := 86400000
  deriving DecidableEq

/-! ## Policies -/

def signedSigners (signers : List SignerInfo) : List SignerInfo := signers.filter (·.state = .signed)

/-- The sum of `policy.weights[signer.role] ?? 0`. -/
def weightOf (weights : List (SignerRole × Int)) (signers : List SignerInfo) : Int :=
  (signers.map fun s => (weights.lookup s.role).getD 0).sum

def evaluatePolicy (request : AuthorizationRequest) : Bool :=
  match request.policy.type with
  | .unanimous =>
    (signedSigners request.signers).length == (request.signers.filter (·.state ≠ .rejected)).length
  | .threshold =>
    match request.policy.threshold with
    | none => false
    | some threshold => threshold != 0 && threshold ≤ (signedSigners request.signers).length
  | .weighted =>
    match request.policy.weights with
    | none => false
    | some weights => weightOf weights request.signers ≤ 2 * weightOf weights (signedSigners request.signers)

variable (now : Int)

/-- No time, which is the time 0, is never over. -/
def isExpired (request : AuthorizationRequest) : Bool :=
  request.expiresAt != 0 && now > request.expiresAt

def getRequiredSignatureCount (request : AuthorizationRequest) : Int :=
  match request.policy.type, request.policy.threshold with
  | .threshold, some threshold => if threshold = 0 then request.signers.length else threshold
  | _, _ => request.signers.length

/-- `JSON.stringify(policy)`. -/
def policyId (policy : AuthorizationPolicy) : String :=
  let optional (key : String) (n : Option Int) : List (String × Json Int) := n.toList.map fun n => (key, .num n)
  stringify (.obj (
    [("type", .str policy.type.name),
      ("requiredRoles", .arr (policy.requiredRoles.map fun role => .str role.name))] ++
    optional "threshold" policy.threshold ++
    policy.weights.toList.map (fun weights =>
      ("weights", .obj (weights.map fun w => (w.1.name, .num w.2)))) ++
    optional "expiryMs" policy.expiryMs))

/-! ## Signers of a request -/

def SignerInfo.isFor (signerAddress : String) (role : SignerRole) (s : SignerInfo) : Bool :=
  s.address == signerAddress && s.role == role

def SignerInfo.assign (signerAddress : String) (s : SignerInfo) : SignerInfo := { s with address := signerAddress }

def SignerInfo.sign (later : Int) (s : SignerInfo) : SignerInfo :=
  { s with state := .signed, signedAt := some later }

def SignerInfo.reject (later : Int) (reason : String) (s : SignerInfo) : SignerInfo :=
  { s with state := .rejected, rejectedAt := some later, rejectionReason := some reason }

def SignerInfo.revoke (s : SignerInfo) : SignerInfo := { s with state := .revoked }

/-- The state of the signer at a place of the request. -/
def AuthorizationRequest.stateAt (request : AuthorizationRequest) (i : Nat) : Option SignerState :=
  request.signers[i]?.map SignerInfo.state

/-- The assignments to the fields of the signer at a place of the request. -/
def AuthorizationRequest.change (i : Nat) (f : SignerInfo → SignerInfo) (request : AuthorizationRequest) :
    AuthorizationRequest :=
  { request with signers := request.signers.modify i f }

/-- The assignments to the fields of a request that the map holds. -/
def Coordinator.setRequest (requestId : String) (request : AuthorizationRequest) (c : Coordinator) :
    Coordinator :=
  { c with requests := setKey requestId request c.requests }

/-- The key of a signer in the history of nonces. -/
def historyKey (requestId signerAddress : String) : String := requestId ++ ":" ++ signerAddress

/-- The nonces that a request has taken from a signer. -/
def Coordinator.history (c : Coordinator) (requestId signerAddress : String) : List String :=
  (c.signerHistory.lookup (historyKey requestId signerAddress)).getD []

def Coordinator.addNonce (requestId signerAddress nonce : String) (c : Coordinator) : Coordinator :=
  { c with
    signerHistory := setKey (historyKey requestId signerAddress) (c.history requestId signerAddress ++ [nonce])
      c.signerHistory }

/-! ## Methods -/

def createAuthorizationRequest (generatedId operationId : String) (policy : AuthorizationPolicy)
    (signerRoles : List SignerRole) : Method String Coordinator AuthorizationRequest := do
  let c ← get
  let request : AuthorizationRequest :=
    { id := generatedId
      operationId := operationId
      policy := policy
      signers := signerRoles.map fun role => { address := "", role := role, state := .pending }
      createdAt := now
      expiresAt := now + policy.expiryMs.getD c.maxExpiryMs }
  modify (Coordinator.setRequest generatedId request)
  return request

def getOrThrowRequest (requestId : String) : Method String Coordinator AuthorizationRequest := do
  let c ← get
  orThrow ("Authorization request " ++ requestId ++ " not found") (c.requests.lookup requestId)

def changeSigner (requestId : String) (request : AuthorizationRequest) (i : Nat) (f : SignerInfo → SignerInfo) :
    Method String Coordinator PUnit :=
  modify (Coordinator.setRequest requestId (request.change i f))

def addSigner (requestId signerAddress : String) (role : SignerRole) : Method String Coordinator Unit := do
  let request ← getOrThrowRequest requestId
  let i ← orThrow ("Role " ++ role.name ++ " not required for this authorization")
    (request.signers.findIdx? (·.role == role))
  throwIf (∃ s ∈ request.signers[i]?, s.address ≠ "" ∧ s.address ≠ signerAddress)
    ("Role " ++ role.name ++ " already assigned to a different signer")
  changeSigner requestId request i (SignerInfo.assign signerAddress)
  return ()

def recordSignature (now later : Int) (requestId : String) (signature : SignaturePayload)
    (signerAddress : String) : Method String Coordinator Unit := do
  let request ← getOrThrowRequest requestId
  throwIf (isExpired now request) ("Authorization request " ++ requestId ++ " has expired")
  let i ← orThrow ("Signer " ++ signerAddress ++ " with role " ++ signature.signerRole.name ++ " not found")
    (request.signers.findIdx? (SignerInfo.isFor signerAddress signature.signerRole))
  throwIf (request.stateAt i ≠ some .pending) ("Signer " ++ signerAddress ++ " has already signed or rejected")
  let c ← get
  throwIf (signature.nonce ∈ c.history requestId signerAddress)
    ("Duplicate signature detected for nonce " ++ signature.nonce)
  modify (Coordinator.addNonce requestId signerAddress signature.nonce)
  changeSigner requestId request i (SignerInfo.sign later)
  return ()

def recordRejection (now later : Int) (requestId signerAddress reason : String) :
    Method String Coordinator Unit := do
  let request ← getOrThrowRequest requestId
  throwIf (isExpired now request) ("Authorization request " ++ requestId ++ " has expired")
  let i ← orThrow ("Signer " ++ signerAddress ++ " not found")
    (request.signers.findIdx? (·.address == signerAddress))
  throwIf (request.stateAt i ≠ some .pending) ("Signer " ++ signerAddress ++ " has already signed or rejected")
  changeSigner requestId request i (SignerInfo.reject later reason)
  return ()

def revokeSignature (requestId signerAddress : String) : Method String Coordinator Unit := do
  let request ← getOrThrowRequest requestId
  let i ← orThrow ("Signer " ++ signerAddress ++ " not found")
    (request.signers.findIdx? (·.address == signerAddress))
  changeSigner requestId request i SignerInfo.revoke
  return ()

def getAuthorizationStatus (requestId : String) :
    Method String Coordinator AuthorizationStatus := do
  let request ← getOrThrowRequest requestId
  let expired := isExpired now request
  let approved := evaluatePolicy request
  return {
    requestId := requestId
    isApproved := approved && !expired
    isPending := !approved && !expired
    isExpired := expired
    signedCount := (signedSigners request.signers).length
    requiredCount := getRequiredSignatureCount request
    rejectionCount := (request.signers.filter (·.state = .rejected)).length
    signers := request.signers
    reason := if expired then some "Authorization request has expired" else none }

def createPayloadForSigning (nonce requestId : String) (signerRole : SignerRole) :
    Method String Coordinator SignaturePayload := do
  let request ← getOrThrowRequest requestId
  return {
    operationId := request.operationId
    policyId := policyId request.policy
    signerRole := signerRole
    timestamp := now
    nonce := nonce }

/-! ## What the methods do -/

section Methods

variable {c c' : Coordinator} {requestId signerAddress : String}

theorem readOnly_getOrThrowRequest (requestId : String) : Method.ReadOnly (getOrThrowRequest requestId) :=
  Method.readOnly_get.bind fun _ => Method.readOnly_lift _

theorem getOrThrowRequest_bind_eq_ok {β : Type} {f : AuthorizationRequest → Method String Coordinator β} {b : β} :
    (getOrThrowRequest requestId >>= f) c = .ok b c' ↔
      ∃ request, c.requests.lookup requestId = some request ∧ f request c = .ok b c' := by
  have hget {request : AuthorizationRequest} : getOrThrowRequest requestId c = .ok request c ↔
      c.requests.lookup requestId = some request := by
    rw [getOrThrowRequest, Method.get_bind]
    cases c.requests.lookup requestId with
    | none => exact iff_of_false nofun nofun
    | some r =>
      change EStateM.Result.ok r c = .ok request c ↔ _
      simp
  rw [(readOnly_getOrThrowRequest requestId).bind_eq_ok]
  simp only [hget]

variable {u : Unit}

theorem changeSigner_bind_eq_ok {request : AuthorizationRequest} {i : Nat} {f : SignerInfo → SignerInfo}
    : (changeSigner requestId request i f >>= fun _ => pure ()) c = .ok u c' ↔
      c' = c.setRequest requestId (request.change i f) := by
  rw [changeSigner, Method.modify_bind, Method.pure_eq_ok]
  exact ⟨fun h => h.2.symm, fun h => ⟨rfl, h.symm⟩⟩

theorem orThrow_lift_bind_eq_ok {α β : Type} {e : String} {o : Option α} {f : α → Method String Coordinator β}
    {b : β} : ((liftM (orThrow e o) : Method String Coordinator α) >>= f) c = .ok b c' ↔
      ∃ a, o = some a ∧ f a c = .ok b c' := by
  rw [Method.lift_bind_eq_ok]
  cases o <;> simp [orThrow]

theorem addSigner_eq_ok {role : SignerRole} :
    addSigner requestId signerAddress role c = .ok u c' ↔
      ∃ request i, c.requests.lookup requestId = some request ∧
        request.signers.findIdx? (·.role == role) = some i ∧
        (∀ s ∈ request.signers[i]?, s.address ≠ "" → s.address = signerAddress) ∧
        c' = c.setRequest requestId (request.change i (SignerInfo.assign signerAddress)) := by
  simp only [addSigner, getOrThrowRequest_bind_eq_ok, orThrow_lift_bind_eq_ok, Method.throwIf_bind_eq_ok,
    changeSigner_bind_eq_ok, not_exists, not_and, ne_eq, not_not]
  constructor
  · rintro ⟨request, hl, i, hi, hs, hc⟩
    exact ⟨request, i, hl, hi, hs, hc⟩
  · rintro ⟨request, i, hl, hi, hs, hc⟩
    exact ⟨request, hl, i, hi, hs, hc⟩

/-- The signer at the place `i` of a request may act. -/
structure MayAct (now : Int) (c : Coordinator) (requestId : String) (p : SignerInfo → Bool)
    (request : AuthorizationRequest) (i : Nat) : Prop where
  found : c.requests.lookup requestId = some request
  unexpired : isExpired now request = false
  place : request.signers.findIdx? p = some i
  pending : request.stateAt i = some .pending

theorem recordSignature_eq_ok {now later : Int} {signature : SignaturePayload} :
    recordSignature now later requestId signature signerAddress c = .ok u c' ↔
      ∃ request i, MayAct now c requestId (SignerInfo.isFor signerAddress signature.signerRole) request i ∧
        signature.nonce ∉ c.history requestId signerAddress ∧
        c' = (c.addNonce requestId signerAddress signature.nonce).setRequest requestId
          (request.change i (SignerInfo.sign later)) := by
  simp only [recordSignature, getOrThrowRequest_bind_eq_ok, orThrow_lift_bind_eq_ok, Method.throwIf_bind_eq_ok,
    Method.get_bind, Method.modify_bind, changeSigner_bind_eq_ok, Bool.not_eq_true, ne_eq, not_not]
  constructor
  · rintro ⟨request, hl, he, i, hi, hp, hn, hc⟩
    exact ⟨request, i, ⟨hl, he, hi, hp⟩, hn, hc⟩
  · rintro ⟨request, i, ⟨hl, he, hi, hp⟩, hn, hc⟩
    exact ⟨request, hl, he, i, hi, hp, hn, hc⟩

theorem recordRejection_eq_ok {now later : Int} {reason : String} :
    recordRejection now later requestId signerAddress reason c = .ok u c' ↔
      ∃ request i, MayAct now c requestId (·.address == signerAddress) request i ∧
        c' = c.setRequest requestId (request.change i (SignerInfo.reject later reason)) := by
  simp only [recordRejection, getOrThrowRequest_bind_eq_ok, orThrow_lift_bind_eq_ok, Method.throwIf_bind_eq_ok,
    changeSigner_bind_eq_ok, Bool.not_eq_true, ne_eq, not_not]
  constructor
  · rintro ⟨request, hl, he, i, hi, hp, hc⟩
    exact ⟨request, i, ⟨hl, he, hi, hp⟩, hc⟩
  · rintro ⟨request, i, ⟨hl, he, hi, hp⟩, hc⟩
    exact ⟨request, hl, he, i, hi, hp, hc⟩

theorem revokeSignature_eq_ok :
    revokeSignature requestId signerAddress c = .ok u c' ↔
      ∃ request i, c.requests.lookup requestId = some request ∧
        request.signers.findIdx? (·.address == signerAddress) = some i ∧
        c' = c.setRequest requestId (request.change i SignerInfo.revoke) := by
  simp only [revokeSignature, getOrThrowRequest_bind_eq_ok, orThrow_lift_bind_eq_ok, changeSigner_bind_eq_ok]
  constructor
  · rintro ⟨request, hl, i, hi, hc⟩
    exact ⟨request, i, hl, hi, hc⟩
  · rintro ⟨request, i, hl, hi, hc⟩
    exact ⟨request, hl, i, hi, hc⟩

theorem createPayloadForSigning_eq_ok {now : Int} {nonce : String} {role : SignerRole}
    {payload : SignaturePayload} : createPayloadForSigning now nonce requestId role c = .ok payload c' ↔
      ∃ request, c.requests.lookup requestId = some request ∧ c = c' ∧
        payload = ⟨request.operationId, policyId request.policy, role, now, nonce⟩ := by
  simp only [createPayloadForSigning, getOrThrowRequest_bind_eq_ok, Method.pure_eq_ok]
  constructor
  · rintro ⟨request, hl, rfl, hc⟩
    exact ⟨request, hl, hc, rfl⟩
  · rintro ⟨request, hl, hc, rfl⟩
    exact ⟨request, hl, rfl, hc⟩

/-- A method that throws leaves the coordinator as it was. -/
theorem atomic_addSigner (role : SignerRole) : Method.Atomic (addSigner requestId signerAddress role) :=
  (readOnly_getOrThrowRequest _).bind_atomic fun _ => (Method.readOnly_lift _).bind_atomic fun _ =>
    (Method.readOnly_lift _).bind_atomic fun _ => Method.atomic_modify_pure _ _

theorem atomic_recordSignature (now later : Int) (signature : SignaturePayload) :
    Method.Atomic (recordSignature now later requestId signature signerAddress) :=
  (readOnly_getOrThrowRequest _).bind_atomic fun _ => (Method.readOnly_lift _).bind_atomic fun _ =>
    (Method.readOnly_lift _).bind_atomic fun _ => (Method.readOnly_lift _).bind_atomic fun _ =>
      Method.readOnly_get.bind_atomic fun _ => (Method.readOnly_lift _).bind_atomic fun _ _ _ _ h => nomatch h

theorem atomic_recordRejection (now later : Int) (reason : String) :
    Method.Atomic (recordRejection now later requestId signerAddress reason) :=
  (readOnly_getOrThrowRequest _).bind_atomic fun _ => (Method.readOnly_lift _).bind_atomic fun _ =>
    (Method.readOnly_lift _).bind_atomic fun _ => (Method.readOnly_lift _).bind_atomic fun _ =>
      Method.atomic_modify_pure _ _

theorem atomic_revokeSignature : Method.Atomic (revokeSignature requestId signerAddress) :=
  (readOnly_getOrThrowRequest _).bind_atomic fun _ => (Method.readOnly_lift _).bind_atomic fun _ =>
    Method.atomic_modify_pure _ _

end Methods

end ZkPayroll.Authorization
