import Mathlib.Algebra.Order.Ring.Rat
import ZkPayroll.Core.Errors
import ZkPayroll.Framework.Guards
import ZkPayroll.Framework.JsArithmetic
import ZkPayroll.Framework.JsonKeys

/-!
# Quorum sessions

`QuorumSessionManager` of `sessions/QuorumSessionManager.ts`, each method as a
`Method` of the manager's state. What a method reads of the clock is its
argument `now`; where it reads the clock a second time, for a time that it
records, that reading is `later`. The metadata of a session is left out.
-/

namespace ZkPayroll.Sessions

open Framework ZkPayroll.Core

/-! ## Data -/

inductive SignerRole where
  | payroll_admin
  | treasury_operator
  | compliance_reviewer
  | emergency_approver
  deriving DecidableEq

def SignerRole.name : SignerRole → String
  | .payroll_admin => "payroll_admin"
  | .treasury_operator => "treasury_operator"
  | .compliance_reviewer => "compliance_reviewer"
  | .emergency_approver => "emergency_approver"

inductive SignerStateStatus where
  | pending
  | signed
  | rejected
  deriving DecidableEq

structure SignatureRecord where
  signerAddress : String
  role : SignerRole
  signatureHex : String
  signedAt : Int
  payloadHash : String
  nonce : String
  deriving DecidableEq

structure RejectionRecord where
  signerAddress : String
  role : SignerRole
  rejectedAt : Int
  reason : String
  deriving DecidableEq

structure SignerSlot where
  address : Option String := none
  role : SignerRole
  weight : Nat
  status : SignerStateStatus
  signature : Option SignatureRecord := none
  rejection : Option RejectionRecord := none
  deriving DecidableEq

/-- A number of signatures that is asked for. -/
structure Threshold where
  value : JsNumber ℚ
  /-- `${threshold}` -/
  text : String
  deriving DecidableEq

/-- A count as a threshold. -/
def Threshold.ofNat (n : Nat) : Threshold where
  value := .finite n
  text := toString n

/-- `threshold <= n` -/
def Threshold.metBy (threshold : Threshold) (n : Nat) : Bool := threshold.value.le (.finite (n : ℚ))

/-- `threshold > n` -/
def Threshold.exceeds (threshold : Threshold) (n : Nat) : Bool := JsNumber.lt (.finite (n : ℚ)) threshold.value

structure SignerSession where
  sessionId : String
  payrollRunId : String
  operationPayload : String
  payloadHash : String
  requiredRoles : List SignerRole
  threshold : Threshold
  signerSlots : List SignerSlot
  expiresAt : Int
  createdAt : Int
  isConsumed : Bool
  consumedAt : Option Int := none
  consumedTxHash : Option String := none
  /-- Indexed by `slotKey`. -/
  signatures : List (String × SignatureRecord)
  rejections : List (String × RejectionRecord)
  deriving DecidableEq

/-- `string | Record<string, unknown>`. -/
inductive OperationPayload (ν : Type) where
  | text (s : String)
  | object (fields : List (String × Json ν))

structure CreateSessionParams (ν : Type) where
  sessionId : Option String := none
  payrollRunId : String
  operationPayload : OperationPayload ν
  requiredRoles : List SignerRole
  threshold : Option Threshold := none
  ttlMs : Option Int := none
  expiresAt : Option Int := none
  assignedSigners : SignerRole → Option String := fun _ => none

structure AddSignatureParams (ν : Type) where
  signerAddress : String
  role : SignerRole
  signatureHex : String
  operationPayload : Option (OperationPayload ν) := none
  nonce : String
  timestamp : Option Int := none

structure SessionSubmissionPackage where
  sessionId : String
  payrollRunId : String
  operationPayload : String
  payloadHash : String
  signatures : List SignatureRecord
  threshold : Threshold
  signaturesCount : Nat
  submittedAt : Int
  deriving DecidableEq

/-- The fields of `QuorumSessionManager`. -/
structure Manager where
  sessions : List (String × SignerSession) := []
  usedNonces : List String := []
  defaultTtlMs : Int := 86400000
  maxTtlMs : Int := 604800000
  deriving DecidableEq

/-- `QuorumSessionError`. -/
def quorumSessionError (message code : String) : SdkError where
  kind := .zkPayroll
  name := "QuorumSessionError"
  message := message
  code := code

variable {ν : Type} [NumberFormat ν]

/-! ## The payload -/

/-- What `computePayloadHash` hashes. -/
def canonicalString : OperationPayload ν → String
  | .text s => s
  | .object fields => stringifySorted (.obj fields)

def computePayloadHash (sha256 : String → List UInt8) (payload : OperationPayload ν) : String :=
  String.ofList (hexEncode (sha256 (canonicalString payload)))

def rawPayload : OperationPayload ν → String
  | .text s => s
  | .object fields => stringify (.obj fields)

/-! ## Slots -/

/-- The key of a signer and a role in `signatures` and `rejections`. -/
def slotKey (signerAddress : String) (role : SignerRole) : String := signerAddress ++ ":" ++ role.name

/-- `!s.address || s.address === signerAddress`, for a slot of the role. -/
def SignerSlot.isFor (role : SignerRole) (signerAddress : String) (s : SignerSlot) : Bool :=
  s.role == role && (match s.address with
    | none => true
    | some a => a == "" || a == signerAddress)

/-- The slot that a signature is put in. -/
def SignerSlot.sign (signature : SignatureRecord) (s : SignerSlot) : SignerSlot :=
  { s with address := some signature.signerAddress, status := .signed, signature := some signature }

/-- The slot that a rejection is put in. -/
def SignerSlot.reject (rejection : RejectionRecord) (s : SignerSlot) : SignerSlot :=
  { s with address := some rejection.signerAddress, status := .rejected, rejection := some rejection }

/-- The signature in the session's record of signatures and in its slot. -/
def SignerSession.recordSignature (signature : SignatureRecord) (session : SignerSession) : SignerSession :=
  { session with
    signatures := setKey (slotKey signature.signerAddress signature.role) signature session.signatures
    signerSlots := modifyFirst (SignerSlot.isFor signature.role signature.signerAddress)
      (SignerSlot.sign signature) session.signerSlots }

/-- The rejection in the session's record of rejections and in its slot. -/
def SignerSession.recordRejection (rejection : RejectionRecord) (session : SignerSession) : SignerSession :=
  { session with
    rejections := setKey (slotKey rejection.signerAddress rejection.role) rejection session.rejections
    signerSlots := modifyFirst (SignerSlot.isFor rejection.role rejection.signerAddress)
      (SignerSlot.reject rejection) session.signerSlots }

def SignerSession.toPackage (now : Int) (session : SignerSession) : SessionSubmissionPackage where
  sessionId := session.sessionId
  payrollRunId := session.payrollRunId
  operationPayload := session.operationPayload
  payloadHash := session.payloadHash
  signatures := session.signatures.map Prod.snd
  threshold := session.threshold
  signaturesCount := session.signatures.length
  submittedAt := now

def SignerSession.consume (later : Int) (txHash : Option String) (session : SignerSession) : SignerSession :=
  { session with
    isConsumed := true
    consumedAt := some later
    consumedTxHash := (txHash.filter (· ≠ "")).or session.consumedTxHash }

/-! ## Methods -/

def getOrThrowSession (sessionId : String) : Method SdkError Manager SignerSession := do
  let m ← get
  orThrow (quorumSessionError ("Quorum session " ++ sessionId ++ " not found") "SESSION_NOT_FOUND")
    (m.sessions.lookup sessionId)

/-- The two checks that a session takes no more changes. -/
def assertSessionActive (now : Int) (session : SignerSession) : Except SdkError Unit := do
  throwIf session.isConsumed
    (quorumSessionError ("Session " ++ session.sessionId ++ " has already been consumed")
      "SESSION_ALREADY_CONSUMED")
  throwIf (now > session.expiresAt)
    (quorumSessionError ("Session " ++ session.sessionId ++ " has expired") "SESSION_EXPIRED")

/-- The assignments to the fields of a session that the map holds. -/
def setSession (sessionId : String) (session : SignerSession) : Method SdkError Manager PUnit :=
  modify fun m => { m with sessions := setKey sessionId session m.sessions }

/-- `createSession`; `generatedId` is what `generateSessionId` returns. -/
def createSession (sha256 : String → List UInt8) (now : Int) (generatedId : String)
    (params : CreateSessionParams ν) : Method SdkError Manager SignerSession := do
  throwIf (isBlank params.payrollRunId)
    (quorumSessionError "payrollRunId is required" "INVALID_SESSION_PARAMS")
  throwIf (params.requiredRoles = [])
    (quorumSessionError "At least one requiredRole must be specified" "INVALID_SESSION_PARAMS")
  let threshold := params.threshold.getD (.ofNat params.requiredRoles.length)
  throwIf (threshold.metBy 0 || threshold.exceeds params.requiredRoles.length)
    (quorumSessionError s!"Threshold must be between 1 and {params.requiredRoles.length}, got {threshold.text}"
      "INVALID_THRESHOLD")
  let m ← get
  let ttl := min (params.ttlMs.getD m.defaultTtlMs) m.maxTtlMs
  let expiresAt := params.expiresAt.getD (now + ttl)
  throwIf (expiresAt ≤ now)
    (quorumSessionError "Session expiry timestamp must be in the future" "INVALID_EXPIRY")
  let sessionId := params.sessionId.getD generatedId
  throwIf ((m.sessions.lookup sessionId).isSome)
    (quorumSessionError ("Session ID " ++ sessionId ++ " already exists") "DUPLICATE_SESSION_ID")
  let signerSlots := params.requiredRoles.map fun role =>
    { role := role, weight := 1, status := .pending, address := params.assignedSigners role : SignerSlot }
  let session : SignerSession :=
    { sessionId := sessionId
      payrollRunId := params.payrollRunId
      operationPayload := rawPayload params.operationPayload
      payloadHash := computePayloadHash sha256 params.operationPayload
      requiredRoles := params.requiredRoles
      threshold := threshold
      signerSlots := signerSlots
      expiresAt := expiresAt
      createdAt := now
      isConsumed := false
      signatures := []
      rejections := [] }
  setSession sessionId session
  return session

def AddSignatureParams.toRecord (params : AddSignatureParams ν) (later : Int) (payloadHash : String) :
    SignatureRecord where
  signerAddress := params.signerAddress
  role := params.role
  signatureHex := params.signatureHex
  signedAt := params.timestamp.getD later
  payloadHash := payloadHash
  nonce := params.nonce

/-- `applySignature`, the common body of `addSignature` and
`replaceSignature`. -/
def applySignature (sha256 : String → List UInt8) (now later : Int) (sessionId : String)
    (params : AddSignatureParams ν) (allowReplace : Bool) : Method SdkError Manager SignerSession := do
  let session ← getOrThrowSession sessionId
  assertSessionActive now session
  throwIf (isBlank params.signerAddress)
    (quorumSessionError "signerAddress is required" "INVALID_SIGNATURE_PARAMS")
  throwIf (isBlank params.signatureHex)
    (quorumSessionError "signatureHex is required" "INVALID_SIGNATURE_PARAMS")
  throwIf (isBlank params.nonce) (quorumSessionError "nonce is required" "INVALID_SIGNATURE_PARAMS")
  throwIf (params.role ∉ session.requiredRoles)
    (quorumSessionError ("Role '" ++ params.role.name ++ "' is not a required role for session " ++ sessionId)
      "ROLE_NOT_REQUIRED")
  throwIf (∃ payload ∈ params.operationPayload, computePayloadHash sha256 payload ≠ session.payloadHash)
    (quorumSessionError
      "Signature payload hash does not match session operation payload (stale or tampered payload)"
      "STALE_PAYLOAD_HASH")
  let m ← get
  throwIf (params.nonce ∈ m.usedNonces)
    (quorumSessionError ("Duplicate signature nonce detected: " ++ params.nonce) "DUPLICATE_NONCE")
  let key := slotKey params.signerAddress params.role
  throwIf ((session.signatures.lookup key).isSome ∧ ¬ allowReplace)
    (quorumSessionError ("Signature already exists for " ++ params.signerAddress ++ " with role '" ++
      params.role.name ++ "'. Use replaceSignature to update.") "DUPLICATE_SIGNATURE")
  throwIf (session.rejections.lookup key).isSome
    (quorumSessionError ("Cannot add signature for " ++ params.signerAddress ++ " as role '" ++
      params.role.name ++ "' has been explicitly rejected.") "REJECTED_SLOT")
  let session := session.recordSignature (params.toRecord later session.payloadHash)
  modify fun m => { m with usedNonces := m.usedNonces ++ [params.nonce] }
  setSession sessionId session
  return session

def addSignature (sha256 : String → List UInt8) (now later : Int) (sessionId : String)
    (params : AddSignatureParams ν) : Method SdkError Manager SignerSession :=
  applySignature sha256 now later sessionId params false

def replaceSignature (sha256 : String → List UInt8) (now later : Int) (sessionId : String)
    (params : AddSignatureParams ν) : Method SdkError Manager SignerSession :=
  applySignature sha256 now later sessionId params true

def rejectSession (now later : Int) (sessionId signerAddress : String) (role : SignerRole)
    (reason : String) : Method SdkError Manager SignerSession := do
  let session ← getOrThrowSession sessionId
  assertSessionActive now session
  throwIf (isBlank signerAddress)
    (quorumSessionError "signerAddress is required" "INVALID_REJECTION_PARAMS")
  throwIf (isBlank reason) (quorumSessionError "Rejection reason is required" "INVALID_REJECTION_PARAMS")
  throwIf (role ∉ session.requiredRoles)
    (quorumSessionError ("Role '" ++ role.name ++ "' is not a required role for session " ++ sessionId)
      "ROLE_NOT_REQUIRED")
  let session := session.recordRejection
    { signerAddress := signerAddress, role := role, rejectedAt := later, reason := reason }
  setSession sessionId session
  return session

def prepareSubmissionPackage (now : Int) (sessionId : String) :
    Method SdkError Manager SessionSubmissionPackage := do
  let session ← getOrThrowSession sessionId
  throwIf session.isConsumed
    (quorumSessionError ("Session " ++ sessionId ++ " has already been consumed") "SESSION_ALREADY_CONSUMED")
  throwIf (now > session.expiresAt)
    (quorumSessionError ("Session " ++ sessionId ++ " has expired") "SESSION_EXPIRED")
  let signaturesCount := session.signatures.length
  throwIf (session.threshold.exceeds signaturesCount)
    (quorumSessionError (s!"Quorum threshold not met: session has {signaturesCount} signatures, " ++
      s!"required threshold is {session.threshold.text}") "THRESHOLD_NOT_MET")
  return session.toPackage now

def markConsumed (now later : Int) (sessionId : String) (txHash : Option String) :
    Method SdkError Manager SignerSession := do
  let session ← getOrThrowSession sessionId
  throwIf session.isConsumed
    (quorumSessionError ("Session " ++ sessionId ++ " has already been consumed") "SESSION_ALREADY_CONSUMED")
  throwIf (now > session.expiresAt)
    (quorumSessionError ("Session " ++ sessionId ++ " has expired") "SESSION_EXPIRED")
  let session := session.consume later txHash
  setSession sessionId session
  return session

/-! ## What the methods do -/

theorem readOnly_getOrThrowSession (sessionId : String) : Method.ReadOnly (getOrThrowSession sessionId) :=
  Method.readOnly_get.bind fun _ => Method.readOnly_lift _

variable {m m' : Manager} {sessionId : String} {session : SignerSession}

theorem getOrThrowSession_eq_ok :
    getOrThrowSession sessionId m = .ok session m' ↔ m.sessions.lookup sessionId = some session ∧ m = m' := by
  rw [getOrThrowSession, Method.get_bind]
  cases m.sessions.lookup sessionId with
  | none => exact iff_of_false nofun nofun
  | some s =>
    change EStateM.Result.ok s m = .ok session m' ↔ _
    simp

theorem getOrThrowSession_bind_eq_ok {β : Type} {b : β}
    {f : SignerSession → Method SdkError Manager β} :
    (getOrThrowSession sessionId >>= f) m = .ok b m' ↔
      ∃ session, m.sessions.lookup sessionId = some session ∧ f session m = .ok b m' := by
  rw [(readOnly_getOrThrowSession sessionId).bind_eq_ok]
  simp only [getOrThrowSession_eq_ok, and_true]

variable {now : Int}

theorem assertSessionActive_eq_ok {u : Unit} :
    assertSessionActive now session = .ok u ↔ session.isConsumed = false ∧ now ≤ session.expiresAt := by
  rw [assertSessionActive, throwIf_bind_eq_ok, throwIf]
  split <;> simp_all

theorem assertSessionActive_bind_eq_ok {β : Type} {b : β} {f : Unit → Method SdkError Manager β} :
    ((liftM (assertSessionActive now session) : Method SdkError Manager Unit) >>= f) m = .ok b m' ↔
      (session.isConsumed = false ∧ now ≤ session.expiresAt) ∧ f () m = .ok b m' := by
  rw [Method.lift_bind_eq_ok]
  constructor
  · rintro ⟨u, hu, h⟩
    exact ⟨assertSessionActive_eq_ok.mp hu, h⟩
  · rintro ⟨ha, h⟩
    exact ⟨(), assertSessionActive_eq_ok.mpr ha, h⟩

/-- The checks of `applySignature` before that of the payload. -/
structure SignatureParamsOk (now : Int) (session : SignerSession) (params : AddSignatureParams ν) : Prop where
  active : session.isConsumed = false
  unexpired : now ≤ session.expiresAt
  signerAddress : isBlank params.signerAddress = false
  signatureHex : isBlank params.signatureHex = false
  nonce : isBlank params.nonce = false
  role : params.role ∈ session.requiredRoles

/-- The checks of `applySignature`. -/
structure SignatureOk (sha256 : String → List UInt8) (now : Int) (m : Manager) (session : SignerSession)
    (params : AddSignatureParams ν) (allowReplace : Bool) : Prop extends
    SignatureParamsOk now session params where
  payload : ∀ p ∈ params.operationPayload, computePayloadHash sha256 p = session.payloadHash
  unused : params.nonce ∉ m.usedNonces
  new : (session.signatures.lookup (slotKey params.signerAddress params.role)).isSome → allowReplace = true
  unrejected : session.rejections.lookup (slotKey params.signerAddress params.role) = none

variable {session' : SignerSession}

theorem applySignature_eq_ok {sha256 : String → List UInt8} {now later : Int}
    {params : AddSignatureParams ν} {allowReplace : Bool} :
    applySignature sha256 now later sessionId params allowReplace m = .ok session' m' ↔
      ∃ session, m.sessions.lookup sessionId = some session ∧
        SignatureOk sha256 now m session params allowReplace ∧
        session' = session.recordSignature (params.toRecord later session.payloadHash) ∧
        m' = { m with
          sessions := setKey sessionId session' m.sessions
          usedNonces := m.usedNonces ++ [params.nonce] } := by
  simp only [applySignature, getOrThrowSession_bind_eq_ok, assertSessionActive_bind_eq_ok,
    Method.throwIf_bind_eq_ok, Method.get_bind, Method.modify_bind, setSession, Method.pure_eq_ok,
    Bool.not_eq_true, Bool.not_eq_false, not_not, not_exists, not_and, Option.isSome_eq_false_iff,
    Option.isNone_iff_eq_none, ne_eq]
  constructor
  · rintro ⟨session, hs, ⟨hc, he⟩, h₁, h₂, h₃, h₄, h₅, h₆, h₇, h₈, rfl, rfl⟩
    exact ⟨session, hs, ⟨⟨hc, he, h₁, h₂, h₃, h₄⟩, h₅, h₆, h₇, h₈⟩, rfl, rfl⟩
  · rintro ⟨session, hs, ⟨⟨hc, he, h₁, h₂, h₃, h₄⟩, h₅, h₆, h₇, h₈⟩, rfl, rfl⟩
    exact ⟨session, hs, ⟨hc, he⟩, h₁, h₂, h₃, h₄, h₅, h₆, h₇, h₈, rfl, rfl⟩

/-- The checks of `rejectSession`. -/
structure RejectionOk (now : Int) (session : SignerSession) (signerAddress : String) (role : SignerRole)
    (reason : String) : Prop where
  active : session.isConsumed = false
  unexpired : now ≤ session.expiresAt
  signerAddress : isBlank signerAddress = false
  reason : isBlank reason = false
  role : role ∈ session.requiredRoles

theorem rejectSession_eq_ok {now later : Int} {sessionId signerAddress reason : String} {role : SignerRole}
    :
    rejectSession now later sessionId signerAddress role reason m = .ok session' m' ↔
      ∃ session, m.sessions.lookup sessionId = some session ∧
        RejectionOk now session signerAddress role reason ∧
        session' = session.recordRejection
          { signerAddress := signerAddress, role := role, rejectedAt := later, reason := reason } ∧
        m' = { m with sessions := setKey sessionId session' m.sessions } := by
  simp only [rejectSession, getOrThrowSession_bind_eq_ok, assertSessionActive_bind_eq_ok,
    Method.throwIf_bind_eq_ok, Method.modify_bind, setSession, Method.pure_eq_ok, Bool.not_eq_true, not_not]
  constructor
  · rintro ⟨session, hs, ⟨hc, he⟩, h₁, h₂, h₃, rfl, rfl⟩
    exact ⟨session, hs, ⟨hc, he, h₁, h₂, h₃⟩, rfl, rfl⟩
  · rintro ⟨session, hs, ⟨hc, he, h₁, h₂, h₃⟩, rfl, rfl⟩
    exact ⟨session, hs, ⟨hc, he⟩, h₁, h₂, h₃, rfl, rfl⟩

theorem prepareSubmissionPackage_eq_ok {package : SessionSubmissionPackage} :
    prepareSubmissionPackage now sessionId m = .ok package m' ↔
      ∃ session, m.sessions.lookup sessionId = some session ∧ session.isConsumed = false ∧
        now ≤ session.expiresAt ∧ session.threshold.exceeds session.signatures.length = false ∧
        package = session.toPackage now ∧ m' = m := by
  simp only [prepareSubmissionPackage, getOrThrowSession_bind_eq_ok, Method.throwIf_bind_eq_ok,
    Method.pure_eq_ok, Bool.not_eq_true, not_lt]
  constructor
  · rintro ⟨session, hs, hc, he, ht, rfl, rfl⟩
    exact ⟨session, hs, hc, he, ht, rfl, rfl⟩
  · rintro ⟨session, hs, hc, he, ht, rfl, rfl⟩
    exact ⟨session, hs, hc, he, ht, rfl, rfl⟩

theorem markConsumed_eq_ok {now later : Int} {txHash : Option String} :
    markConsumed now later sessionId txHash m = .ok session' m' ↔
      ∃ session, m.sessions.lookup sessionId = some session ∧ session.isConsumed = false ∧
        now ≤ session.expiresAt ∧ session' = session.consume later txHash ∧
        m' = { m with sessions := setKey sessionId session' m.sessions } := by
  simp only [markConsumed, getOrThrowSession_bind_eq_ok, Method.throwIf_bind_eq_ok, Method.modify_bind,
    setSession, Method.pure_eq_ok, Bool.not_eq_true, not_lt]
  constructor
  · rintro ⟨session, hs, hc, he, rfl, rfl⟩
    exact ⟨session, hs, hc, he, rfl, rfl⟩
  · rintro ⟨session, hs, hc, he, rfl, rfl⟩
    exact ⟨session, hs, hc, he, rfl, rfl⟩

/-- The session that `createSession` makes. -/
theorem createSession_eq_ok {sha256 : String → List UInt8} {generatedId : String}
    {params : CreateSessionParams ν}
    (h : createSession sha256 now generatedId params m = .ok session m') :
    m.sessions.lookup session.sessionId = none ∧
      m' = { m with sessions := setKey session.sessionId session m.sessions } ∧
      session.payloadHash = computePayloadHash sha256 params.operationPayload ∧
      session.requiredRoles = params.requiredRoles ∧
      session.signerSlots = params.requiredRoles.map (fun role =>
        { role := role, weight := 1, status := .pending, address := params.assignedSigners role }) ∧
      session.isConsumed = false ∧ session.signatures = [] ∧ session.rejections = [] ∧
      session.threshold = params.threshold.getD (.ofNat params.requiredRoles.length) := by
  simp only [createSession, Method.throwIf_bind_eq_ok, Method.get_bind, Method.modify_bind, setSession,
    Method.pure_eq_ok, Bool.not_eq_true, Option.isSome_eq_false_iff, Option.isNone_iff_eq_none] at h
  obtain ⟨-, -, -, -, hnew, rfl, rfl⟩ := h
  exact ⟨hnew, rfl, rfl, rfl, rfl, rfl, rfl, rfl, rfl⟩

/-! No method changes the manager and then throws. -/

theorem atomic_createSession (sha256 : String → List UInt8) (now : Int) (generatedId : String)
    (params : CreateSessionParams ν) : Method.Atomic (createSession sha256 now generatedId params) := by
  iterate 3 refine (Method.readOnly_lift _).bind_atomic fun _ => ?_
  refine Method.readOnly_get.bind_atomic fun m => ?_
  iterate 2 refine (Method.readOnly_lift _).bind_atomic fun _ => ?_
  exact Method.atomic_modify_pure _ _

theorem atomic_applySignature (sha256 : String → List UInt8) (now later : Int) (sessionId : String)
    (params : AddSignatureParams ν) (allowReplace : Bool) :
    Method.Atomic (applySignature sha256 now later sessionId params allowReplace) := by
  refine (readOnly_getOrThrowSession sessionId).bind_atomic fun session => ?_
  iterate 6 refine (Method.readOnly_lift _).bind_atomic fun _ => ?_
  refine Method.readOnly_get.bind_atomic fun m => ?_
  iterate 3 refine (Method.readOnly_lift _).bind_atomic fun _ => ?_
  exact fun _ _ _ h => nomatch h

theorem atomic_rejectSession (now later : Int) (sessionId signerAddress reason : String) (role : SignerRole) :
    Method.Atomic (rejectSession now later sessionId signerAddress role reason) := by
  refine (readOnly_getOrThrowSession sessionId).bind_atomic fun session => ?_
  iterate 4 refine (Method.readOnly_lift _).bind_atomic fun _ => ?_
  exact Method.atomic_modify_pure _ _

theorem atomic_prepareSubmissionPackage (now : Int) (sessionId : String) :
    Method.Atomic (prepareSubmissionPackage now sessionId) := by
  refine (readOnly_getOrThrowSession sessionId).bind_atomic fun session => ?_
  iterate 3 refine (Method.readOnly_lift _).bind_atomic fun _ => ?_
  exact fun _ _ _ h => nomatch h

theorem atomic_markConsumed (now later : Int) (sessionId : String) (txHash : Option String) :
    Method.Atomic (markConsumed now later sessionId txHash) := by
  refine (readOnly_getOrThrowSession sessionId).bind_atomic fun session => ?_
  iterate 2 refine (Method.readOnly_lift _).bind_atomic fun _ => ?_
  exact Method.atomic_modify_pure _ _

end ZkPayroll.Sessions
