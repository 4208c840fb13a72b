import ZkPayroll.Authorization.MultiSignerCoordinator
import ZkPayroll.Framework.Transition

/-!
# Runs of the coordinator

A run is any sequence of calls, each with its own readings of the clock and its
own random texts. A `World` is the coordinator together with what happened: the
actions of the signers, and the payloads that were created and counted.
`reachable_requests` is the induction over runs for what holds of a request and
the latest actions of its signers.
-/

namespace ZkPayroll.Authorization

open Framework
open Sessions (SignerRole)

/-! ## Worlds -/

/-- A signer, by its place in a request, has signed, rejected or been revoked. -/
structure Action where
  requestId : String
  signer : Nat
  state : SignerState
  deriving DecidableEq

/-- A payload that was created for a request. -/
structure Issue where
  operationId : String
  policy : AuthorizationPolicy
  payload : SignaturePayload
  deriving DecidableEq

/-- A payload that a request has counted, and the payloads created before. -/
structure Recording where
  requestId : String
  signerAddress : String
  operationId : String
  policy : AuthorizationPolicy
  payload : SignaturePayload
  issued : List Issue
  deriving DecidableEq

/-- The coordinator, and what happened so far, the latest first. -/
structure World where
  coordinator : Coordinator
  actions : List Action := []
  issued : List Issue := []
  recorded : List Recording := []

/-- The latest action of a signer of a request. -/
def latestAction (actions : List Action) (requestId : String) (i : Nat) : Option SignerState :=
  (actions.find? fun a => a.requestId == requestId && a.signer == i).map Action.state

/-- A call of the coordinator. -/
inductive Operation where
  | createAuthorizationRequest (now : Int) (generatedId operationId : String) (policy : AuthorizationPolicy)
      (signerRoles : List SignerRole)
  | addSigner (requestId signerAddress : String) (role : SignerRole)
  | recordSignature (now later : Int) (requestId : String) (signature : SignaturePayload)
      (signerAddress : String)
  | recordRejection (now later : Int) (requestId signerAddress reason : String)
  | revokeSignature (requestId signerAddress : String)
  | createPayloadForSigning (now : Int) (nonce requestId : String) (signerRole : SignerRole)

/-- The request with the id, and the place of its first signer of which `p`
holds. -/
def Coordinator.signer (c : Coordinator) (requestId : String) (p : SignerInfo → Bool) :
    Option (AuthorizationRequest × Nat) :=
  (c.requests.lookup requestId).bind fun request => (request.signers.findIdx? p).map fun i => (request, i)

/-- The actions after one more. -/
def World.act (w : World) (requestId : String) (p : SignerInfo → Bool) (state : SignerState) : List Action :=
  (w.coordinator.signer requestId p).toList.map (fun s => ⟨requestId, s.2, state⟩) ++ w.actions

/-- What the call does to the world. -/
def Operation.run (w : World) : Operation → World
  | .createAuthorizationRequest now generatedId operationId policy signerRoles =>
    { w with
      coordinator := (Authorization.createAuthorizationRequest now generatedId operationId policy
        signerRoles).after w.coordinator
      -- the signers of a new request have not acted
      actions := w.actions.filter (·.requestId ≠ generatedId) }
  | .addSigner requestId signerAddress role =>
    { w with coordinator := (Authorization.addSigner requestId signerAddress role).after w.coordinator }
  | .recordSignature now later requestId signature signerAddress =>
    let p := SignerInfo.isFor signerAddress signature.signerRole
    match Authorization.recordSignature now later requestId signature signerAddress w.coordinator with
    | .ok _ c =>
      { w with
        coordinator := c
        actions := w.act requestId p .signed
        recorded := (w.coordinator.signer requestId p).toList.map (fun s =>
          ⟨requestId, signerAddress, s.1.operationId, s.1.policy, signature, w.issued⟩) ++ w.recorded }
    | .error _ c => { w with coordinator := c }
  | .recordRejection now later requestId signerAddress reason =>
    match Authorization.recordRejection now later requestId signerAddress reason w.coordinator with
    | .ok _ c =>
      { w with coordinator := c, actions := w.act requestId (·.address == signerAddress) .rejected }
    | .error _ c => { w with coordinator := c }
  | .revokeSignature requestId signerAddress =>
    match Authorization.revokeSignature requestId signerAddress w.coordinator with
    | .ok _ c =>
      { w with coordinator := c, actions := w.act requestId (·.address == signerAddress) .revoked }
    | .error _ c => { w with coordinator := c }
  | .createPayloadForSigning now nonce requestId signerRole =>
    match Authorization.createPayloadForSigning now nonce requestId signerRole w.coordinator with
    | .ok payload c =>
      { w with
        coordinator := c
        issued := (c.requests.lookup requestId).toList.map (fun request =>
          ⟨request.operationId, request.policy, payload⟩) ++ w.issued }
    | .error _ c => { w with coordinator := c }

/-- A new coordinator. -/
def Initial (w : World) : Prop :=
  w.coordinator.requests = [] ∧ w.coordinator.signerHistory = [] ∧ w.actions = [] ∧ w.issued = [] ∧
    w.recorded = []

/-- A call that meets the condition `ok`. -/
def Step (ok : World → Operation → Prop) (w w' : World) : Prop := ∃ op, ok w op ∧ w' = op.run w

/-- The worlds that runs reach whose calls all meet the condition `ok`. -/
def ReachableWorld (ok : World → Operation → Prop) (w : World) : Prop := Reachable Initial (Step ok) w

/-! ## What a call does -/

variable {request : AuthorizationRequest} {requestId : String} {c : Coordinator}

theorem Coordinator.signer_eq_some {p : SignerInfo → Bool}
    {i : Nat} (hl : c.requests.lookup requestId = some request)
    (hi : request.signers.findIdx? p = some i) : c.signer requestId p = some (request, i) := by
  rw [Coordinator.signer, hl, Option.bind_some, hi]
  rfl

/-- The request that a call creates. -/
def newRequest (c : Coordinator) (now : Int) (generatedId operationId : String) (policy : AuthorizationPolicy)
    (signerRoles : List SignerRole) : AuthorizationRequest where
  id := generatedId
  operationId := operationId
  policy := policy
  signers := signerRoles.map fun role => { address := "", role := role, state := .pending }
  createdAt := now
  expiresAt := now + policy.expiryMs.getD c.maxExpiryMs

section Calls

variable {w : World} {requestId signerAddress : String}

theorem run_createAuthorizationRequest (now : Int) (generatedId operationId : String)
    (policy : AuthorizationPolicy) (signerRoles : List SignerRole) :
    (Operation.createAuthorizationRequest now generatedId operationId policy signerRoles).run w =
      { w with
        coordinator := w.coordinator.setRequest generatedId
          (newRequest w.coordinator now generatedId operationId policy signerRoles)
        actions := w.actions.filter (·.requestId ≠ generatedId) } := rfl

theorem run_addSigner (role : SignerRole) : (Operation.addSigner requestId signerAddress role).run w = w ∨
    ∃ request i, w.coordinator.requests.lookup requestId = some request ∧
      (Operation.addSigner requestId signerAddress role).run w =
        { w with coordinator := w.coordinator.setRequest requestId
                  (request.change i (SignerInfo.assign signerAddress)) } := by
  simp only [Operation.run]
  rcases (atomic_addSigner role).after_eq w.coordinator with hc | ⟨u, hc⟩
  · rw [hc]
    exact .inl rfl
  · obtain ⟨request, i, hl, -, -, heq⟩ := addSigner_eq_ok.mp hc
    exact .inr ⟨request, i, hl, by rw [heq]⟩

theorem run_recordSignature (now later : Int) (signature : SignaturePayload) :
    (Operation.recordSignature now later requestId signature signerAddress).run w = w ∨
    ∃ request i, MayAct now w.coordinator requestId (SignerInfo.isFor signerAddress signature.signerRole)
        request i ∧
      signature.nonce ∉ w.coordinator.history requestId signerAddress ∧
      (Operation.recordSignature now later requestId signature signerAddress).run w =
        { w with
          coordinator := (w.coordinator.addNonce requestId signerAddress signature.nonce).setRequest requestId
            (request.change i (SignerInfo.sign later))
          actions := ⟨requestId, i, .signed⟩ :: w.actions
          recorded := ⟨requestId, signerAddress, request.operationId, request.policy, signature, w.issued⟩ ::
            w.recorded } := by
  simp only [Operation.run]
  cases hc : recordSignature now later requestId signature signerAddress w.coordinator with
  | error e c =>
    rw [atomic_recordSignature now later signature _ _ _ hc]
    exact .inl rfl
  | ok u c =>
    obtain ⟨request, i, hmay, hn, heq⟩ := recordSignature_eq_ok.mp hc
    refine .inr ⟨request, i, hmay, hn, ?_⟩
    rw [heq, World.act, Coordinator.signer_eq_some hmay.found hmay.place]
    rfl

theorem run_recordRejection (now later : Int) (reason : String) :
    (Operation.recordRejection now later requestId signerAddress reason).run w = w ∨
    ∃ request i, MayAct now w.coordinator requestId (·.address == signerAddress) request i ∧
      (Operation.recordRejection now later requestId signerAddress reason).run w =
        { w with
          coordinator := w.coordinator.setRequest requestId (request.change i (SignerInfo.reject later reason))
          actions := ⟨requestId, i, .rejected⟩ :: w.actions } := by
  simp only [Operation.run]
  cases hc : recordRejection now later requestId signerAddress reason w.coordinator with
  | error e c =>
    rw [atomic_recordRejection now later reason _ _ _ hc]
    exact .inl rfl
  | ok u c =>
    obtain ⟨request, i, hmay, heq⟩ := recordRejection_eq_ok.mp hc
    refine .inr ⟨request, i, hmay, ?_⟩
    rw [heq, World.act, Coordinator.signer_eq_some hmay.found hmay.place]
    rfl

theorem run_revokeSignature : (Operation.revokeSignature requestId signerAddress).run w = w ∨
    ∃ request i, w.coordinator.requests.lookup requestId = some request ∧
      request.signers.findIdx? (·.address == signerAddress) = some i ∧
      (Operation.revokeSignature requestId signerAddress).run w =
        { w with
          coordinator := w.coordinator.setRequest requestId (request.change i SignerInfo.revoke)
          actions := ⟨requestId, i, .revoked⟩ :: w.actions } := by
  simp only [Operation.run]
  cases hc : revokeSignature requestId signerAddress w.coordinator with
  | error e c =>
    rw [atomic_revokeSignature _ _ _ hc]
    exact .inl rfl
  | ok u c =>
    obtain ⟨request, i, hl, hi, heq⟩ := revokeSignature_eq_ok.mp hc
    refine .inr ⟨request, i, hl, hi, ?_⟩
    rw [heq, World.act, Coordinator.signer_eq_some hl hi]
    rfl

theorem run_createPayloadForSigning (now : Int) (nonce : String) (role : SignerRole) :
    (Operation.createPayloadForSigning now nonce requestId role).run w = w ∨
    ∃ request, w.coordinator.requests.lookup requestId = some request ∧
      (Operation.createPayloadForSigning now nonce requestId role).run w =
        { w with issued := ⟨request.operationId, request.policy,
                  ⟨request.operationId, policyId request.policy, role, now, nonce⟩⟩ :: w.issued } := by
  simp only [Operation.run]
  cases hc : createPayloadForSigning now nonce requestId role w.coordinator with
  | error e c =>
    have hread : Method.ReadOnly (createPayloadForSigning now nonce requestId role) :=
      (readOnly_getOrThrowRequest _).bind fun _ s => .inl ⟨_, rfl⟩
    rcases hread w.coordinator with ⟨a, ha⟩ | ⟨e', he⟩
    · rw [ha] at hc
      cases hc
    · rw [he] at hc
      cases hc
      exact .inl rfl
  | ok payload c =>
    obtain ⟨request, hl, rfl, rfl⟩ := createPayloadForSigning_eq_ok.mp hc
    refine .inr ⟨request, hl, ?_⟩
    simp [hl]

end Calls

/-! ## The induction over runs -/

/-- An invariant `J` of a request and the latest actions of its signers:
creating a request establishes it, and calls that meet `ok` preserve it. -/
structure Preserved (ok : World → Operation → Prop)
    (J : AuthorizationRequest → (Nat → Option SignerState) → Prop) : Prop where
  create {w : World} {now : Int} {generatedId operationId : String} {policy : AuthorizationPolicy}
    {signerRoles : List SignerRole} :
    ok w (.createAuthorizationRequest now generatedId operationId policy signerRoles) →
    J (newRequest w.coordinator now generatedId operationId policy signerRoles) fun _ => none
  assign {request : AuthorizationRequest} {latest : Nat → Option SignerState} {i : Nat}
    {signerAddress : String} : J request latest → J (request.change i (SignerInfo.assign signerAddress)) latest
  sign {w : World} {now later : Int} {requestId signerAddress : String} {signature : SignaturePayload}
    {request : AuthorizationRequest} {latest : Nat → Option SignerState} {i : Nat} :
    ok w (.recordSignature now later requestId signature signerAddress) →
    MayAct now w.coordinator requestId (SignerInfo.isFor signerAddress signature.signerRole) request i →
    J request latest →
    J (request.change i (SignerInfo.sign later)) (Function.update latest i (some .signed))
  reject {w : World} {now later : Int} {requestId signerAddress reason : String}
    {request : AuthorizationRequest} {latest : Nat → Option SignerState} {i : Nat} :
    ok w (.recordRejection now later requestId signerAddress reason) →
    MayAct now w.coordinator requestId (·.address == signerAddress) request i → J request latest →
    J (request.change i (SignerInfo.reject later reason)) (Function.update latest i (some .rejected))
  revoke {w : World} {requestId signerAddress : String} {request : AuthorizationRequest}
    {latest : Nat → Option SignerState} {i : Nat} : ok w (.revokeSignature requestId signerAddress) →
    w.coordinator.requests.lookup requestId = some request →
    request.signers.findIdx? (·.address == signerAddress) = some i → J request latest →
    J (request.change i SignerInfo.revoke) (Function.update latest i (some .revoked))

/-- `J` holds of every request and the latest actions of its signers. -/
def AllRequests (J : AuthorizationRequest → (Nat → Option SignerState) → Prop) (w : World) : Prop :=
  ∀ requestId request, w.coordinator.requests.lookup requestId = some request →
    J request (latestAction w.actions requestId)

variable {actions : List Action}

theorem latestAction_cons {requestId id : String} {i : Nat} {state : SignerState} :
    latestAction (⟨requestId, i, state⟩ :: actions) id =
      if id = requestId then Function.update (latestAction actions id) i (some state)
      else latestAction actions id := by
  funext j
  by_cases hmatch : requestId = id ∧ i = j
  · obtain ⟨rfl, rfl⟩ := hmatch
    rw [latestAction, List.find?_cons_of_pos (by simp), if_pos rfl, Function.update_self]
    rfl
  · rw [latestAction, List.find?_cons_of_neg (by simpa using hmatch), ← latestAction]
    split
    · rename_i hid
      have hj : j ≠ i := fun h => hmatch ⟨hid.symm, h.symm⟩
      rw [Function.update_of_ne hj]
    · rfl

theorem latestAction_filter {requestId id : String} :
    latestAction (actions.filter (·.requestId ≠ requestId)) id =
      if id = requestId then fun _ => none else latestAction actions id := by
  funext j
  rw [latestAction, List.find?_filter]
  split
  · rename_i hid
    rw [List.find?_eq_none.mpr fun a _ => by simpa [hid] using fun h h' => absurd h' h]
    rfl
  · rename_i hid
    rw [latestAction]
    congr 2
    funext a
    by_cases ha : a.requestId = id
    · simp [ha, hid, beq_eq_decide]
    · simp [ha]

variable {J : AuthorizationRequest → (Nat → Option SignerState) → Prop}

/-- Changing one request keeps what holds of the others. -/
theorem AllRequests.set {w : World} (h : AllRequests J w) (hc : c.requests = w.coordinator.requests)
    (hJ : J request (latestAction actions requestId))
    (hother : ∀ id, id ≠ requestId → latestAction actions id = latestAction w.actions id) :
    AllRequests J { w with coordinator := c.setRequest requestId request, actions := actions } := by
  intro id r hl
  simp only [Coordinator.setRequest, lookup_setKey, hc] at hl
  split at hl
  · rename_i heq
    cases hl
    rw [heq]
    exact hJ
  · rename_i hne
    show J r (latestAction actions id)
    rw [hother id hne]
    exact h id r hl

/-- An action of a signer. -/
theorem AllRequests.act {w : World} (h : AllRequests J w)
    (hc : c.requests = w.coordinator.requests) {i : Nat} {state : SignerState}
    (hJ : J request (Function.update (latestAction w.actions requestId) i (some state))) :
    AllRequests J { w with
      coordinator := c.setRequest requestId request, actions := ⟨requestId, i, state⟩ :: w.actions } := by
  refine h.set hc ?_ fun id hid => ?_
  · rw [latestAction_cons, if_pos rfl]
    exact hJ
  · rw [latestAction_cons, if_neg hid]

variable {ok : World → Operation → Prop}

theorem allRequests_step (hJ : Preserved ok J) {w w' : World}
    (h : AllRequests J w) (hs : Step ok w w') : AllRequests J w' := by
  obtain ⟨op, hok, rfl⟩ := hs
  cases op with
  | createAuthorizationRequest now generatedId operationId policy signerRoles =>
    rw [run_createAuthorizationRequest]
    refine h.set rfl ?_ fun id hid => ?_
    · rw [latestAction_filter, if_pos rfl]
      exact hJ.create hok
    · rw [latestAction_filter, if_neg hid]
  | addSigner requestId signerAddress role =>
    rcases run_addSigner (w := w) role with hr | ⟨request, i, hl, hr⟩
    · rw [hr]
      exact h
    · rw [hr]
      exact h.set rfl (hJ.assign (h requestId request hl)) fun _ _ => rfl
  | recordSignature now later requestId signature signerAddress =>
    rcases run_recordSignature (w := w) now later signature with hr | ⟨request, i, hmay, -, hr⟩
    · rw [hr]
      exact h
    · rw [hr]
      have hact := h.act (c := w.coordinator.addNonce requestId signerAddress signature.nonce) rfl
        (hJ.sign hok hmay (h requestId request hmay.found))
      exact hact
  | recordRejection now later requestId signerAddress reason =>
    rcases run_recordRejection (w := w) now later reason with hr | ⟨request, i, hmay, hr⟩
    · rw [hr]
      exact h
    · rw [hr]
      exact h.act rfl (hJ.reject hok hmay (h requestId request hmay.found))
  | revokeSignature requestId signerAddress =>
    rcases run_revokeSignature (w := w) with hr | ⟨request, i, hl, hi, hr⟩
    · rw [hr]
      exact h
    · rw [hr]
      exact h.act rfl (hJ.revoke hok hl hi (h requestId request hl))
  | createPayloadForSigning now nonce requestId signerRole =>
    rcases run_createPayloadForSigning (w := w) now nonce signerRole with hr | ⟨request, -, hr⟩
    · rw [hr]
      exact h
    · rw [hr]
      exact h

theorem reachable_requests (hJ : Preserved ok J) {w : World}
    (h : ReachableWorld ok w) : AllRequests J w := by
  refine Reachable.invariant (I := AllRequests J) (fun w₀ hw requestId request hl => ?_)
    (fun _ _ hw hs => allRequests_step hJ hw hs) h
  rw [hw.1] at hl
  cases hl

/-! ## Runs on lists of calls -/

/-- The world after some calls on a new coordinator. -/
def runAll (ops : List Operation) : World := ops.foldl Operation.run { coordinator := {} }

theorem reachable_foldl {ok : World → Operation → Prop} : ∀ {ops : List Operation} {w : World},
    ReachableWorld ok w →
    (∀ pre op post, ops = pre ++ op :: post → ok (pre.foldl Operation.run w) op) →
    ReachableWorld ok (ops.foldl Operation.run w)
  | [], _, h, _ => h
  | op :: ops, w, h, hok => by
    have hop : ok w op := hok [] op ops rfl
    have hnext : ReachableWorld ok (op.run w) := Reachable.next h ⟨op, hop, rfl⟩
    rw [List.foldl_cons]
    refine reachable_foldl hnext fun pre o post heq => ?_
    exact hok (op :: pre) o post (by rw [heq, List.cons_append])

theorem reachable_concat {ops : List Operation} {op : Operation}
    (h : ReachableWorld ok (runAll ops)) (hop : ok (runAll ops) op) : ReachableWorld ok (runAll (ops ++ [op])) := by
  rw [runAll, List.foldl_concat]
  exact Reachable.next h ⟨op, hop, rfl⟩

theorem reachable_runAll (ops : List Operation) : ReachableWorld (fun _ _ => True) (runAll ops) :=
  reachable_foldl (Reachable.start ⟨rfl, rfl, rfl, rfl, rfl⟩) fun _ _ _ _ => trivial

end ZkPayroll.Authorization
