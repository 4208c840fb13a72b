import ZkPayroll.Authorization.Approvals

/-!
# One address with several roles

`recordRejection` and `revokeSignature` act on the first slot of an address,
while `recordSignature` finds the slot by address and role. So a revocation
leaves the signatures of other slots (`revoke_clears_iff`), and after a rejection
the pending slots behind the first can no longer be rejected
(`rejection_leaves_iff`). A `Diary` is the coordinator together with the calls
that it has recorded, each with the request as the call found it; in runs that
revoke and reject only where the other slots of the address are not concerned
(`Separate`), both things go well in every state (`slots_handled`).
-/

namespace ZkPayroll.Authorization

open Framework
open Sessions (SignerRole)

/-! ## Slots -/

/-- The slot at a place of the request is one of the address. -/
def AuthorizationRequest.HasSlot (request : AuthorizationRequest) (signerAddress : String) (j : Nat) : Prop :=
  ∃ s, request.signers[j]? = some s ∧ s.address = signerAddress

/-- No slot of the address but the one at `i` has the state. -/
def OthersNot (request : AuthorizationRequest) (signerAddress : String) (i : Nat) (state : SignerState) : Prop :=
  ∀ j, j ≠ i → request.HasSlot signerAddress j → request.stateAt j ≠ some state

/-- Some call rejects the slot at `j`. -/
def Rejectable (c : Coordinator) (requestId signerAddress : String) (j : Nat) : Prop :=
  ∃ now later reason c' request', recordRejection now later requestId signerAddress reason c = .ok () c' ∧
    c'.requests.lookup requestId = some request' ∧ request'.stateAt j = some .rejected

/-- A revocation finds no other slot of the address signed, and a rejection no
other slot pending. -/
def Separate (c : Coordinator) : Operation → Prop
  | .revokeSignature requestId signerAddress => ∀ request i, c.requests.lookup requestId = some request →
      request.signers.findIdx? (·.address == signerAddress) = some i → OthersNot request signerAddress i .signed
  | .recordRejection now _ requestId signerAddress _ => ∀ request i,
      MayAct now c requestId (·.address == signerAddress) request i → OthersNot request signerAddress i .pending
  | _ => True

section Slots

variable {request : AuthorizationRequest} {requestId signerAddress : String} {i j : Nat}
  {f : SignerInfo → SignerInfo} {c c' : Coordinator}

theorem lookup_setRequest {id : String} : (c.setRequest requestId request).requests.lookup id =
    if id = requestId then some request else c.requests.lookup id := by
  rw [Coordinator.setRequest, lookup_setKey]

/-- What is found by its address has the address. -/
theorem hasSlot_of_findIdx (h : request.signers.findIdx? (·.address == signerAddress) = some i) :
    request.HasSlot signerAddress i := by
  obtain ⟨hlt, haddress, -⟩ := List.findIdx?_eq_some_iff_getElem.mp h
  exact ⟨_, List.getElem?_eq_getElem hlt, by simpa using haddress⟩

theorem stateAt_change_self {state : SignerState} (hf : ∀ s, (f s).state = state)
    (hi : request.HasSlot signerAddress i) : (request.change i f).stateAt i = some state := by
  obtain ⟨s, hs, -⟩ := hi
  rw [AuthorizationRequest.stateAt, change_getElem?, if_pos rfl, hs, Option.map_some, Option.map_some, hf]

theorem stateAt_change_of_ne (hj : j ≠ i) : (request.change i f).stateAt j = request.stateAt j := by
  rw [AuthorizationRequest.stateAt, change_getElem?, if_neg hj, AuthorizationRequest.stateAt]

theorem hasSlot_change (hf : ∀ s, (f s).address = s.address) :
    (request.change i f).HasSlot signerAddress j ↔ request.HasSlot signerAddress j := by
  unfold AuthorizationRequest.HasSlot
  rw [change_getElem?]
  split
  · cases request.signers[j]? with
    | none => simp
    | some s => simp [hf]
  · rfl

/-- The first slot of an address stays the first when its state changes. -/
theorem findIdx_change (hf : ∀ s, (f s).address = s.address) :
    (request.change i f).signers.findIdx? (·.address == signerAddress) =
      request.signers.findIdx? (·.address == signerAddress) := by
  have hmap : (request.change i f).signers.map SignerInfo.address = request.signers.map SignerInfo.address := by
    refine List.ext_getElem? fun j => ?_
    rw [List.getElem?_map, List.getElem?_map, change_getElem?]
    split
    · cases request.signers[j]? <;> simp [hf]
    · rfl
  have hfind : ∀ signers : List SignerInfo, signers.findIdx? (·.address == signerAddress) =
      (signers.map SignerInfo.address).findIdx? (· == signerAddress) := by
    intro signers
    rw [List.findIdx?_map]
    rfl
  rw [hfind, hfind, hmap]

/-! ## One call -/

theorem state_revoke (s : SignerInfo) : s.revoke.state = .revoked := rfl

theorem state_reject (later : Int) (reason : String) (s : SignerInfo) : (s.reject later reason).state = .rejected :=
  rfl

theorem address_revoke (s : SignerInfo) : s.revoke.address = s.address := rfl

theorem address_reject (later : Int) (reason : String) (s : SignerInfo) :
    (s.reject later reason).address = s.address := rfl

/-- A revocation leaves no signed slot of the address just where the first is
the only one that may be signed. -/
theorem revoke_clears_iff {u : Unit} (h : revokeSignature requestId signerAddress c = .ok u c') :
    (∀ request', c'.requests.lookup requestId = some request' → ∀ j, request'.HasSlot signerAddress j →
      request'.stateAt j ≠ some .signed) ↔ Separate c (.revokeSignature requestId signerAddress) := by
  obtain ⟨request, i, hl, hi, rfl⟩ := revokeSignature_eq_ok.mp h
  have hfirst : (request.change i SignerInfo.revoke).stateAt i = some .revoked :=
    stateAt_change_self state_revoke (hasSlot_of_findIdx hi)
  have hlookup : (c.setRequest requestId (request.change i SignerInfo.revoke)).requests.lookup requestId =
      some (request.change i SignerInfo.revoke) := by
    rw [lookup_setRequest, if_pos rfl]
  constructor
  · intro hclear found k hfound hk j hj hslot
    rw [hl] at hfound
    cases hfound
    rw [hi] at hk
    cases hk
    have hstate := hclear _ hlookup j ((hasSlot_change address_revoke).mpr hslot)
    rwa [stateAt_change_of_ne hj] at hstate
  · intro hseparate request' hrequest' j hslot
    rw [hlookup] at hrequest'
    cases hrequest'
    by_cases hj : j = i
    · rw [hj, hfirst]
      decide
    · rw [stateAt_change_of_ne hj]
      exact hseparate request i hl hi j hj ((hasSlot_change address_revoke).mp hslot)

/-- Only the first slot of an address is rejected, and only while it is
pending. -/
theorem pending_of_rejectable (h : Rejectable c requestId signerAddress j) {request : AuthorizationRequest}
    (hl : c.requests.lookup requestId = some request)
    (hi : request.signers.findIdx? (·.address == signerAddress) = some i) : request.stateAt i = some .pending := by
  obtain ⟨now, later, reason, c', request', hok, -⟩ := h
  obtain ⟨found, k, hmay, -⟩ := recordRejection_eq_ok.mp hok
  rw [hmay.found] at hl
  cases hl
  rw [hmay.place] at hi
  cases hi
  exact hmay.pending

theorem MayAct.unique {now : Int} {p : SignerInfo → Bool} {request' : AuthorizationRequest}
    (h : MayAct now c requestId p request i) (h' : MayAct now c requestId p request' j) :
    request' = request ∧ j = i := by
  have hfound := h.found
  rw [h'.found] at hfound
  cases hfound
  have hplace := h.place
  rw [h'.place] at hplace
  cases hplace
  exact ⟨rfl, rfl⟩

/-- A rejection leaves every pending slot of the address such that it can be
rejected just where there is none. -/
theorem rejection_leaves_iff {now later : Int} {reason : String} {u : Unit}
    (h : recordRejection now later requestId signerAddress reason c = .ok u c') :
    (∀ request', c'.requests.lookup requestId = some request' → ∀ j, request'.HasSlot signerAddress j →
      request'.stateAt j = some .pending → Rejectable c' requestId signerAddress j) ↔
      Separate c (.recordRejection now later requestId signerAddress reason) := by
  obtain ⟨request, i, hmay, rfl⟩ := recordRejection_eq_ok.mp h
  have hfirst : (request.change i (SignerInfo.reject later reason)).stateAt i = some .rejected :=
    stateAt_change_self (state_reject later reason) (hasSlot_of_findIdx hmay.place)
  have hlookup : (c.setRequest requestId (request.change i (SignerInfo.reject later reason))).requests.lookup
      requestId = some (request.change i (SignerInfo.reject later reason)) := by
    rw [lookup_setRequest, if_pos rfl]
  constructor
  · intro hleaves found k hfound j hj hslot hpending
    obtain ⟨rfl, rfl⟩ := hmay.unique hfound
    rw [← stateAt_change_of_ne (f := SignerInfo.reject later reason) hj] at hpending
    have hrejectable := hleaves _ hlookup j ((hasSlot_change (address_reject later reason)).mpr hslot) hpending
    -- the first slot of the address is rejected, so no call gets past it
    have hplace := (findIdx_change (i := k) (address_reject later reason)).trans hmay.place
    have hstill := pending_of_rejectable hrejectable hlookup hplace
    rw [hfirst] at hstill
    cases hstill
  · intro hseparate request' hrequest' j hslot hpending
    rw [hlookup] at hrequest'
    cases hrequest'
    by_cases hj : j = i
    · rw [hj, hfirst] at hpending
      cases hpending
    · rw [stateAt_change_of_ne hj] at hpending
      exact absurd hpending (hseparate request i hmay j hj ((hasSlot_change (address_reject later reason)).mp hslot))

end Slots

/-! ## Runs -/

/-- A call that was recorded, with the request as the call found it. -/
structure Call where
  requestId : String
  signerAddress : String
  state : SignerState
  found : AuthorizationRequest

/-- The coordinator and the calls that it has recorded, the latest first. -/
structure Diary where
  coordinator : Coordinator
  calls : List Call := []

/-- The diary after a call of a signer. -/
def Diary.record (d : Diary) (requestId signerAddress : String) (state : SignerState)
    (result : EStateM.Result String Coordinator Unit) : Diary :=
  match result with
  | .ok _ c =>
    { coordinator := c
      calls := (d.coordinator.requests.lookup requestId).toList.map (fun request =>
        ⟨requestId, signerAddress, state, request⟩) ++ d.calls }
  | .error _ c => { d with coordinator := c }

/-- A call is written down. -/
def Diary.step (d : Diary) : Operation → Diary
  | .createAuthorizationRequest now generatedId operationId policy signerRoles =>
    { coordinator := (Authorization.createAuthorizationRequest now generatedId operationId policy
        signerRoles).after d.coordinator
      -- nothing was recorded for a new request
      calls := d.calls.filter (·.requestId ≠ generatedId) }
  | .addSigner requestId signerAddress role =>
    { d with coordinator := (Authorization.addSigner requestId signerAddress role).after d.coordinator }
  | .recordSignature now later requestId signature signerAddress =>
    d.record requestId signerAddress .signed
      (Authorization.recordSignature now later requestId signature signerAddress d.coordinator)
  | .recordRejection now later requestId signerAddress reason =>
    d.record requestId signerAddress .rejected
      (Authorization.recordRejection now later requestId signerAddress reason d.coordinator)
  | .revokeSignature requestId signerAddress =>
    d.record requestId signerAddress .revoked (Authorization.revokeSignature requestId signerAddress d.coordinator)
  | .createPayloadForSigning now nonce requestId signerRole =>
    { d with coordinator := (Authorization.createPayloadForSigning now nonce requestId
        signerRole).after d.coordinator }

/-- The latest call that was recorded for an address of a request. -/
def latestCall (calls : List Call) (requestId signerAddress : String) : Option Call :=
  calls.find? fun call => call.requestId == requestId && call.signerAddress == signerAddress

/-- While the latest call for an address is a revocation, none of the slots that
it then had is signed; and every slot that an address had at a rejection and
that is still pending can be rejected. -/
structure SlotsHandled (d : Diary) : Prop where
  revoked : ∀ requestId signerAddress call request,
    latestCall d.calls requestId signerAddress = some call → call.state = .revoked →
    d.coordinator.requests.lookup requestId = some request → ∀ j, call.found.HasSlot signerAddress j →
    request.HasSlot signerAddress j → request.stateAt j ≠ some .signed
  rejected : ∀ call ∈ d.calls, call.state = .rejected → ∀ request,
    d.coordinator.requests.lookup call.requestId = some request → ∀ j, call.found.HasSlot call.signerAddress j →
    request.stateAt j = some .pending → Rejectable d.coordinator call.requestId call.signerAddress j

/-- The diaries that runs of a new coordinator reach, whose calls all meet the
condition `ok`. -/
def ReachableDiary (ok : Coordinator → Operation → Prop) (d : Diary) : Prop :=
  Reachable (fun d => d.coordinator.requests = [] ∧ d.coordinator.signerHistory = [] ∧ d.calls = [])
    (fun d d' => ∃ op, ok d.coordinator op ∧ d' = d.step op) d

/-! ## What a call does to the diary -/

/-- The effect of a call that meets `Separate` on requests and recorded calls. -/
inductive Effect (d d' : Diary) : Prop
  | none (hrequests : d'.coordinator.requests = d.coordinator.requests) (hcalls : d'.calls = d.calls)
  | created (requestId : String) (request : AuthorizationRequest)
      (hrequests : d'.coordinator.requests = setKey requestId request d.coordinator.requests)
      (hcalls : d'.calls = d.calls.filter (·.requestId ≠ requestId))
  | assigned (requestId signerAddress : String) (request : AuthorizationRequest) (i : Nat)
      (hl : d.coordinator.requests.lookup requestId = some request)
      (hfree : ∀ s ∈ request.signers[i]?, s.address ≠ "" → s.address = signerAddress)
      (hrequests : d'.coordinator.requests =
        setKey requestId (request.change i (SignerInfo.assign signerAddress)) d.coordinator.requests)
      (hcalls : d'.calls = d.calls)
  | acted (requestId signerAddress : String) (state : SignerState) (request : AuthorizationRequest) (i : Nat)
      (f : SignerInfo → SignerInfo) (hl : d.coordinator.requests.lookup requestId = some request)
      (hslot : request.HasSlot signerAddress i) (hf : ∀ s, (f s).state = state) (hstate : state ≠ .pending)
      (haddress : ∀ s, (f s).address = s.address)
      (hrevoked : state = .revoked → OthersNot request signerAddress i .signed)
      (hrejected : state = .rejected → OthersNot request signerAddress i .pending)
      (hrequests : d'.coordinator.requests = setKey requestId (request.change i f) d.coordinator.requests)
      (hcalls : d'.calls = ⟨requestId, signerAddress, state, request⟩ :: d.calls)

variable {request : AuthorizationRequest} {signerAddress : String}

theorem hasSlot_of_isFor {role : SignerRole} {i : Nat}
    (h : request.signers.findIdx? (SignerInfo.isFor signerAddress role) = some i) :
    request.HasSlot signerAddress i := by
  obtain ⟨hlt, hfor, -⟩ := List.findIdx?_eq_some_iff_getElem.mp h
  simp only [SignerInfo.isFor, Bool.and_eq_true, beq_iff_eq] at hfor
  exact ⟨_, List.getElem?_eq_getElem hlt, hfor.1⟩

theorem effect_step {d : Diary} {op : Operation} (hok : Separate d.coordinator op) : Effect d (d.step op) := by
  cases op with
  | createAuthorizationRequest now generatedId operationId policy signerRoles =>
    exact .created generatedId (newRequest d.coordinator now generatedId operationId policy signerRoles) rfl rfl
  | addSigner requestId signerAddress role =>
    rcases (atomic_addSigner role).after_eq d.coordinator with hc | ⟨u, hc⟩
    · exact .none (congrArg Coordinator.requests hc) rfl
    · obtain ⟨request, i, hl, -, hfree, heq⟩ := addSigner_eq_ok.mp hc
      exact .assigned requestId signerAddress request i hl hfree (congrArg Coordinator.requests heq) rfl
  | recordSignature now later requestId signature signerAddress =>
    simp only [Diary.step]
    cases hc : recordSignature now later requestId signature signerAddress d.coordinator with
    | error e c =>
      have hsame := atomic_recordSignature now later signature _ _ _ hc
      exact .none (congrArg Coordinator.requests hsame) rfl
    | ok u c =>
      obtain ⟨request, i, hmay, -, rfl⟩ := recordSignature_eq_ok.mp hc
      refine .acted requestId signerAddress .signed request i (SignerInfo.sign later) hmay.found
        (hasSlot_of_isFor hmay.place) (fun _ => rfl) (by decide) (fun _ => rfl) nofun nofun rfl ?_
      simp [Diary.record, hmay.found]
  | recordRejection now later requestId signerAddress reason =>
    simp only [Diary.step]
    cases hc : recordRejection now later requestId signerAddress reason d.coordinator with
    | error e c =>
      have hsame := atomic_recordRejection now later reason _ _ _ hc
      exact .none (congrArg Coordinator.requests hsame) rfl
    | ok u c =>
      obtain ⟨request, i, hmay, rfl⟩ := recordRejection_eq_ok.mp hc
      refine .acted requestId signerAddress .rejected request i (SignerInfo.reject later reason) hmay.found
        (hasSlot_of_findIdx hmay.place) (fun _ => rfl) (by decide) (fun _ => rfl) nofun
        (fun _ => hok request i hmay) rfl ?_
      simp [Diary.record, hmay.found]
  | revokeSignature requestId signerAddress =>
    simp only [Diary.step]
    cases hc : revokeSignature requestId signerAddress d.coordinator with
    | error e c =>
      have hsame := atomic_revokeSignature _ _ _ hc
      exact .none (congrArg Coordinator.requests hsame) rfl
    | ok u c =>
      obtain ⟨request, i, hl, hi, rfl⟩ := revokeSignature_eq_ok.mp hc
      refine .acted requestId signerAddress .revoked request i SignerInfo.revoke hl (hasSlot_of_findIdx hi)
        (fun _ => rfl) (by decide) (fun _ => rfl) (fun _ => hok request i hl hi) nofun rfl ?_
      simp [Diary.record, hl]
  | createPayloadForSigning now nonce requestId signerRole =>
    have hread : Method.ReadOnly (createPayloadForSigning now nonce requestId signerRole) :=
      (readOnly_getOrThrowRequest _).bind fun _ s => .inl ⟨_, rfl⟩
    have hsame : (createPayloadForSigning now nonce requestId signerRole).after d.coordinator = d.coordinator := by
      unfold Method.after
      rcases hread d.coordinator with ⟨a, ha⟩ | ⟨e, he⟩
      · rw [ha]
      · rw [he]
    exact .none (congrArg Coordinator.requests hsame) rfl

/-! ## The invariant of runs -/

/-- Slots keep an address once they have one, and are never pending again. -/
def Evolved (r r' : AuthorizationRequest) : Prop :=
  ∀ (j : Nat) (s : SignerInfo), r.signers[j]? = some s →
    ∃ s' : SignerInfo, r'.signers[j]? = some s' ∧ (s.address ≠ "" → s'.address = s.address) ∧
    (s.state ≠ .pending → s'.state ≠ .pending)

theorem Evolved.refl (r : AuthorizationRequest) : Evolved r r := fun _ s hs => ⟨s, hs, fun _ => rfl, id⟩

theorem Evolved.trans {r r' r'' : AuthorizationRequest} (h : Evolved r r') (h' : Evolved r' r'') : Evolved r r'' := by
  intro j s hs
  obtain ⟨s', hs', haddress, hstate⟩ := h j s hs
  obtain ⟨s'', hs'', haddress', hstate'⟩ := h' j s' hs'
  refine ⟨s'', hs'', fun hne => ?_, fun hne => hstate' (hstate hne)⟩
  have hkept := haddress hne
  rw [haddress' (hkept ▸ hne), hkept]

variable {f : SignerInfo → SignerInfo}

theorem Evolved.change {r : AuthorizationRequest} {i : Nat}
    (h : ∀ s ∈ r.signers[i]?, (s.address ≠ "" → (f s).address = s.address) ∧
      (s.state ≠ .pending → (f s).state ≠ .pending)) : Evolved r (r.change i f) := by
  intro j s hs
  by_cases hj : j = i
  · subst hj
    exact ⟨f s, by rw [change_getElem?, if_pos rfl, hs, Option.map_some], h s hs⟩
  · exact ⟨s, by rw [change_getElem?, if_neg hj, hs], fun _ => rfl, id⟩

/-- A slot that is not pending stays so. -/
theorem Evolved.stateAt_ne {r r' : AuthorizationRequest} (h : Evolved r r') {j : Nat}
    (hslot : r.HasSlot signerAddress j) (hne : r.stateAt j ≠ some .pending) : r'.stateAt j ≠ some .pending := by
  obtain ⟨s, hs, -⟩ := hslot
  obtain ⟨s', hs', -, hstate⟩ := h j s hs
  rw [AuthorizationRequest.stateAt, hs, Option.map_some, ne_eq, Option.some.injEq] at hne
  rw [AuthorizationRequest.stateAt, hs', Option.map_some, ne_eq, Option.some.injEq]
  exact hstate hne

theorem Evolved.hasSlot {r r' : AuthorizationRequest} (h : Evolved r r') {j : Nat}
    (hne : signerAddress ≠ "") (hslot : r.HasSlot signerAddress j) : r'.HasSlot signerAddress j := by
  obtain ⟨s, hs, rfl⟩ := hslot
  obtain ⟨s', hs', haddress, -⟩ := h j s hs
  exact ⟨s', hs', haddress hne⟩

/-- What links the recorded calls to the requests. -/
structure DiaryInv (d : Diary) : Prop where
  evolved : ∀ call ∈ d.calls, ∀ request, d.coordinator.requests.lookup call.requestId = some request →
    Evolved call.found request
  revoked : ∀ requestId signerAddress call request,
    latestCall d.calls requestId signerAddress = some call → call.state = .revoked →
    d.coordinator.requests.lookup requestId = some request → ∀ j, call.found.HasSlot signerAddress j →
    request.HasSlot signerAddress j → request.stateAt j ≠ some .signed
  rejected : ∀ call ∈ d.calls, call.state = .rejected → ∀ request,
    d.coordinator.requests.lookup call.requestId = some request → ∀ j, call.found.HasSlot call.signerAddress j →
    request.stateAt j ≠ some .pending

variable {requestId signerAddress : String}

theorem mem_of_latestCall {calls : List Call} {call : Call}
    (h : latestCall calls requestId signerAddress = some call) :
    call ∈ calls ∧ call.requestId = requestId ∧ call.signerAddress = signerAddress := by
  have hfound := List.find?_some h
  simp only [Bool.and_eq_true, beq_iff_eq] at hfound
  exact ⟨List.mem_of_find?_eq_some h, hfound.1, hfound.2⟩

variable {d d' : Diary}

/-- The calls that are kept speak of requests that have only evolved. -/
theorem DiaryInv.kept (h : DiaryInv d) {call : Call} (hcall : call ∈ d.calls)
    (hbefore : ∀ request', d'.coordinator.requests.lookup call.requestId = some request' →
      ∃ request, d.coordinator.requests.lookup call.requestId = some request ∧ Evolved request request') :
    (∀ request', d'.coordinator.requests.lookup call.requestId = some request' → Evolved call.found request') ∧
      (call.state = .rejected → ∀ request', d'.coordinator.requests.lookup call.requestId = some request' →
        ∀ j, call.found.HasSlot call.signerAddress j → request'.stateAt j ≠ some .pending) := by
  refine ⟨fun request' hl' => ?_, fun hstate request' hl' j hslot => ?_⟩
  · obtain ⟨request, hl, hevolved⟩ := hbefore request' hl'
    exact (h.evolved call hcall request hl).trans hevolved
  · obtain ⟨request, hl, hevolved⟩ := hbefore request' hl'
    have hstill := h.rejected call hcall hstate request hl j hslot
    obtain ⟨s, hs, -⟩ := hslot
    obtain ⟨s', hs', -⟩ := h.evolved call hcall request hl j s hs
    exact hevolved.stateAt_ne ⟨s', hs', rfl⟩ hstill

/-- A request that is changed has evolved, and the others are as they were. -/
theorem evolved_setKey {requestId : String} {request request' : AuthorizationRequest}
    (hl : d.coordinator.requests.lookup requestId = some request) (hevolved : Evolved request request')
    (hrequests : d'.coordinator.requests = setKey requestId request' d.coordinator.requests) (id : String) :
    ∀ r', d'.coordinator.requests.lookup id = some r' →
      ∃ r, d.coordinator.requests.lookup id = some r ∧ Evolved r r' := by
  intro r' hr'
  rw [hrequests, lookup_setKey] at hr'
  split at hr'
  · rename_i hid
    cases hr'
    exact ⟨request, hid ▸ hl, hevolved⟩
  · exact ⟨r', hr', Evolved.refl r'⟩

/-- An assignment of an address. -/
theorem DiaryInv.assigned (h : DiaryInv d)
    {i : Nat} (hl : d.coordinator.requests.lookup requestId = some request)
    (hfree : ∀ s ∈ request.signers[i]?, s.address ≠ "" → s.address = signerAddress)
    (hrequests : d'.coordinator.requests =
      setKey requestId (request.change i (SignerInfo.assign signerAddress)) d.coordinator.requests)
    (hcalls : d'.calls = d.calls) : DiaryInv d' := by
  have hevolved : Evolved request (request.change i (SignerInfo.assign signerAddress)) :=
    Evolved.change fun s hs => ⟨fun hne => (hfree s hs hne).symm, id⟩
  have hbefore := evolved_setKey hl hevolved hrequests
  refine ⟨?_, ?_, ?_⟩
  · rw [hcalls]
    exact fun call hcall => (h.kept hcall (hbefore call.requestId)).1
  · intro id a call request' hlatest hstate hl' j hfound hslot
    rw [hcalls] at hlatest
    rw [hrequests, lookup_setKey] at hl'
    split at hl'
    · rename_i hid
      subst hid
      cases hl'
      obtain ⟨hcall, hcallId, -⟩ := mem_of_latestCall hlatest
      have hstateAt : (request.change i (SignerInfo.assign signerAddress)).stateAt j = request.stateAt j := by
        rw [AuthorizationRequest.stateAt, change_getElem?, AuthorizationRequest.stateAt]
        split
        · cases request.signers[j]? <;> rfl
        · rfl
      rw [hstateAt]
      refine h.revoked id a call request hlatest hstate hl j hfound ?_
      obtain ⟨s', hs', ha⟩ := hslot
      rw [change_getElem?] at hs'
      split at hs'
      · rename_i hj
        subst hj
        obtain ⟨s, hs, rfl⟩ := Option.map_eq_some_iff.mp hs'
        have ha : signerAddress = a := ha
        -- the slot had the address already when the call was recorded
        by_cases hempty : s.address = ""
        · by_cases hane : a = ""
          · exact ⟨s, hs, by rw [hempty, hane]⟩
          · exact (h.evolved call hcall request (hcallId ▸ hl)).hasSlot hane hfound
        · exact ⟨s, hs, (hfree s hs hempty).trans ha⟩
      · exact ⟨s', hs', ha⟩
    · exact h.revoked id a call request' hlatest hstate hl' j hfound hslot
  · rw [hcalls]
    exact fun call hcall => (h.kept hcall (hbefore call.requestId)).2

/-- After an act on the slot at `i`, no slot of the address has a state that the other slots do not have and that
is not the new one. -/
theorem OthersNot.change {i j : Nat}
    {state other : SignerState} (h : OthersNot request signerAddress i other)
    (hf : ∀ s, (f s).state = state) (hslot : request.HasSlot signerAddress i) (hstate : state ≠ other)
    (hj : request.HasSlot signerAddress j) : (request.change i f).stateAt j ≠ some other := by
  by_cases hji : j = i
  · rw [hji, stateAt_change_self hf hslot, ne_eq, Option.some.injEq]
    exact hstate
  · rw [stateAt_change_of_ne hji]
    exact h j hji hj

/-- The slots of another address are not acted on. -/
theorem stateAt_change_of_other {signerAddress a : String} {i j : Nat}
    (hslot : request.HasSlot signerAddress i) (hj : request.HasSlot a j)
    (hne : signerAddress ≠ a) : (request.change i f).stateAt j = request.stateAt j := by
  apply stateAt_change_of_ne
  intro hji
  rw [hji] at hj
  obtain ⟨s, hs, ha⟩ := hslot
  obtain ⟨s', hs', ha'⟩ := hj
  rw [hs] at hs'
  cases hs'
  exact hne (ha.symm.trans ha')

/-- The latest call for a request and an address is the first that is kept, if it is for them. -/
theorem latestCall_cons (call : Call) (calls : List Call) (requestId signerAddress : String) :
    latestCall (call :: calls) requestId signerAddress =
      if call.requestId = requestId ∧ call.signerAddress = signerAddress then some call
      else latestCall calls requestId signerAddress := by
  rw [latestCall, List.find?_cons]
  by_cases h : call.requestId = requestId ∧ call.signerAddress = signerAddress
  · rw [if_pos h, h.1, h.2, beq_self_eq_true, beq_self_eq_true]
    rfl
  · rw [if_neg h, show (call.requestId == requestId && call.signerAddress == signerAddress) = false by simpa using h]
    rfl

/-- A call of a signer. -/
theorem DiaryInv.acted (h : DiaryInv d) {state : SignerState} {i : Nat}
    (hl : d.coordinator.requests.lookup requestId = some request) (hslot : request.HasSlot signerAddress i)
    (hf : ∀ s, (f s).state = state) (hstate : state ≠ .pending) (haddress : ∀ s, (f s).address = s.address)
    (hrevoked : state = .revoked → OthersNot request signerAddress i .signed)
    (hrejected : state = .rejected → OthersNot request signerAddress i .pending)
    (hrequests : d'.coordinator.requests = setKey requestId (request.change i f) d.coordinator.requests)
    (hcalls : d'.calls = ⟨requestId, signerAddress, state, request⟩ :: d.calls) : DiaryInv d' := by
  have hevolved : Evolved request (request.change i f) :=
    Evolved.change fun s _ => ⟨fun _ => haddress s, fun _ => by rw [hf]; exact hstate⟩
  have hbefore := evolved_setKey hl hevolved hrequests
  have hlookup : d'.coordinator.requests.lookup requestId = some (request.change i f) := by
    rw [hrequests, lookup_setKey, if_pos rfl]
  refine ⟨?_, ?_, ?_⟩
  · rw [hcalls, List.forall_mem_cons]
    refine ⟨fun request' hl' => ?_, fun call hcall => (h.kept hcall (hbefore call.requestId)).1⟩
    rw [hlookup] at hl'
    cases hl'
    exact hevolved
  · intro id a call request' hlatest hrevokedCall hl' j hfound hslot'
    rw [hcalls, latestCall_cons] at hlatest
    split at hlatest
    · rename_i hmatch
      obtain ⟨rfl, rfl⟩ := hmatch
      cases hlatest
      rw [hlookup] at hl'
      cases hl'
      have hstate' : state ≠ .signed := by
        rw [show state = .revoked from hrevokedCall]
        decide
      exact (hrevoked hrevokedCall).change hf hslot hstate' hfound
    · rename_i hmatch
      have hold := h.revoked id a call
      by_cases hid : id = requestId
      · subst hid
        rw [hlookup] at hl'
        cases hl'
        have hslot'' := (hasSlot_change haddress).mp hslot'
        rw [stateAt_change_of_other hslot hslot'' fun ha => hmatch ⟨rfl, ha⟩]
        exact hold request hlatest hrevokedCall hl j hfound hslot''
      · rw [hrequests, lookup_setKey, if_neg hid] at hl'
        exact hold request' hlatest hrevokedCall hl' j hfound hslot'
  · rw [hcalls, List.forall_mem_cons]
    refine ⟨fun hrejectedCall request' hl' j hfound => ?_,
      fun call hcall => (h.kept hcall (hbefore call.requestId)).2⟩
    rw [hlookup] at hl'
    cases hl'
    exact (hrejected hrejectedCall).change hf hslot hstate hfound

theorem diaryInv_effect (h : DiaryInv d) (he : Effect d d') : DiaryInv d' := by
  cases he with
  | none hrequests hcalls =>
    refine ⟨?_, ?_, ?_⟩
    · rw [hcalls, hrequests]
      exact h.evolved
    · rw [hcalls, hrequests]
      exact h.revoked
    · rw [hcalls, hrequests]
      exact h.rejected
  | created requestId request hrequests hcalls =>
    -- of the calls that are left, none speaks of the new request
    have hother : ∀ call ∈ d'.calls, call ∈ d.calls ∧ call.requestId ≠ requestId := by
      intro call hcall
      rw [hcalls, List.mem_filter] at hcall
      simpa using hcall
    have hsame : ∀ id, id ≠ requestId →
        d'.coordinator.requests.lookup id = d.coordinator.requests.lookup id := by
      intro id hid
      rw [hrequests, lookup_setKey, if_neg hid]
    refine ⟨fun call hcall => ?_, fun id a call r hlatest hstate hl => ?_, fun call hcall hstate => ?_⟩
    · obtain ⟨hold, hid⟩ := hother call hcall
      rw [hsame _ hid]
      exact h.evolved call hold
    · obtain ⟨hcall, rfl, -⟩ := mem_of_latestCall hlatest
      obtain ⟨-, hid⟩ := hother call hcall
      rw [hsame _ hid] at hl
      refine h.revoked call.requestId a call r ?_ hstate hl
      rw [← hlatest, hcalls, latestCall, latestCall, List.find?_filter]
      congr 1
      funext c
      by_cases hc : c.requestId = call.requestId
      · simp [hc, hid, beq_eq_decide]
      · simp [hc]
    · obtain ⟨hold, hid⟩ := hother call hcall
      rw [hsame _ hid]
      exact h.rejected call hold hstate
  | assigned requestId signerAddress request i hl hfree hrequests hcalls =>
    exact h.assigned hl hfree hrequests hcalls
  | acted requestId signerAddress state request i f hl hslot hf hstate haddress hrevoked hrejected hrequests hcalls =>
    exact h.acted hl hslot hf hstate haddress hrevoked hrejected hrequests hcalls

/-- In runs whose revocations find no other slot of the address signed, and
whose rejections find no other pending, no signature is left after a revocation
and no pending slot is out of reach after a rejection. -/
theorem slots_handled {d : Diary} (h : ReachableDiary Separate d) : SlotsHandled d := by
  have hinv : DiaryInv d := by
    refine Reachable.invariant (I := DiaryInv) ?_ ?_ h
    · intro d₀ hstart
      obtain ⟨hrequests, -, hcalls⟩ := hstart
      exact ⟨by simp [hcalls], by simp [hcalls, latestCall], by simp [hcalls]⟩
    · intro d₁ d₂ hinv hstep
      obtain ⟨op, hok, rfl⟩ := hstep
      exact diaryInv_effect hinv (effect_step hok)
  exact ⟨hinv.revoked, fun call hcall hstate request hl j hslot hpending =>
    absurd hpending (hinv.rejected call hcall hstate request hl j hslot)⟩

/-! ## An address with two roles -/

/-- The diary after some calls on a new coordinator. -/
def diaryAfter (ops : List Operation) : Diary := ops.foldl Diary.step { coordinator := {} }

/-- Calls that meet the condition in every state. -/
theorem reachable_diaryAfter {ok : Coordinator → Operation → Prop} {ops : List Operation}
    (hok : ∀ op ∈ ops, ∀ c, ok c op) : ReachableDiary ok (diaryAfter ops) := by
  induction ops using List.reverseRecOn with
  | nil => exact Reachable.start ⟨rfl, rfl, rfl⟩
  | append_singleton ops op ih =>
    rw [diaryAfter, List.foldl_concat]
    refine Reachable.next (ih fun o ho => hok o (List.mem_append_left _ ho)) ⟨op, hok op (by simp) _, rfl⟩

/-- Both roles are those of one address. -/
def oneAddress : List Operation :=
  [.createAuthorizationRequest 0 "r" "op" ⟨.unanimous, [.payroll_admin, .treasury_operator], none, none, none⟩
      [.payroll_admin, .treasury_operator],
    .addSigner "r" "A" .payroll_admin,
    .addSigner "r" "A" .treasury_operator]

/-- It signs for both roles and is revoked. -/
def signsTwice : List Operation :=
  oneAddress ++ [.recordSignature 1 1 "r" (signature .payroll_admin) "A",
    .recordSignature 1 1 "r" { signature .treasury_operator with nonce := "m" } "A", .revokeSignature "r" "A"]

/-- It rejects once. -/
def rejectsOnce : List Operation := oneAddress ++ [.recordRejection 1 1 "r" "A" "no"]

/-- It signs for its first role. -/
def signsOnce : List Operation := oneAddress ++ [.recordSignature 1 1 "r" (signature .payroll_admin) "A"]

/-- The request that it has signed once. -/
def signedOnce : AuthorizationRequest where
  id := "r"
  operationId := "op"
  policy := ⟨.unanimous, [.payroll_admin, .treasury_operator], none, none, none⟩
  signers := [{ address := "A", role := .payroll_admin, state := .signed, signedAt := some 1 },
    { address := "A", role := .treasury_operator, state := .pending }]
  createdAt := 0
  expiresAt := 86400000

/-- A revocation with one signature of the address is one that goes well. -/
theorem signsOnce_handled : SlotsHandled (diaryAfter (signsOnce ++ [.revokeSignature "r" "A"])) := by
  have hbefore : ReachableDiary Separate (diaryAfter signsOnce) := by
    refine reachable_diaryAfter fun op hop c => ?_
    simp only [signsOnce, oneAddress, List.cons_append, List.nil_append, List.mem_cons, List.not_mem_nil,
      or_false] at hop
    rcases hop with rfl | rfl | rfl | rfl <;> trivial
  have hrequest : (diaryAfter signsOnce).coordinator.requests.lookup "r" = some signedOnce := by decide +kernel
  have hseparate : Separate (diaryAfter signsOnce).coordinator (.revokeSignature "r" "A") := by
    intro request i hl hi j hj _ hsigned
    rw [hrequest] at hl
    cases hl
    rw [show signedOnce.signers.findIdx? (·.address == "A") = some 0 by decide +kernel] at hi
    cases hi
    cases j with
    | zero => exact hj rfl
    | succ j =>
      cases j with
      | zero => cases hsigned
      | succ j => cases hsigned
  rw [diaryAfter, List.foldl_concat]
  exact slots_handled (Reachable.next hbefore ⟨_, hseparate, rfl⟩)

/-- The revocation leaves the second signature. -/
theorem signsTwice_not_handled : ¬ SlotsHandled (diaryAfter signsTwice) := by
  intro h
  have hcall : ∃ call, latestCall (diaryAfter signsTwice).calls "r" "A" = some call ∧ call.state = .revoked ∧
      call.found.HasSlot "A" 1 := ⟨_, rfl, rfl, _, rfl, rfl⟩
  have hrequest : ∃ request, (diaryAfter signsTwice).coordinator.requests.lookup "r" = some request ∧
      request.HasSlot "A" 1 ∧ request.stateAt 1 = some .signed := ⟨_, rfl, ⟨_, rfl, rfl⟩, rfl⟩
  obtain ⟨call, hlatest, hrevoked, hfound⟩ := hcall
  obtain ⟨request, hl, hslot, hsigned⟩ := hrequest
  exact h.revoked "r" "A" call request hlatest hrevoked hl 1 hfound hslot hsigned

/-- The rejection leaves a pending slot that cannot be rejected. -/
theorem rejectsOnce_not_handled : ¬ SlotsHandled (diaryAfter rejectsOnce) := by
  intro h
  have hcall : ∃ call ∈ (diaryAfter rejectsOnce).calls, call.requestId = "r" ∧ call.signerAddress = "A" ∧
      call.state = .rejected ∧ call.found.HasSlot "A" 1 :=
    ⟨_, List.mem_cons_self, rfl, rfl, rfl, _, rfl, rfl⟩
  have hrequest : ∃ request, (diaryAfter rejectsOnce).coordinator.requests.lookup "r" = some request ∧
      request.signers.findIdx? (·.address == "A") = some 0 ∧ request.stateAt 0 = some .rejected ∧
      request.stateAt 1 = some .pending := ⟨_, rfl, rfl, rfl, rfl⟩
  obtain ⟨call, hmem, hid, haddress, hrejected, hfound⟩ := hcall
  obtain ⟨request, hl, hplace, hfirst, hpending⟩ := hrequest
  have hrejectable := h.rejected call hmem hrejected request (hid ▸ hl) 1 (haddress ▸ hfound) hpending
  rw [hid, haddress] at hrejectable
  have hstill := pending_of_rejectable hrejectable hl hplace
  rw [hfirst] at hstill
  cases hstill

/-- Both happen in runs. -/
theorem second_slot_left :
    (ReachableDiary (fun _ _ => True) (diaryAfter signsTwice) ∧ ¬ SlotsHandled (diaryAfter signsTwice)) ∧
      ReachableDiary (fun _ _ => True) (diaryAfter rejectsOnce) ∧ ¬ SlotsHandled (diaryAfter rejectsOnce) :=
  ⟨⟨reachable_diaryAfter fun _ _ _ => trivial, signsTwice_not_handled⟩,
    reachable_diaryAfter fun _ _ _ => trivial, rejectsOnce_not_handled⟩

end ZkPayroll.Authorization
