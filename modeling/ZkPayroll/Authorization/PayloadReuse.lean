import ZkPayroll.Authorization.CoordinatorRuns

/-!
# Payloads of several requests

A payload that was created for a request should count for no request of another
operation or policy, and no nonce twice (`Bound`). The coordinator compares
neither, and keeps the nonces of each signer of a request apart, so that a
recording keeps this exactly when the payload and its nonce are not in use
elsewhere (`Fresh`, `bound_iff_fresh`).
-/

namespace ZkPayroll.Authorization

open Framework

/-- A payload counts where it was issued for, and a nonce once. -/
structure Bound (w : World) : Prop where
  own : ∀ r ∈ w.recorded, ∀ i ∈ r.issued, i.payload = r.payload →
    i.operationId = r.operationId ∧ i.policy = r.policy
  once : (w.recorded.map (·.payload.nonce)).Nodup

/-- A signature that the coordinator would take is over a payload that was
created for no other operation or policy, and whose nonce counts for no other
signer or request. -/
def Fresh (w : World) : Operation → Prop
  | .recordSignature now _ requestId signature signerAddress => ∀ request i,
      MayAct now w.coordinator requestId (SignerInfo.isFor signerAddress signature.signerRole) request i →
      signature.nonce ∉ w.coordinator.history requestId signerAddress →
      (∀ s ∈ w.issued, s.payload = signature →
        s.operationId = request.operationId ∧ s.policy = request.policy) ∧
      ∀ r ∈ w.recorded, r.payload.nonce = signature.nonce →
        r.requestId = requestId ∧ r.signerAddress = signerAddress
  | _ => True

/-- The nonces that count are in the histories of their signers. -/
def NoncesKept (w : World) : Prop :=
  ∀ r ∈ w.recorded, r.payload.nonce ∈ w.coordinator.history r.requestId r.signerAddress

/-! ## What each call preserves -/

theorem history_setRequest {c : Coordinator} {requestId : String} {request : AuthorizationRequest} :
    (c.setRequest requestId request).history = c.history := rfl

theorem mem_history_addNonce {c : Coordinator} {requestId signerAddress nonce id address n : String} :
    n ∈ (c.addNonce requestId signerAddress nonce).history id address ↔
      n ∈ c.history id address ∨ historyKey id address = historyKey requestId signerAddress ∧ n = nonce := by
  rw [Coordinator.history, Coordinator.addNonce, lookup_setKey]
  split
  · rename_i hkey
    rw [Option.getD_some, List.mem_append, List.mem_singleton, Coordinator.history, Coordinator.history, hkey]
    simp
  · rename_i hkey
    rw [← Coordinator.history]
    simp [hkey]

def Operation.records : Operation → Bool
  | .recordSignature .. => true
  | _ => false

/-- A call other than `recordSignature` counts nothing and forgets no nonce. -/
theorem run_recorded_of_not_records {w : World} {op : Operation} (hop : op.records = false) :
    (op.run w).recorded = w.recorded ∧ (op.run w).coordinator.history = w.coordinator.history := by
  cases op with
  | createAuthorizationRequest now generatedId operationId policy signerRoles => exact ⟨rfl, rfl⟩
  | addSigner requestId signerAddress role =>
    rcases run_addSigner (w := w) role with hr | ⟨request, i, -, hr⟩
    · rw [hr]
      exact ⟨rfl, rfl⟩
    · rw [hr]
      exact ⟨rfl, history_setRequest⟩
  | recordSignature now later requestId signature signerAddress => cases hop
  | recordRejection now later requestId signerAddress reason =>
    rcases run_recordRejection (w := w) now later reason with hr | ⟨request, i, -, hr⟩
    · rw [hr]
      exact ⟨rfl, rfl⟩
    · rw [hr]
      exact ⟨rfl, history_setRequest⟩
  | revokeSignature requestId signerAddress =>
    rcases run_revokeSignature (w := w) with hr | ⟨request, i, -, -, hr⟩
    · rw [hr]
      exact ⟨rfl, rfl⟩
    · rw [hr]
      exact ⟨rfl, history_setRequest⟩
  | createPayloadForSigning now nonce requestId signerRole =>
    rcases run_createPayloadForSigning (w := w) now nonce signerRole with hr | ⟨request, -, hr⟩
    · rw [hr]
      exact ⟨rfl, rfl⟩
    · rw [hr]
      exact ⟨rfl, rfl⟩

theorem noncesKept_next {w : World} (h : NoncesKept w) (op : Operation) : NoncesKept (op.run w) := by
  have hother (hr : (op.run w).recorded = w.recorded ∧
      (op.run w).coordinator.history = w.coordinator.history) : NoncesKept (op.run w) := by
    rw [NoncesKept, hr.1, hr.2]
    exact h
  cases op with
  | recordSignature now later requestId signature signerAddress =>
    rcases run_recordSignature (w := w) now later signature with hr | ⟨request, i, -, -, hr⟩
    · rw [hr]
      exact h
    · rw [hr]
      intro r hmem
      rw [history_setRequest, mem_history_addNonce]
      rcases List.mem_cons.mp hmem with rfl | hmem
      · exact .inr ⟨rfl, rfl⟩
      · exact .inl (h r hmem)
  | _ => exact hother (run_recorded_of_not_records rfl)

/-- A call keeps the payloads bound exactly when it is fresh. -/
theorem bound_next_iff {w : World} (hb : Bound w) (hn : NoncesKept w) (op : Operation) :
    Bound (op.run w) ↔ Fresh w op := by
  have hother (hr : (op.run w).recorded = w.recorded) : Bound (op.run w) :=
    ⟨by rw [hr]; exact hb.own, by rw [hr]; exact hb.once⟩
  cases op with
  | recordSignature now later requestId signature signerAddress =>
    rcases hresult : recordSignature now later requestId signature signerAddress w.coordinator with ⟨u, c⟩ | ⟨e, c⟩
    · obtain ⟨request, i, hmay, hnew, -⟩ := recordSignature_eq_ok.mp hresult
      have hr : ((Operation.recordSignature now later requestId signature signerAddress).run w).recorded =
          ⟨requestId, signerAddress, request.operationId, request.policy, signature, w.issued⟩ ::
            w.recorded := by
        simp only [Operation.run, hresult, Coordinator.signer_eq_some hmay.found hmay.place]
        rfl
      constructor
      · intro hbound request' i' hmay' _
        have hsame : request = request' := Option.some.inj (hmay.found.symm.trans hmay'.found)
        obtain ⟨hown, honce⟩ := hbound
        rw [hr] at hown honce
        refine ⟨fun s hs hp => hsame ▸ hown _ List.mem_cons_self s hs hp, fun r hrec heq => ?_⟩
        exact absurd (List.mem_map.mpr ⟨r, hrec, heq⟩) (List.nodup_cons.mp honce).1
      · intro hfresh
        obtain ⟨hown, honce⟩ := hfresh request i hmay hnew
        refine ⟨?_, ?_⟩
        · rw [hr]
          exact List.forall_mem_cons.mpr ⟨hown, hb.own⟩
        · rw [hr, List.map_cons, List.nodup_cons]
          refine ⟨fun hmem => ?_, hb.once⟩
          -- the history of this signer would have the nonce
          obtain ⟨r, hrec, heq⟩ := List.mem_map.mp hmem
          obtain ⟨hid, haddress⟩ := honce r hrec heq
          have hold := hn r hrec
          rw [hid, haddress, heq] at hold
          exact hnew hold
    · have hr : ((Operation.recordSignature now later requestId signature signerAddress).run w).recorded =
          w.recorded := by
        simp only [Operation.run, hresult]
      refine iff_of_true (hother hr) fun request i hmay hnew => ?_
      have hex : ∃ c', recordSignature now later requestId signature signerAddress w.coordinator = .ok () c' :=
        ⟨_, recordSignature_eq_ok.mpr ⟨request, i, hmay, hnew, rfl⟩⟩
      obtain ⟨c', hok⟩ := hex
      rw [hresult] at hok
      cases hok
  | _ => exact iff_of_true (hother (run_recorded_of_not_records rfl).1) trivial

/-- In fresh runs the payloads are bound, and the next call keeps them so
exactly when it is fresh. -/
theorem bound_iff_fresh {w : World} (h : ReachableWorld Fresh w) :
    Bound w ∧ ∀ op : Operation, Bound (op.run w) ↔ Fresh w op := by
  have hinv : Bound w ∧ NoncesKept w := by
    refine Reachable.invariant (I := fun w => Bound w ∧ NoncesKept w) (fun w₀ hw => ?_) (fun w₀ w₁ hw hs => ?_) h
    · obtain ⟨-, -, -, -, hrec⟩ := hw
      refine ⟨⟨?_, ?_⟩, ?_⟩
      · rw [hrec]
        exact List.forall_mem_nil _
      · rw [hrec]
        exact List.nodup_nil
      · rw [NoncesKept, hrec]
        exact List.forall_mem_nil _
    · obtain ⟨op, hop, rfl⟩ := hs
      exact ⟨(bound_next_iff hw.1 hw.2 op).mpr hop, noncesKept_next hw.2 op⟩
  exact ⟨hinv.1, bound_next_iff hinv.1 hinv.2⟩

/-! ## A payload of another request -/

def policyOf : AuthorizationPolicy := ⟨.unanimous, [.payroll_admin], none, none, none⟩

/-- Two requests of one signer, and a payload created for the first. -/
def twoRequests : List Operation :=
  [.createAuthorizationRequest 0 "r" "op" policyOf [.payroll_admin],
    .createAuthorizationRequest 0 "s" "other" policyOf [.payroll_admin],
    .addSigner "r" "A" .payroll_admin,
    .addSigner "s" "A" .payroll_admin,
    .createPayloadForSigning 0 "n" "r" .payroll_admin]

def payloadFor : SignaturePayload := ⟨"op", policyId policyOf, .payroll_admin, 0, "n"⟩

/-- The signer records it for a request. -/
def recordOn (requestId : String) : Operation := .recordSignature 1 1 requestId payloadFor "A"

theorem own_request_bound :
    (runAll (twoRequests ++ [recordOn "r"])).recorded.length = 1 ∧
      Bound (runAll (twoRequests ++ [recordOn "r"])) := by
  have hrequests : ReachableWorld Fresh (runAll twoRequests) := by
    refine reachable_foldl (Reachable.start ⟨rfl, rfl, rfl, rfl, rfl⟩) fun pre op post heq => ?_
    have hop : op ∈ twoRequests := heq ▸ by simp
    simp only [twoRequests, List.mem_cons, List.not_mem_nil, or_false] at hop
    rcases hop with rfl | rfl | rfl | rfl | rfl <;> trivial
  have hfresh : Fresh (runAll twoRequests) (recordOn "r") := by
    intro request i hmay _
    have hrequest : ((runAll twoRequests).coordinator.requests.lookup "r").map
        (fun r => (r.operationId, r.policy)) = some ("op", policyOf) := by decide +kernel
    have hissued : (runAll twoRequests).issued.map (fun s => (s.operationId, s.policy)) = [("op", policyOf)] := by
      decide +kernel
    have hrecorded : (runAll twoRequests).recorded = [] := by decide +kernel
    rw [hmay.found, Option.map_some] at hrequest
    rw [hrecorded]
    refine ⟨fun s hs _ => ?_, List.forall_mem_nil _⟩
    have hmem := List.mem_map_of_mem (f := fun s : Issue => (s.operationId, s.policy)) hs
    rw [hissued, List.mem_singleton, ← Option.some.inj hrequest, Prod.mk.injEq] at hmem
    exact hmem
  exact ⟨by decide +kernel, (bound_iff_fresh (reachable_concat hrequests hfresh)).1⟩

theorem other_request_counts : ¬ ∀ w, ReachableWorld (fun _ _ => True) w → Bound w := by
  intro h
  have hbound := h _ (reachable_runAll (twoRequests ++ [recordOn "s"]))
  have hforeign : ∃ r ∈ (runAll (twoRequests ++ [recordOn "s"])).recorded, ∃ i ∈ r.issued,
      i.payload = r.payload ∧ i.operationId ≠ r.operationId := by decide +kernel
  obtain ⟨r, hr, i, hi, hpayload, hne⟩ := hforeign
  exact hne (hbound.own r hr i hi hpayload).1

end ZkPayroll.Authorization
