import Mathlib.Algebra.Order.Ring.Int
import ZkPayroll.Authorization.CoordinatorRuns

/-!
# Approvals

An approval should rest on the signers whose latest action is a signature
(`ApprovalsSound`). It does in runs where a policy asks for some signature from
the start, and no rejection takes a required signer, or the last one, out of
the count of a unanimous policy (`Careful`, `approvals_rest_on_signatures`).
-/

namespace ZkPayroll.Authorization

open Framework
open Sessions (SignerRole)

/-! ## Sound approvals -/

/-- The signers whose latest action is a signature. -/
def signedLatest (latest : Nat → Option SignerState) (signers : List SignerInfo) : List SignerInfo :=
  (signers.zipIdx.filter fun s => latest s.2 = some .signed).map Prod.fst

/-- The policy holds over the signers whose latest action is a signature. -/
def PolicyMet (latest : Nat → Option SignerState) (request : AuthorizationRequest) : Prop :=
  match request.policy.type with
  | .unanimous => ∀ role ∈ request.policy.requiredRoles, role ∈ request.signers.map SignerInfo.role ∧
      ∀ i s, request.signers[i]? = some s → s.role = role → latest i = some .signed
  | .threshold => ∃ threshold, request.policy.threshold = some threshold ∧
      threshold ≤ (signedLatest latest request.signers).length
  | .weighted => ∃ weights, request.policy.weights = some weights ∧ 0 < weightOf weights request.signers ∧
      weightOf weights request.signers ≤ 2 * weightOf weights (signedLatest latest request.signers)

/-- Whatever is reported as approved has not expired, some signer has signed
it, and its policy is met. -/
def ApprovalsSound (w : World) : Prop :=
  ∀ now requestId status c, getAuthorizationStatus now requestId w.coordinator = .ok status c →
    status.isApproved = true → ∃ request, w.coordinator.requests.lookup requestId = some request ∧
      isExpired now request = false ∧ signedLatest (latestAction w.actions requestId) request.signers ≠ [] ∧
      PolicyMet (latestAction w.actions requestId) request

/-! ## Careful runs -/

/-- The policy is not met before anyone has signed. -/
def PolicyFits (policy : AuthorizationPolicy) (signerRoles : List SignerRole) : Prop :=
  match policy.type with
  | .unanimous => signerRoles ≠ [] ∧ policy.requiredRoles ⊆ signerRoles
  | .threshold => ∀ threshold ∈ policy.threshold, 0 ≤ threshold
  | .weighted => ∀ weights ∈ policy.weights,
      0 < (signerRoles.map fun role => (weights.lookup role).getD 0).sum

/-- A unanimous policy does without the signer that rejects: its role is not
required and another signer is left, or one is revoked for good. -/
def RejectionFits (request : AuthorizationRequest) (i : Nat) : Prop :=
  request.policy.type = .unanimous → (∃ s ∈ request.signers, s.state = .revoked) ∨
    (∀ s ∈ request.signers[i]?, s.role ∉ request.policy.requiredRoles) ∧
      ∃ j s, j ≠ i ∧ request.signers[j]? = some s ∧ s.state ≠ .rejected

/-- A new policy fits its roles, and a rejection its request. -/
def Careful (w : World) : Operation → Prop
  | .createAuthorizationRequest _ _ _ policy signerRoles => PolicyFits policy signerRoles
  | .recordRejection now _ requestId signerAddress _ => ∀ request i,
      MayAct now w.coordinator requestId (·.address == signerAddress) request i → RejectionFits request i
  | _ => True

/-! ## The invariant of a request -/

/-- The state of a signer is its latest action. -/
def Logged (request : AuthorizationRequest) (latest : Nat → Option SignerState) : Prop :=
  ∀ i s, request.signers[i]? = some s → s.state = (latest i).getD .pending

/-- No rejection counts for the unanimous policy, or a revoked signer keeps it
from being met. -/
def UnanimousKept (request : AuthorizationRequest) : Prop :=
  (∃ s ∈ request.signers, s.state = .revoked) ∨
    (∀ s ∈ request.signers, s.role ∈ request.policy.requiredRoles → s.state ≠ .rejected) ∧
      ∃ s ∈ request.signers, s.state ≠ .rejected

/-- What holds of a request, after the latest actions. -/
structure Kept (request : AuthorizationRequest) (latest : Nat → Option SignerState) : Prop where
  logged : Logged request latest
  fits : PolicyFits request.policy (request.signers.map SignerInfo.role)
  unanimous : request.policy.type = .unanimous → UnanimousKept request

section Change

variable {request : AuthorizationRequest} {latest : Nat → Option SignerState} {i : Nat}
  {f : SignerInfo → SignerInfo}

@[simp] theorem change_policy : (request.change i f).policy = request.policy := rfl

theorem change_getElem? {j : Nat} :
    (request.change i f).signers[j]? = if j = i then request.signers[j]?.map f else request.signers[j]? := by
  rw [AuthorizationRequest.change, List.getElem?_modify]
  by_cases h : i = j
  · simp [h]
  · simp [h, Ne.symm h]

theorem change_roles (hf : ∀ s, (f s).role = s.role) :
    (request.change i f).signers.map SignerInfo.role = request.signers.map SignerInfo.role := by
  refine List.ext_getElem? fun j => ?_
  rw [List.getElem?_map, List.getElem?_map, change_getElem?]
  split
  · cases request.signers[j]? with
    | none => rfl
    | some s => simp [hf]
  · rfl

theorem PolicyFits.change (h : PolicyFits request.policy (request.signers.map SignerInfo.role))
    (hf : ∀ s, (f s).role = s.role) :
    PolicyFits (request.change i f).policy ((request.change i f).signers.map SignerInfo.role) := by
  rw [change_policy, change_roles hf]
  exact h

variable {s : SignerInfo}

/-- A signer of the changed request is the changed one or another. -/
theorem mem_change (h : s ∈ (request.change i f).signers) :
    (∃ t, request.signers[i]? = some t ∧ s = f t) ∨ s ∈ request.signers := by
  obtain ⟨j, hj⟩ := List.mem_iff_getElem?.mp h
  rw [change_getElem?] at hj
  split at hj
  · rename_i hji
    obtain ⟨t, ht, rfl⟩ := Option.map_eq_some_iff.mp hj
    exact .inl ⟨t, hji ▸ ht, rfl⟩
  · exact .inr (List.mem_of_getElem? hj)

theorem mem_change_of_ne {j : Nat} (hs : request.signers[j]? = some s) (hj : j ≠ i) :
    s ∈ (request.change i f).signers := by
  refine List.mem_of_getElem? (i := j) ?_
  rw [change_getElem?, if_neg hj, hs]

theorem mem_change_self (hs : request.signers[i]? = some s) :
    f s ∈ (request.change i f).signers := by
  refine List.mem_of_getElem? (i := i) ?_
  rw [change_getElem?, if_pos rfl, hs]
  rfl

/-- A signer that is not pending keeps its state where a pending one acts. -/
theorem mem_change_of_pending (hs : s ∈ request.signers) (hp : request.stateAt i = some .pending)
    (hne : s.state ≠ .pending) : s ∈ (request.change i f).signers := by
  obtain ⟨j, hj⟩ := List.mem_iff_getElem?.mp hs
  refine mem_change_of_ne hj ?_
  rintro rfl
  rw [AuthorizationRequest.stateAt, hj] at hp
  exact hne (Option.some.inj hp)

theorem Logged.change (h : Logged request latest) {state : SignerState} (hf : ∀ s, (f s).state = state) :
    Logged (request.change i f) (Function.update latest i (some state)) := by
  intro j s hs
  rw [change_getElem?] at hs
  split at hs
  · rename_i hj
    obtain ⟨t, -, rfl⟩ := Option.map_eq_some_iff.mp hs
    rw [hf, hj, Function.update_self]
    rfl
  · rename_i hj
    rw [Function.update_of_ne hj]
    exact h j s hs

end Change

/-! ## What each call preserves -/

variable {request : AuthorizationRequest}

/-- An address is no state. -/
theorem UnanimousKept.assign (h : UnanimousKept request) (i : Nat)
    (signerAddress : String) : UnanimousKept (request.change i (SignerInfo.assign signerAddress)) := by
  have hstay {s : SignerInfo} (hs : s ∈ request.signers) :
      ∃ s' ∈ (request.change i (SignerInfo.assign signerAddress)).signers, s'.state = s.state := by
    obtain ⟨j, hj⟩ := List.mem_iff_getElem?.mp hs
    by_cases hji : j = i
    · exact ⟨_, mem_change_self (hji ▸ hj), rfl⟩
    · exact ⟨s, mem_change_of_ne hj hji, rfl⟩
  rcases h with ⟨s, hs, hr⟩ | ⟨hreq, s, hs, hne⟩
  · obtain ⟨s', hs', hstate⟩ := hstay hs
    exact .inl ⟨s', hs', hstate.trans hr⟩
  · obtain ⟨s', hs', hstate⟩ := hstay hs
    refine .inr ⟨fun t ht hrole => ?_, s', hs', hstate ▸ hne⟩
    rcases mem_change ht with ⟨u, hu, rfl⟩ | ht
    · exact hreq u (List.mem_of_getElem? hu) hrole
    · exact hreq t ht hrole

theorem UnanimousKept.sign (h : UnanimousKept request) {i : Nat} (later : Int)
    (hp : request.stateAt i = some .pending) : UnanimousKept (request.change i (SignerInfo.sign later)) := by
  rcases h with ⟨s, hs, hr⟩ | ⟨hreq, -⟩
  · exact .inl ⟨s, mem_change_of_pending hs hp (by rw [hr]; decide), hr⟩
  · obtain ⟨s, hs, -⟩ := Option.map_eq_some_iff.mp hp
    refine .inr ⟨fun t ht hrole => ?_, _, mem_change_self hs, nofun⟩
    rcases mem_change ht with ⟨u, -, rfl⟩ | ht
    · exact nofun
    · exact hreq t ht hrole

theorem UnanimousKept.reject (h : UnanimousKept request) {i : Nat} (later : Int)
    (reason : String) (hp : request.stateAt i = some .pending) (hfits : RejectionFits request i)
    (htype : request.policy.type = .unanimous) :
    UnanimousKept (request.change i (SignerInfo.reject later reason)) := by
  have hrevoked (hex : ∃ s ∈ request.signers, s.state = .revoked) :
      UnanimousKept (request.change i (SignerInfo.reject later reason)) := by
    obtain ⟨s, hs, hr⟩ := hex
    exact .inl ⟨s, mem_change_of_pending hs hp (by rw [hr]; decide), hr⟩
  rcases hfits htype with hex | ⟨hrole, j, s, hj, hs, hne⟩
  · exact hrevoked hex
  · rcases h with hex | ⟨hreq, -⟩
    · exact hrevoked hex
    · refine .inr ⟨fun t ht hr => ?_, s, mem_change_of_ne hs hj, hne⟩
      rcases mem_change ht with ⟨u, hu, rfl⟩ | ht
      · exact absurd hr (hrole u hu)
      · exact hreq t ht hr

theorem kept_preserved : Preserved Careful Kept where
  create {w now generatedId operationId policy signerRoles} hok := by
    have hroles : (newRequest w.coordinator now generatedId operationId policy signerRoles).signers.map
        SignerInfo.role = signerRoles := by
      rw [newRequest, List.map_map]
      exact List.map_id' signerRoles
    have hpending : ∀ s ∈ (newRequest w.coordinator now generatedId operationId policy signerRoles).signers,
        s.state = .pending := by
      intro s hs
      obtain ⟨role, -, rfl⟩ := List.mem_map.mp hs
      rfl
    refine ⟨fun i s hs => hpending s (List.mem_of_getElem? hs), hroles.symm ▸ hok, fun htype => ?_⟩
    have hfits : PolicyFits policy signerRoles := hok
    have htype : policy.type = .unanimous := htype
    rw [PolicyFits, htype] at hfits
    obtain ⟨role, hrole⟩ := List.exists_mem_of_ne_nil _ hfits.1
    refine .inr ⟨fun s hs _ => by rw [hpending s hs]; decide, _, List.mem_map_of_mem hrole, nofun⟩
  assign {request latest i signerAddress} h := by
    refine ⟨fun j s hs => ?_, h.fits.change fun _ => rfl, fun ht => (h.unanimous ht).assign i signerAddress⟩
    rw [change_getElem?] at hs
    split at hs
    · obtain ⟨t, ht, rfl⟩ := Option.map_eq_some_iff.mp hs
      exact h.logged j t ht
    · exact h.logged j s hs
  sign {w now later requestId signerAddress signature request latest i} _ hmay h := by
    exact ⟨h.logged.change fun _ => rfl, h.fits.change fun _ => rfl,
      fun ht => (h.unanimous ht).sign later hmay.pending⟩
  reject {w now later requestId signerAddress reason request latest i} hok hmay h := by
    exact ⟨h.logged.change fun _ => rfl, h.fits.change fun _ => rfl,
      fun ht => (h.unanimous ht).reject later reason hmay.pending (hok request i hmay) ht⟩
  revoke {w requestId signerAddress request latest i} _ _ hi h := by
    obtain ⟨hlt, -⟩ := List.findIdx?_eq_some_iff_getElem.mp hi
    exact ⟨h.logged.change fun _ => rfl, h.fits.change fun _ => rfl,
      fun _ => .inl ⟨_, mem_change_self (List.getElem?_eq_getElem hlt), rfl⟩⟩

/-! ## What an approval rests on -/

theorem Logged.signedLatest {request : AuthorizationRequest} {latest : Nat → Option SignerState}
    (h : Logged request latest) : signedLatest latest request.signers = signedSigners request.signers := by
  have hcongr : request.signers.zipIdx.filter (fun s => latest s.2 = some .signed) =
      request.signers.zipIdx.filter ((fun s : SignerInfo => decide (s.state = .signed)) ∘ Prod.fst) := by
    refine List.filter_congr fun s hs => ?_
    have hstate := h s.2 s.1 (List.mem_zipIdx_iff_getElem?.mp hs)
    rw [Function.comp_apply, hstate]
    cases latest s.2 with
    | none => rfl
    | some state => simp
  rw [Authorization.signedLatest, hcongr, ← List.filter_map, List.zipIdx_map_fst]
  rfl

/-- A unanimous policy is approved when every signer that has not rejected has
signed. -/
theorem unanimous_approved {signers : List SignerInfo}
    (h : (signedSigners signers).length = (signers.filter (·.state ≠ .rejected)).length) {s : SignerInfo}
    (hs : s ∈ signers) (hne : s.state ≠ .rejected) : s.state = .signed := by
  have hboth : signedSigners signers = (signers.filter (·.state ≠ .rejected)).filter (·.state = .signed) := by
    rw [List.filter_filter, signedSigners]
    refine List.filter_congr fun t _ => ?_
    cases t.state <;> rfl
  rw [hboth, List.length_filter_eq_length_iff] at h
  exact of_decide_eq_true (h s (List.mem_filter.mpr ⟨hs, by simpa using hne⟩))

/-- What an approval of a request that is kept rests on. -/
theorem Kept.approved {latest : Nat → Option SignerState}
    (h : Kept request latest) (happroved : evaluatePolicy request = true) :
    Authorization.signedLatest latest request.signers ≠ [] ∧ PolicyMet latest request := by
  have hfits := h.fits
  rw [h.logged.signedLatest, PolicyMet, h.logged.signedLatest]
  rw [PolicyFits] at hfits
  rw [evaluatePolicy] at happroved
  cases htype : request.policy.type with
  | unanimous =>
    simp only [htype, beq_iff_eq] at happroved hfits ⊢
    rcases h.unanimous htype with ⟨s, hs, hr⟩ | ⟨hreq, s, hs, hne⟩
    · have hsigned := unanimous_approved happroved hs (by rw [hr]; decide)
      rw [hr] at hsigned
      cases hsigned
    · refine ⟨List.ne_nil_of_mem (a := s) ?_, fun role hrole => ⟨hfits.2 hrole, fun i t ht hr => ?_⟩⟩
      · exact List.mem_filter.mpr ⟨hs, decide_eq_true (unanimous_approved happroved hs hne)⟩
      · have hmem := List.mem_of_getElem? ht
        have hsigned := unanimous_approved happroved hmem (hreq t hmem (hr ▸ hrole))
        have hstate := h.logged i t ht
        rw [hsigned] at hstate
        cases hl : latest i with
        | none =>
          rw [hl] at hstate
          cases hstate
        | some state =>
          rw [hl] at hstate
          exact congrArg some hstate.symm
  | threshold =>
    simp only [htype] at happroved hfits ⊢
    cases hthreshold : request.policy.threshold with
    | none => simp [hthreshold] at happroved
    | some threshold =>
      simp only [hthreshold, Bool.and_eq_true, bne_iff_ne, decide_eq_true_eq] at happroved
      refine ⟨fun hnil => ?_, threshold, rfl, happroved.2⟩
      have hle := happroved.2
      rw [hnil] at hle
      exact happroved.1 (le_antisymm hle (hfits threshold hthreshold))
  | weighted =>
    simp only [htype] at happroved hfits ⊢
    cases hweights : request.policy.weights with
    | none => simp [hweights] at happroved
    | some weights =>
      simp only [hweights, decide_eq_true_eq] at happroved
      have htotal : 0 < weightOf weights request.signers := by
        have := hfits weights hweights
        rwa [List.map_map] at this
      refine ⟨fun hnil => ?_, weights, rfl, htotal, happroved⟩
      rw [hnil] at happroved
      exact absurd htotal (not_lt.mpr happroved)

theorem getAuthorizationStatus_eq_ok {now : Int} {requestId : String} {c c' : Coordinator}
    {status : AuthorizationStatus} (h : getAuthorizationStatus now requestId c = .ok status c') :
    ∃ request, c.requests.lookup requestId = some request ∧
      status.isApproved = (evaluatePolicy request && !isExpired now request) := by
  simp only [getAuthorizationStatus, getOrThrowRequest_bind_eq_ok, Method.pure_eq_ok] at h
  obtain ⟨request, hl, rfl, -⟩ := h
  exact ⟨request, hl, rfl⟩

/-- In careful runs every approval rests on the signers whose latest action is
a signature. -/
theorem approvals_rest_on_signatures {w : World} (h : ReachableWorld Careful w) : ApprovalsSound w := by
  intro now requestId status c hstatus happroved
  obtain ⟨request, hl, heq⟩ := getAuthorizationStatus_eq_ok hstatus
  rw [heq, Bool.and_eq_true, Bool.not_eq_true'] at happroved
  obtain ⟨hsigned, hmet⟩ := (reachable_requests kept_preserved h requestId request hl).approved happroved.1
  exact ⟨request, hl, happroved.2, hsigned, hmet⟩

/-! ## A rejected signer -/

def twoSigners : List Operation :=
  [.createAuthorizationRequest 0 "r" "op" ⟨.unanimous, [.payroll_admin, .treasury_operator], none, none, none⟩
      [.payroll_admin, .treasury_operator],
    .addSigner "r" "A" .payroll_admin,
    .addSigner "r" "B" .treasury_operator]

def signature (role : SignerRole) : SignaturePayload := ⟨"op", "", role, 0, "n"⟩

/-- Both sign. -/
def bothSign : List Operation :=
  twoSigners ++ [.recordSignature 1 1 "r" (signature .payroll_admin) "A",
    .recordSignature 1 1 "r" (signature .treasury_operator) "B"]

/-- One rejects, then the other signs. -/
def oneRejects : List Operation :=
  twoSigners ++ [.recordRejection 1 1 "r" "B" "no", .recordSignature 1 1 "r" (signature .payroll_admin) "A"]

/-- The status of the request is that it is approved. -/
def Coordinator.reportsApproved (c : Coordinator) (now : Int) (requestId : String) : Bool :=
  match getAuthorizationStatus now requestId c with
  | .ok status _ => status.isApproved
  | .error _ _ => false

theorem both_sign_approved :
    (runAll bothSign).coordinator.reportsApproved 1 "r" = true ∧ ApprovalsSound (runAll bothSign) := by
  refine ⟨by decide +kernel, approvals_rest_on_signatures (reachable_foldl ?_ fun pre op post heq => ?_)⟩
  · exact Reachable.start ⟨rfl, rfl, rfl, rfl, rfl⟩
  · have hop : op ∈ bothSign := heq ▸ by simp
    simp only [bothSign, twoSigners, List.cons_append, List.nil_append, List.mem_cons, List.not_mem_nil,
      or_false] at hop
    rcases hop with rfl | rfl | rfl | rfl | rfl
    · exact ⟨by decide, by decide⟩
    all_goals trivial

theorem rejected_signer_approved : ¬ ∀ w, ReachableWorld (fun _ _ => True) w → ApprovalsSound w := by
  intro h
  obtain ⟨request, hl, -, -, hmet⟩ := h _ (reachable_runAll oneRejects) 1 "r" _ _ rfl (by decide +kernel)
  have hrequest : (runAll oneRejects).coordinator.requests.lookup "r" = some request := hl
  obtain rfl : request = _ := (Option.some.inj hrequest).symm
  have hrejected := (hmet .treasury_operator (by decide +kernel)).2 1 _ rfl rfl
  exact absurd hrejected (by decide +kernel)

end ZkPayroll.Authorization
