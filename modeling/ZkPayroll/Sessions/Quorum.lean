import ZkPayroll.Sessions.SessionRuns

/-!
# The quorum of a session

A session's threshold is compared with the number of its signatures, which are
kept by signer and role; its slots are kept by role. The two agree as long as
every signature that is recorded finds a slot, no signer who has signed for a
role rejects it, and only sessions with enough signatures are marked consumed;
and no count is compared with a threshold that is `NaN` (`KeepsQuorum`). In such runs each signature stands in a slot of its own
(`QuorumInv`), so that a package, and a consumed session, has its quorum of
slots (`quorum_of_reachable`). Otherwise a package can lack it
(`two_operators_no_reviewer`).
-/

namespace ZkPayroll.Sessions

open Framework ZkPayroll.Core

variable {ν : Type}

/-! ## Quorum -/

/-- Whether a signer is eligible for a slot with this assigned address. -/
def eligible (assigned : Option String) (signerAddress : String) : Bool :=
  match assigned with
  | none => true
  | some a => a == "" || a == signerAddress

/-- Whether a slot is one of a required role and signed by an eligible signer. -/
def signedByEligible (p : CreateSessionParams ν) (slot : SignerSlot) : Bool :=
  decide (slot.role ∈ p.requiredRoles) && slot.status == .signed &&
    match slot.signature with
    | none => false
    | some signature => signature.role == slot.role &&
        eligible (p.assignedSigners slot.role) signature.signerAddress

/-- At least `threshold` slots of the session are signed by eligible signers. -/
def QuorumMet (p : CreateSessionParams ν) (session : SignerSession) : Prop :=
  session.threshold.metBy (session.signerSlots.countP (signedByEligible p)) = true

instance (p : CreateSessionParams ν) (session : SignerSession) : Decidable (QuorumMet p session) :=
  inferInstanceAs (Decidable (_ = true))

/-- The slot in which the signature stands. -/
structure Backs (slot : SignerSlot) (signature : SignatureRecord) : Prop where
  role : slot.role = signature.role
  address : slot.address = some signature.signerAddress
  status : slot.status = .signed
  signature : slot.signature = some signature

/-- What links the signatures of a session to its slots. -/
structure QuorumInv (p : CreateSessionParams ν) (session : SignerSession) : Prop where
  required : ∀ slot ∈ session.signerSlots, slot.role ∈ p.requiredRoles
  assigned : ∀ slot ∈ session.signerSlots, ∀ a, p.assignedSigners slot.role = some a → a ≠ "" →
    slot.address = some a
  keys : (session.signatures.map Prod.fst).Nodup
  keyed : ∀ f ∈ session.signatures, f.1 = slotKey f.2.signerAddress f.2.role
  named : ∀ f ∈ session.signatures, f.2.signerAddress ≠ ""
  backed : ∀ f ∈ session.signatures, ∃ slot ∈ session.signerSlots, Backs slot f.2
  consumed : session.isConsumed = true → session.threshold.metBy session.signatures.length = true
  threshold : session.threshold.value.isNaN = false

theorem Backs.signedByEligible {p : CreateSessionParams ν} {slot : SignerSlot} {signature : SignatureRecord}
    (h : Backs slot signature) (hr : slot.role ∈ p.requiredRoles)
    (ha : ∀ a, p.assignedSigners slot.role = some a → a ≠ "" → slot.address = some a) :
    signedByEligible p slot = true := by
  have he : eligible (p.assignedSigners slot.role) signature.signerAddress = true := by
    unfold eligible
    split
    · rfl
    · rename_i a hassigned
      by_cases hempty : a = ""
      · simp [hempty]
      · have hslot := ha a hassigned hempty
        rw [h.address] at hslot
        simp [Option.some.inj hslot]
  rw [h.role] at hr he
  simp [Sessions.signedByEligible, h.role, hr, h.status, h.signature, he]

variable {p : CreateSessionParams ν} {session : SignerSession}

/-- Each signature has a slot, and no two the same. -/
theorem QuorumInv.count (h : QuorumInv p session) :
    session.signatures.length ≤ session.signerSlots.countP (signedByEligible p) := by
  have hsome : (session.signatures.map fun f => some f.2).Nodup := by
    have hkeys : session.signatures.map Prod.fst =
        (session.signatures.map fun f => some f.2).map fun o =>
          o.elim "" fun s => slotKey s.signerAddress s.role := by
      rw [List.map_map]
      exact List.map_congr_left fun f hf => h.keyed f hf
    exact List.Nodup.of_map _ (hkeys ▸ h.keys)
  have hsub : session.signatures.map (fun f => some f.2) ⊆
      (session.signerSlots.filter (signedByEligible p)).map SignerSlot.signature := by
    intro o ho
    obtain ⟨f, hf, rfl⟩ := List.mem_map.mp ho
    obtain ⟨slot, hslot, hb⟩ := h.backed f hf
    refine List.mem_map.mpr ⟨slot, List.mem_filter.mpr ⟨hslot, ?_⟩, hb.signature⟩
    exact hb.signedByEligible (h.required slot hslot) (h.assigned slot hslot)
  have hlen := (List.subperm_of_subset hsome hsub).length_le
  rw [List.length_map, List.length_map] at hlen
  rwa [List.countP_eq_length_filter]

theorem QuorumInv.quorumMet (h : QuorumInv p session)
    (ht : session.threshold.metBy session.signatures.length = true) : QuorumMet p session := by
  have hcount : (session.signatures.length : ℚ) ≤ session.signerSlots.countP (signedByEligible p) :=
    Nat.cast_le.mpr h.count
  exact JsNumber.le_trans ht (decide_eq_true hcount)

/-- A threshold that is a number is met unless it exceeds the count. -/
theorem Threshold.metBy_of_not_exceeds {threshold : Threshold} {n : Nat} (h : threshold.exceeds n = false)
    (ht : threshold.value.isNaN = false) : threshold.metBy n = true :=
  JsNumber.le_of_not_lt ht rfl h

/-! ## One call -/

variable {signerAddress : String} {role : SignerRole} {slot : SignerSlot}

/-- A slot that is for a signer and a role, and has the address of a signer, has
that of this signer. -/
theorem SignerSlot.isFor_iff :
    slot.isFor role signerAddress = true ↔
      slot.role = role ∧ ∀ a, slot.address = some a → a ≠ "" → a = signerAddress := by
  unfold SignerSlot.isFor
  cases slot.address with
  | none => simp
  | some a =>
    by_cases ha : a = ""
    · simp [ha]
    · simp [ha]

/-- A slot keeps its role and its assigned address when a signer that it is for
signs or rejects in it. -/
theorem QuorumInv.slot_modified (h : QuorumInv p session) {f : SignerSlot → SignerSlot}
    (hs : slot ∈ modifyFirst (SignerSlot.isFor role signerAddress) f session.signerSlots)
    (hrole : ∀ slot, (f slot).role = slot.role) (haddress : ∀ slot, (f slot).address = some signerAddress) :
    slot.role ∈ p.requiredRoles ∧
      ∀ a, p.assignedSigners slot.role = some a → a ≠ "" → slot.address = some a := by
  rcases mem_modifyFirst hs with hs | ⟨slot', hs', hfor, rfl⟩
  · exact ⟨h.required slot hs, h.assigned slot hs⟩
  · rw [hrole, haddress]
    refine ⟨h.required slot' hs', fun a ha hne => ?_⟩
    have hsame := (SignerSlot.isFor_iff.mp hfor).2 a (h.assigned slot' hs' a ha hne) hne
    rw [hsame]

/-- The slot of a signature is not one for another signer or role. -/
theorem Backs.isFor_false {signature : SignatureRecord} (h : Backs slot signature)
    (hn : signature.signerAddress ≠ "")
    (hkey : slotKey signature.signerAddress signature.role ≠ slotKey signerAddress role) :
    slot.isFor role signerAddress = false := by
  rw [Bool.eq_false_iff]
  intro hfor
  obtain ⟨hr, ha⟩ := SignerSlot.isFor_iff.mp hfor
  exact hkey (by rw [ha _ h.address hn, ← hr, h.role])

theorem isBlank_empty : isBlank "" = true := by decide

theorem QuorumInv.recordSignature (h : QuorumInv p session) {signature : SignatureRecord}
    (hn : isBlank signature.signerAddress = false) (hc : session.isConsumed = false)
    (hslot : ∃ slot ∈ session.signerSlots, slot.isFor signature.role signature.signerAddress = true) :
    QuorumInv p (session.recordSignature signature) where
  required slot hs := (h.slot_modified hs (fun _ => rfl) (fun _ => rfl)).1
  assigned slot hs := (h.slot_modified hs (fun _ => rfl) (fun _ => rfl)).2
  keys := nodup_setKey h.keys
  keyed f hf := by
    rcases (mem_setKey h.keys).mp hf with rfl | ⟨hf, -⟩
    · rfl
    · exact h.keyed f hf
  named f hf := by
    rcases (mem_setKey h.keys).mp hf with rfl | ⟨hf, -⟩
    · intro he
      rw [he, isBlank_empty] at hn
      cases hn
    · exact h.named f hf
  backed f hf := by
    rcases (mem_setKey h.keys).mp hf with rfl | ⟨hf, hkey⟩
    · -- the new signature stands in the first slot for it
      obtain ⟨slot, -, hfor, hmem⟩ := exists_mem_modifyFirst (f := SignerSlot.sign signature) hslot
      exact ⟨_, hmem, (SignerSlot.isFor_iff.mp hfor).1, rfl, rfl, rfl⟩
    · obtain ⟨slot, hs, hb⟩ := h.backed f hf
      rw [h.keyed f hf] at hkey
      exact ⟨slot, mem_modifyFirst_of_not hs (hb.isFor_false (h.named f hf) hkey), hb⟩
  consumed hc' := by
    change session.isConsumed = true at hc'
    rw [hc] at hc'
    cases hc'
  threshold := h.threshold

theorem QuorumInv.recordRejection (h : QuorumInv p session) {rejection : RejectionRecord}
    (hs : session.signatures.lookup (slotKey rejection.signerAddress rejection.role) = none) :
    QuorumInv p (session.recordRejection rejection) where
  required slot hs := (h.slot_modified hs (fun _ => rfl) (fun _ => rfl)).1
  assigned slot hs := (h.slot_modified hs (fun _ => rfl) (fun _ => rfl)).2
  keys := h.keys
  keyed := h.keyed
  named := h.named
  backed f hf := by
    obtain ⟨slot, hslot, hb⟩ := h.backed f hf
    refine ⟨slot, mem_modifyFirst_of_not hslot (hb.isFor_false (h.named f hf) fun hkey => ?_), hb⟩
    rw [← h.keyed f hf] at hkey
    rw [← hkey, (mem_iff_lookup h.keys f).mp hf] at hs
    cases hs
  consumed := h.consumed
  threshold := h.threshold

/-! ## Runs -/

variable [NumberFormat ν]

/-- The calls that keep signatures and slots together: a session is not created
with the threshold `NaN`, a signature that is recorded finds a slot, a rejection
is not by a signer who has signed for the role, and a session that is marked
consumed has enough signatures. -/
def KeepsQuorum (sha256 : String → List UInt8) (w : World ν) : Operation ν → Prop
  | .createSession _ _ params => ∀ threshold ∈ params.threshold, threshold.value.isNaN = false
  | .applySignature now _ sessionId params allowReplace =>
    ∀ session, w.manager.sessions.lookup sessionId = some session →
      SignatureOk sha256 now w.manager session params allowReplace →
      ∃ slot ∈ session.signerSlots, slot.isFor params.role params.signerAddress = true
  | .rejectSession now _ sessionId signerAddress role reason =>
    ∀ session, w.manager.sessions.lookup sessionId = some session →
      RejectionOk now session signerAddress role reason →
      session.signatures.lookup (slotKey signerAddress role) = none
  | .markConsumed now _ sessionId _ =>
    ∀ session, w.manager.sessions.lookup sessionId = some session → session.isConsumed = false →
      now ≤ session.expiresAt → session.threshold.metBy session.signatures.length = true

theorem quorumInv_preserved (sha256 : String → List UInt8) :
    Preserved sha256 (KeepsQuorum sha256) (QuorumInv : CreateSessionParams ν → SignerSession → Prop) where
  create {_ _ _ params _ session} hok h := by
    obtain ⟨-, -, -, -, hslots, hc, hsig, -, hthreshold⟩ := createSession_eq_ok h
    have hslot : ∀ slot ∈ session.signerSlots,
        slot.role ∈ params.requiredRoles ∧ slot.address = params.assignedSigners slot.role := by
      intro slot hs
      rw [hslots] at hs
      obtain ⟨role, hr, rfl⟩ := List.mem_map.mp hs
      exact ⟨hr, rfl⟩
    exact
      { required := fun slot hs => (hslot slot hs).1
        assigned := fun slot hs a ha _ => (hslot slot hs).2.trans ha
        keys := by simp [hsig]
        keyed := by simp [hsig]
        named := by simp [hsig]
        backed := by simp [hsig]
        consumed := by simp [hc]
        threshold := by
          rw [hthreshold]
          cases hgiven : params.threshold with
          | none => rfl
          | some threshold => exact hok threshold hgiven }
  sign hok hl hchecks hi := hi.recordSignature hchecks.signerAddress hchecks.active (hok _ hl hchecks)
  reject hok hl hchecks hi := hi.recordRejection (hok _ hl hchecks)
  consume {_ _ _ _ _ _ session} hok hl hc he hi := by
    have ht := hok session hl hc he
    exact { hi with consumed := fun _ => ht }

/-- In the runs whose calls keep signatures and slots together, a package is
returned only for a session that has its quorum, and a consumed session has
it. -/
theorem quorum_of_reachable {sha256 : String → List UInt8} {w : World ν}
    (h : ReachableWorld sha256 (KeepsQuorum sha256) w) (sessionId : String) :
    (∀ now package m, prepareSubmissionPackage now sessionId w.manager = .ok package m →
      ∃ session p, w.manager.sessions.lookup sessionId = some session ∧
        w.created.lookup sessionId = some p ∧ QuorumMet p session) ∧
    (∀ session, w.manager.sessions.lookup sessionId = some session → session.isConsumed = true →
      ∃ p, w.created.lookup sessionId = some p ∧ QuorumMet p session) := by
  have hinv := reachable_sessions (quorumInv_preserved sha256) h
  constructor
  · intro now package m hp
    obtain ⟨session, hl, -, -, ht, -, -⟩ := prepareSubmissionPackage_eq_ok.mp hp
    obtain ⟨p, hcreated, hi⟩ := hinv _ _ hl
    exact ⟨session, p, hl, hcreated, hi.quorumMet (Threshold.metBy_of_not_exceeds ht hi.threshold)⟩
  · intro session hl hc
    obtain ⟨p, hcreated, hi⟩ := hinv _ _ hl
    exact ⟨p, hcreated, hi.quorumMet (hi.consumed hc)⟩

/-- A session that a treasury operator and a compliance reviewer are to sign. -/
def twoRoles : Operation Int := .createSession 0 "" {
  sessionId := some "sess_1"
  payrollRunId := "run_1"
  operationPayload := .text "payroll 2026-01"
  requiredRoles := [.treasury_operator, .compliance_reviewer] }

/-- SHA-256 as it is on the payload of that session. -/
def sha256OfPayroll : String → List UInt8 :=
  hashFrom [("payroll 2026-01", digest "8e5c2e8cb7d794cc85d3484fa61d6c5d33773519ea2906d49fc113d5c1b57ff6")]

def signAs (signerAddress nonce : String) (role : SignerRole) : Operation Int :=
  .applySignature 1 1 "sess_1"
    { signerAddress := signerAddress, role := role, signatureHex := "aa", nonce := nonce } false

/-- The world after two calls that sign the session for the given roles. -/
def signedTwice (role₁ role₂ : SignerRole) : World Int :=
  runAll sha256OfPayroll [twoRoles, signAs "GALICE" "n1" role₁, signAs "GBOB" "n2" role₂]

/-- Alice signs as the operator and Bob as the reviewer: there is a package, and
the quorum is met. -/
theorem operator_and_reviewer :
    ∃ session p, (signedTwice .treasury_operator .compliance_reviewer).manager.sessions.lookup "sess_1" =
        some session ∧
      (signedTwice .treasury_operator .compliance_reviewer).created.lookup "sess_1" = some p ∧
      QuorumMet p session := by
  have h₁ : ReachableWorld sha256OfPayroll (KeepsQuorum sha256OfPayroll) (runAll sha256OfPayroll [twoRoles]) :=
    reachable_concat _ reachable_nil nofun
  have h₂ := reachable_concat (signAs "GALICE" "n1" .treasury_operator) h₁ (by
    intro session hl _
    obtain rfl := Option.some.inj hl
    decide)
  have h₃ := reachable_concat (signAs "GBOB" "n2" .compliance_reviewer) h₂ (by
    intro session hl _
    obtain rfl := Option.some.inj hl
    decide)
  exact (quorum_of_reachable h₃ "sess_1").1 1 _ _ rfl

/-- Alice and Bob both sign as the operator: there is a package, without a
reviewer. -/
theorem two_operators_no_reviewer :
    ReachableWorld sha256OfPayroll (fun _ _ => True) (signedTwice .treasury_operator .treasury_operator) ∧
      (∃ package m, prepareSubmissionPackage 1 "sess_1"
        (signedTwice .treasury_operator .treasury_operator).manager = .ok package m) ∧
      ¬ ∃ session p, (signedTwice .treasury_operator .treasury_operator).manager.sessions.lookup "sess_1" =
          some session ∧
        (signedTwice .treasury_operator .treasury_operator).created.lookup "sess_1" = some p ∧
        QuorumMet p session := by
  refine ⟨reachable_runAll _ _, ⟨_, _, rfl⟩, ?_⟩
  rintro ⟨session, p, hl, hc, hq⟩
  obtain rfl := Option.some.inj hl
  obtain rfl := Option.some.inj hc
  revert hq
  decide

end ZkPayroll.Sessions
