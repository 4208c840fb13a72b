import ZkPayroll.Sessions.SessionRuns

/-!
# Signatures and rejections of a session

A signer who has rejected a session for a role cannot sign it, but one who has
signed can reject: the signature then stays, counts, and is part of the
package (`rejected_signature_in_package`). In the runs in which nobody rejects
what he has signed (`RejectsUnsigned`) no signer is on both records, and a
package has only signatures of signers whose most recent action was to sign
(`signatures_not_rejected`).
-/

namespace ZkPayroll.Sessions

open Framework ZkPayroll.Core

variable {ν : Type}

/-- No signer has both signed and rejected for one role. -/
def Apart (session : SignerSession) : Prop :=
  ∀ f ∈ session.signatures, ∀ g ∈ session.rejections,
    ¬(f.2.signerAddress = g.2.signerAddress ∧ f.2.role = g.2.role)

/-- No package has a signature of one who has rejected since. -/
structure RejectionsHonoured (c : Chronicle ν) : Prop where
  apart : ∀ sessionId session, c.world.manager.sessions.lookup sessionId = some session → Apart session
  package : ∀ now sessionId package m,
    prepareSubmissionPackage now sessionId c.world.manager = .ok package m →
    ∀ signature ∈ package.signatures, ∀ rejection,
      latestAction c.entries sessionId signature.signerAddress signature.role ≠ some (.rejected rejection)

/-- No rejection that passes the checks is by a signer with a signature on
record for the role. -/
def RejectsUnsigned (w : World ν) : Operation ν → Prop
  | .rejectSession now _ sessionId signerAddress role reason => ∀ session,
      w.manager.sessions.lookup sessionId = some session →
      RejectionOk now session signerAddress role reason →
      session.signatures.lookup (slotKey signerAddress role) = none
  | _ => True

/-! ## One session -/

/-- The two records of a session have their entries under the keys of their
signers, and no key in common. -/
structure KeysApart (session : SignerSession) : Prop where
  nodup : (session.signatures.map Prod.fst).Nodup
  signatures : ∀ f ∈ session.signatures, f.1 = slotKey f.2.signerAddress f.2.role
  rejections : ∀ g ∈ session.rejections, g.1 = slotKey g.2.signerAddress g.2.role
  apart : ∀ f ∈ session.signatures, ∀ g ∈ session.rejections, f.1 ≠ g.1

variable {session : SignerSession}

theorem KeysApart.pairsApart (h : KeysApart session) : Apart session := by
  rintro f hf g hg ⟨haddress, hrole⟩
  apply h.apart f hf g hg
  rw [h.signatures f hf, h.rejections g hg, haddress, hrole]

theorem KeysApart.recordSignature (h : KeysApart session) (signature : SignatureRecord)
    (hnone : session.rejections.lookup (slotKey signature.signerAddress signature.role) = none) :
    KeysApart (session.recordSignature signature) where
  nodup := nodup_setKey h.nodup
  signatures f hf := by
    rcases eq_or_mem_of_mem_setKey hf with rfl | hold
    · rfl
    · exact h.signatures f hold
  rejections := h.rejections
  apart f hf g hg := by
    rcases eq_or_mem_of_mem_setKey hf with rfl | hold
    · exact (ne_of_lookup_eq_none hnone hg).symm
    · exact h.apart f hold g hg

theorem KeysApart.recordRejection (h : KeysApart session) (rejection : RejectionRecord)
    (hnone : session.signatures.lookup (slotKey rejection.signerAddress rejection.role) = none) :
    KeysApart (session.recordRejection rejection) where
  nodup := h.nodup
  signatures := h.signatures
  rejections g hg := by
    rcases eq_or_mem_of_mem_setKey hg with rfl | hold
    · rfl
    · exact h.rejections g hold
  apart f hf g hg := by
    rcases eq_or_mem_of_mem_setKey hg with rfl | hold
    · exact ne_of_lookup_eq_none hnone hf
    · exact h.apart f hf g hold

variable [NumberFormat ν]

theorem keysApart_preserved (sha256 : String → List UInt8) :
    Preserved (ν := ν) sha256 RejectsUnsigned fun _ session => KeysApart session where
  create _ h := by
    obtain ⟨-, -, -, -, -, -, hsig, hrej, -⟩ := createSession_eq_ok h
    exact ⟨by simp [hsig], by simp [hsig], by simp [hrej], by simp [hsig]⟩
  sign _ _ hchecks h := h.recordSignature _ hchecks.unrejected
  reject hok hl hchecks h := h.recordRejection _ (hok _ hl hchecks)
  consume _ _ _ _ h := ⟨h.nodup, h.signatures, h.rejections, h.apart⟩

/-! ## The most recent action -/

/-- The signatures of a session are the most recent actions of their signers. -/
def Current (sessionId : String) (session : SignerSession) (entries : List Entry) : Prop :=
  ∀ f ∈ session.signatures,
    latestAction entries sessionId f.2.signerAddress f.2.role = some (.signed f.2)

omit [NumberFormat ν] in
/-- An entry that is not by the signer leaves his most recent action. -/
theorem latestAction_append {new entries : List Entry} {sessionId signerAddress : String} {role : SignerRole}
    (h : ∀ e ∈ new, Entry.isBy sessionId signerAddress role e = false) :
    latestAction (new ++ entries) sessionId signerAddress role =
      latestAction entries sessionId signerAddress role := by
  rw [latestAction, List.find?_append, List.find?_eq_none.mpr fun e he => by simp [h e he]]
  rfl

omit [NumberFormat ν] in
/-- New entries by none of the session's signers leave its signatures current. -/
theorem Current.append {new entries : List Entry} {sessionId : String}
    (h : Current sessionId session entries)
    (hnew : ∀ f ∈ session.signatures, ∀ e ∈ new, Entry.isBy sessionId f.2.signerAddress f.2.role e = false) :
    Current sessionId session (new ++ entries) := by
  intro f hf
  rw [latestAction_append (hnew f hf)]
  exact h f hf

/-- A call keeps the signatures current: of the session it is for, and of the
others. -/
theorem current_next {sha256 : String → List UInt8} {c : Chronicle ν} {op : Operation ν}
    (hok : RejectsUnsigned c.world op)
    (hkeys : AllSessions (fun _ session => KeysApart session) c.world)
    (hc : ∀ sessionId session, c.world.manager.sessions.lookup sessionId = some session →
      Current sessionId session c.entries) (sessionId : String) (session : SignerSession)
    (hl : (c.next sha256 op).world.manager.sessions.lookup sessionId = some session) :
    Current sessionId session (c.next sha256 op).entries := by
  rcases c.next_cases sha256 op with ⟨hm, he⟩ | ⟨session', m', hcall, hm, he⟩
  · rw [hm] at hl
    rw [he]
    exact hc _ _ hl
  have ht := Operation.took hcall
  rw [hm, ht.sessions, lookup_setKey] at hl
  rw [he]
  split at hl
  case isFalse hid =>
    -- an entry of another session is by none of this session's signers
    refine (hc _ _ hl).append fun f _ e hemem => ?_
    obtain ⟨event, -, rfl⟩ := List.mem_map.mp hemem
    simp [Entry.isBy, Ne.symm hid]
  case isTrue hid =>
    cases hl
    subst hid
    cases op with
    | createSession now generatedId params =>
      obtain ⟨-, -, -, -, -, -, hsig, -⟩ := createSession_eq_ok hcall
      simp [Current, hsig]
    | applySignature now later id params allowReplace =>
      obtain ⟨session, hs, -, rfl, -⟩ := applySignature_eq_ok.mp hcall
      obtain ⟨-, -, hk⟩ := hkeys _ _ hs
      intro f hf
      rcases (mem_setKey hk.nodup).mp hf with rfl | ⟨hold, hne⟩
      · simp [latestAction, Operation.event, Operation.target, Entry.isBy, SignerSession.recordSignature]
      · have hby : ¬(params.signerAddress = f.2.signerAddress ∧ params.role = f.2.role) := by
          rintro ⟨haddress, hrole⟩
          apply hne
          rw [hk.signatures f hold, ← haddress, ← hrole]
          rfl
        rw [latestAction_append fun e hemem => ?_]
        · exact hc _ _ hs f hold
        · obtain ⟨event, hevent, rfl⟩ := List.mem_map.mp hemem
          cases Option.mem_toList.mp hevent
          simpa [Entry.isBy, Operation.target, AddSignatureParams.toRecord] using hby
    | rejectSession now later id signerAddress role reason =>
      obtain ⟨session, hs, hchecks, rfl, -⟩ := rejectSession_eq_ok.mp hcall
      obtain ⟨-, -, hk⟩ := hkeys _ _ hs
      refine (hc _ _ hs).append fun f hf e hemem => ?_
      have hby : ¬(signerAddress = f.2.signerAddress ∧ role = f.2.role) := by
        rintro ⟨haddress, hrole⟩
        apply ne_of_lookup_eq_none (hok _ hs hchecks) hf
        rw [hk.signatures f hf, ← haddress, ← hrole]
      obtain ⟨event, hevent, rfl⟩ := List.mem_map.mp hemem
      cases Option.mem_toList.mp hevent
      simpa [Entry.isBy, Operation.target] using hby
    | markConsumed now later id txHash =>
      obtain ⟨session, hs, -, -, rfl, -⟩ := markConsumed_eq_ok.mp hcall
      refine (hc _ _ hs).append fun f _ e hemem => ?_
      obtain ⟨event, hevent, rfl⟩ := List.mem_map.mp hemem
      cases Option.mem_toList.mp hevent
      simp [Entry.isBy]

/-- The sessions of a run in which nobody rejects what he has signed. -/
structure HonouredInv (c : Chronicle ν) : Prop where
  keys : AllSessions (fun _ session => KeysApart session) c.world
  current : ∀ sessionId session, c.world.manager.sessions.lookup sessionId = some session →
    Current sessionId session c.entries

/-- No signer is on both records, and a package has only signatures of signers
whose most recent action was to sign. -/
theorem signatures_not_rejected {sha256 : String → List UInt8} {c : Chronicle ν}
    (h : ReachableChronicle sha256 RejectsUnsigned c) : RejectionsHonoured c := by
  have hinv : HonouredInv c := by
    refine Reachable.invariant (I := HonouredInv) (fun c₀ hc₀ => ?_) (fun c₁ c₂ hc hs => ?_) h
    · obtain ⟨⟨hsessions, -, -⟩, -⟩ := hc₀
      exact ⟨fun id session hl => by simp [hsessions] at hl, fun id session hl => by simp [hsessions] at hl⟩
    · obtain ⟨op, hok, rfl⟩ := hs
      exact ⟨allSessions_step (keysApart_preserved sha256) hc.keys ⟨op, hok, rfl⟩,
        current_next hok hc.keys hc.current⟩
  refine ⟨fun sessionId session hl => ?_, fun now sessionId package m hp signature hs rejection => ?_⟩
  · obtain ⟨-, -, hk⟩ := hinv.keys _ _ hl
    exact hk.pairsApart
  · obtain ⟨session, hl, -, -, -, rfl, -⟩ := prepareSubmissionPackage_eq_ok.mp hp
    obtain ⟨f, hf, rfl⟩ := List.mem_map.mp hs
    rw [hinv.current _ _ hl f hf]
    simp

/-! ## A signature that was rejected -/

/-- A session that one payroll administrator is to sign. -/
def oneAdmin : Operation Int := .createSession 0 "" {
  sessionId := some "sess_1"
  payrollRunId := "run_1"
  operationPayload := .text "payroll 2026-01"
  requiredRoles := [.payroll_admin] }

def aliceSigns : Operation Int := .applySignature 1 1 "sess_1"
  { signerAddress := "GALICE", role := .payroll_admin, signatureHex := "aa", nonce := "n1" } false

def bobRejects : Operation Int := .rejectSession 2 2 "sess_1" "GBOB" .payroll_admin "wrong totals"

def aliceRejects : Operation Int := .rejectSession 2 2 "sess_1" "GALICE" .payroll_admin "wrong totals"

/-- SHA-256 as it is on the payload of that session. -/
def sha256OfRun : String → List UInt8 :=
  hashFrom [("payroll 2026-01", digest "8e5c2e8cb7d794cc85d3484fa61d6c5d33773519ea2906d49fc113d5c1b57ff6")]

/-- Alice signs and Bob rejects: only Alice's signature is in the package. -/
theorem other_signer_rejects :
    RejectionsHonoured (chronicle sha256OfRun {} [oneAdmin, aliceSigns, bobRejects]) := by
  have h₀ : ReachableChronicle sha256OfRun RejectsUnsigned (chronicle (ν := Int) sha256OfRun {} []) :=
    Reachable.start ⟨⟨rfl, rfl, rfl⟩, rfl⟩
  have h₁ := reachableChronicle_concat oneAdmin h₀ trivial
  have h₂ := reachableChronicle_concat aliceSigns h₁ trivial
  have h₃ := reachableChronicle_concat bobRejects h₂ (by
    intro session hl _
    obtain rfl := Option.some.inj hl
    decide)
  exact signatures_not_rejected h₃

/-- Alice signs and then rejects: she is on both records, and her signature is
in the package. -/
theorem rejected_signature_in_package :
    ReachableChronicle sha256OfRun (fun _ _ => True)
        (chronicle sha256OfRun {} [oneAdmin, aliceSigns, aliceRejects]) ∧
      (∃ session, (chronicle sha256OfRun {} [oneAdmin, aliceSigns, aliceRejects]).world.manager.sessions.lookup
        "sess_1" = some session ∧ ¬ Apart session) ∧
      ¬ RejectionsHonoured (chronicle sha256OfRun {} [oneAdmin, aliceSigns, aliceRejects]) := by
  have h₀ : ReachableChronicle sha256OfRun (fun _ _ => True) (chronicle (ν := Int) sha256OfRun {} []) :=
    Reachable.start ⟨⟨rfl, rfl, rfl⟩, rfl⟩
  have h₁ := reachableChronicle_concat oneAdmin h₀ trivial
  have h₂ := reachableChronicle_concat aliceSigns h₁ trivial
  refine ⟨reachableChronicle_concat aliceRejects h₂ trivial, ⟨_, rfl, ?_⟩, fun hsafe => ?_⟩
  · intro hapart
    exact hapart _ (List.mem_singleton_self _) _ (List.mem_singleton_self _) ⟨rfl, rfl⟩
  · exact hsafe.package 3 "sess_1" _ _ rfl _ (List.mem_singleton_self _) _ rfl

end ZkPayroll.Sessions
