import ZkPayroll.Sessions.SessionRuns

/-!
# Replay safety of the session manager

Over any calls on any sessions, with any readings of the clock: the nonces of
all signatures that were ever recorded are distinct, nothing is recorded on a
session that is consumed or whose expiry has passed, a session is marked
consumed once, and a call that throws changes nothing (`replay_safe`). The
manager's set of nonces is the list of the nonces on record (`RecordInv`).

A signer may send along the payload that was signed; it is compared with the
session's by its hash, which binds no more of a payload than its `namedPart`.
`signature_payload_bound_iff` says for which payloads the comparison does what
it is for.
-/

namespace ZkPayroll.Sessions

open Framework ZkPayroll.Core

variable {ν : Type} [NumberFormat ν]

/-- Nothing is taken twice. -/
structure ReplaySafe (sha256 : String → List UInt8) (c : Chronicle ν) : Prop where
  /-- The nonces of all signatures ever recorded. -/
  nonces : (c.entries.filterMap Entry.nonce).Nodup
  /-- A session that is consumed, or has expired when a call begins, takes
  nothing more. -/
  closed : ∀ (op : Operation ν) sessionId session, c.world.manager.sessions.lookup sessionId = some session →
    session.isConsumed = true ∨ op.now > session.expiresAt →
    ∀ e ∈ op.entries sha256 c.world.manager, e.sessionId ≠ sessionId
  /-- `markConsumed` succeeded at most once for each session, -/
  once : (c.entries.filterMap Entry.consumption).Nodup
  /-- and the session is consumed from then on. -/
  consumed : ∀ sessionId, ⟨sessionId, .consumed⟩ ∈ c.entries →
    ∃ session, c.world.manager.sessions.lookup sessionId = some session ∧ session.isConsumed = true
  /-- What stands in a session is on record. -/
  recorded : ∀ sessionId session, c.world.manager.sessions.lookup sessionId = some session →
    (∀ f ∈ session.signatures, ⟨sessionId, .signed f.2⟩ ∈ c.entries) ∧
    ∀ f ∈ session.rejections, ⟨sessionId, .rejected f.2⟩ ∈ c.entries
  /-- A call that throws leaves the sessions and the nonces as they were. -/
  atomic : ∀ (op : Operation ν) e m', op.call sha256 c.world.manager = .error e m' → m' = c.world.manager
  atomicPackage : ∀ now sessionId e m', prepareSubmissionPackage now sessionId c.world.manager = .error e m' →
    m' = c.world.manager

/-- What links the record to the manager. -/
structure RecordInv (c : Chronicle ν) : Prop where
  nonces : (c.entries.filterMap Entry.nonce).reverse = c.world.manager.usedNonces
  nodup : c.world.manager.usedNonces.Nodup
  once : (c.entries.filterMap Entry.consumption).Nodup
  consumed : ∀ sessionId, ⟨sessionId, .consumed⟩ ∈ c.entries →
    ∃ session, c.world.manager.sessions.lookup sessionId = some session ∧ session.isConsumed = true
  recorded : ∀ sessionId session, c.world.manager.sessions.lookup sessionId = some session →
    (∀ f ∈ session.signatures, ⟨sessionId, .signed f.2⟩ ∈ c.entries) ∧
    ∀ f ∈ session.rejections, ⟨sessionId, .rejected f.2⟩ ∈ c.entries

omit [NumberFormat ν] in
theorem RecordInv.initial {c : Chronicle ν} (h : InitialChronicle c) : RecordInv c := by
  obtain ⟨⟨hsessions, hnonces, -⟩, hentries⟩ := h
  exact ⟨by simp [hentries, hnonces], by simp [hnonces], by simp [hentries], by simp [hentries],
    by simp [hsessions]⟩

variable (op : Operation ν)

omit [NumberFormat ν] in
/-- A call registers the nonces that it records. -/
theorem filterMap_nonce_event (sessionId : String) (session : SignerSession) :
    ((op.event session).toList.map fun event => (⟨sessionId, event⟩ : Entry)).filterMap Entry.nonce =
      op.nonce.toList := by
  cases op <;> rfl

omit [NumberFormat ν] in
theorem filterMap_consumption_event (sessionId : String) (session : SignerSession) :
    ((op.event session).toList.map fun event => (⟨sessionId, event⟩ : Entry)).filterMap Entry.consumption =
      if op.event session = some .consumed then [sessionId] else [] := by
  cases op <;> simp [Operation.event, Entry.consumption]

variable {sessionId : String}

omit [NumberFormat ν] in
/-- A session that was consumed before a call is not the one it changes. -/
theorem Operation.Took.ne_of_consumed {op : Operation ν} {m m' : Manager} {session session' : SignerSession}
    (h : op.Took m m' session') (hl : m.sessions.lookup sessionId = some session)
    (hc : session.isConsumed = true) : sessionId ≠ op.target.getD session'.sessionId := by
  rintro rfl
  cases ht : op.target with
  | none =>
    rw [ht, Option.getD_none, h.created ht] at hl
    cases hl
  | some id =>
    obtain ⟨s, hs, hopen, -⟩ := h.active id (by simp [ht])
    rw [ht, Option.getD_some, hs] at hl
    cases hl
    rw [hopen] at hc
    cases hc

variable {sha256 : String → List UInt8}

theorem RecordInv.next {c : Chronicle ν} (hc : RecordInv c) : RecordInv (c.next sha256 op) := by
  rcases c.next_cases sha256 op with ⟨hm, he⟩ | ⟨session', m', hcall, hm, he⟩
  · exact ⟨by rw [he, hm, hc.nonces], hm ▸ hc.nodup, he ▸ hc.once, by rw [he, hm]; exact hc.consumed,
      by rw [he, hm]; exact hc.recorded⟩
  have ht := Operation.took hcall
  refine ⟨?_, ?_, ?_, fun sessionId hmem => ?_, fun sessionId session hl => ?_⟩
  · rw [he, hm, List.filterMap_append, filterMap_nonce_event, List.reverse_append, hc.nonces, ht.nonces]
    cases op.nonce <;> rfl
  · rw [hm, ht.nonces]
    refine hc.nodup.append (by cases op.nonce <;> simp) fun n hn hop => ?_
    exact ht.fresh n (by simpa using hop) hn
  · rw [he, List.filterMap_append, filterMap_consumption_event]
    split
    · refine List.nodup_cons.mpr ⟨fun hmem => ?_, hc.once⟩
      obtain ⟨e, hemem, heid⟩ := List.mem_filterMap.mp hmem
      obtain ⟨id, event⟩ := e
      cases event with
      | consumed =>
        cases heid
        obtain ⟨session, hl, hcons⟩ := hc.consumed _ hemem
        exact ht.ne_of_consumed hl hcons rfl
      | _ => cases heid
    · exact hc.once
  · rw [he, List.mem_append] at hmem
    rw [hm, ht.sessions, lookup_setKey]
    rcases hmem with hnew | hold
    · obtain ⟨event, hevent, heq⟩ := List.mem_map.mp hnew
      cases heq
      rw [if_pos rfl]
      exact ⟨session', rfl, by rw [ht.consumed]; simpa using hevent⟩
    · obtain ⟨session, hl, hcons⟩ := hc.consumed _ hold
      rw [if_neg (ht.ne_of_consumed hl hcons)]
      exact ⟨session, hl, hcons⟩
  · rw [hm, ht.sessions, lookup_setKey] at hl
    rw [he]
    split at hl
    · rename_i hid
      cases hl
      refine ⟨fun f hf => ?_, fun f hf => ?_⟩
      · rcases ht.signatures f hf with hevent | ⟨session, hold, hf⟩
        · simp [hevent, hid]
        · exact List.mem_append_right _ ((hc.recorded _ _ (hid ▸ hold)).1 f hf)
      · rcases ht.rejections f hf with hevent | ⟨session, hold, hf⟩
        · simp [hevent, hid]
        · exact List.mem_append_right _ ((hc.recorded _ _ (hid ▸ hold)).2 f hf)
    · have hrec := hc.recorded _ _ hl
      exact ⟨fun f hf => List.mem_append_right _ (hrec.1 f hf),
        fun f hf => List.mem_append_right _ (hrec.2 f hf)⟩

/-- Nothing is recorded on a session that is closed when the call begins. -/
theorem entries_ne_of_closed {m : Manager}
    {session : SignerSession} (hl : m.sessions.lookup sessionId = some session)
    (hclosed : session.isConsumed = true ∨ op.now > session.expiresAt) :
    ∀ e ∈ op.entries sha256 m, e.sessionId ≠ sessionId := by
  intro e he hid
  unfold Operation.entries at he
  split at he
  · rename_i session' m' hcall
    obtain ⟨event, hevent, rfl⟩ := List.mem_map.mp he
    cases htarget : op.target with
    | none => cases op <;> simp [Operation.event, Operation.target] at hevent htarget
    | some id =>
      obtain ⟨s, hs, hopen, htime⟩ := (Operation.took hcall).active id (by simp [htarget])
      obtain rfl : id = sessionId := by simpa [htarget] using hid
      rw [hl] at hs
      cases hs
      rcases hclosed with hcons | hexp
      · rw [hopen] at hcons
        cases hcons
      · omega
  · cases he

/-- Replay safety of every run on a new manager. -/
theorem replay_safe (sha256 : String → List UInt8) (defaultTtlMs maxTtlMs : Int) (ops : List (Operation ν)) :
    ReplaySafe sha256 (chronicle sha256 (newManager defaultTtlMs maxTtlMs) ops) := by
  have hinv : RecordInv (chronicle sha256 (newManager defaultTtlMs maxTtlMs) ops) :=
    chronicle_induction defaultTtlMs maxTtlMs (fun _ => RecordInv.initial) (fun _ op h => h.next op) ops
  refine
    { nonces := ?_
      closed := fun op _ _ hl hclosed => entries_ne_of_closed op hl hclosed
      once := hinv.once
      consumed := hinv.consumed
      recorded := hinv.recorded
      atomic := fun op e m' h => op.atomic_call sha256 _ e m' h
      atomicPackage := fun now sessionId e m' h => ?_ }
  · rw [← List.nodup_reverse, hinv.nonces]
    exact hinv.nodup
  · exact atomic_prepareSubmissionPackage now sessionId _ e m' h

/-! ## The payload that was signed -/


theorem computePayloadHash_object_eq_iff (hsha : Function.Injective sha256)
    {P P' : List (String × Json ν)} :
    computePayloadHash sha256 (.object P') = computePayloadHash sha256 (.object P) ↔
      namedPart (.obj P') = namedPart (.obj P) := by
  rw [← stringifySorted_eq_iff]
  constructor
  · intro h
    exact hsha (hexEncode_injective (String.ofList_injective h))
  · intro h
    rw [computePayloadHash, canonicalString, h]
    rfl

/-- The hash of a session is that of the payload that it was created with, in
every run. -/
theorem payloadHash_preserved (sha256 : String → List UInt8) :
    Preserved sha256 (fun _ _ => True)
      fun (p : CreateSessionParams ν) session =>
        session.payloadHash = computePayloadHash sha256 p.operationPayload where
  create _ h := (createSession_eq_ok h).2.2.1
  sign _ _ _ h := h
  reject _ _ _ h := h
  consume _ _ _ _ h := h

/-- The error for another payload. -/
def IsStale (e : SdkError) : Prop := e.code = "STALE_PAYLOAD_HASH"

/-- When a call throws `STALE_PAYLOAD_HASH`. -/
theorem throws_stale_iff {now later : Int}
    {params : AddSignatureParams ν} {allowReplace : Bool} {m : Manager} {session : SignerSession}
    (hl : m.sessions.lookup sessionId = some session) :
    Method.Throws IsStale (applySignature sha256 now later sessionId params allowReplace) m ↔
      SignatureParamsOk now session params ∧
        ∃ payload ∈ params.operationPayload, computePayloadHash sha256 payload ≠ session.payloadHash := by
  have hget : ∀ f : SignerSession → Method SdkError Manager SignerSession,
      Method.Throws IsStale (getOrThrowSession sessionId >>= f) m ↔ Method.Throws IsStale (f session) m := by
    intro f
    rw [Method.Throws, Method.bind_of_ok (getOrThrowSession_eq_ok.mpr ⟨hl, rfl⟩)]
    rfl
  have hinactive : ∀ e, assertSessionActive now session = .error e → ¬ IsStale e := by
    intro e he
    unfold assertSessionActive throwIf at he
    split at he
    · cases he
      simp [IsStale, quorumSessionError]
    · split at he <;> cases he
      simp [IsStale, quorumSessionError]
  have hrest : ∀ session' : SignerSession, ¬ Method.Throws IsStale
      (do
        modify fun m => { m with usedNonces := m.usedNonces ++ [params.nonce] }
        setSession sessionId session'
        pure session' : Method SdkError Manager SignerSession) m := by
    rintro session' ⟨e, he, -⟩
    cases he
  rw [applySignature, hget, Method.throws_lift_bind]
  simp only [Method.throws_throwIf_bind, Method.throws_get_bind, hrest]
  simp only [IsStale, quorumSessionError, String.reduceEq, and_false, and_true, false_or, or_false,
    not_not, Bool.not_eq_true, assertSessionActive_eq_ok, exists_and_left, exists_const]
  constructor
  · rintro (⟨e, he, hs⟩ | ⟨⟨hc, hexp⟩, h₁, h₂, h₃, h₄, h₅⟩)
    · exact absurd hs (hinactive e he)
    · exact ⟨⟨hc, hexp, h₁, h₂, h₃, h₄⟩, h₅⟩
  · rintro ⟨⟨hc, hexp, h₁, h₂, h₃, h₄⟩, h₅⟩
    exact .inr ⟨⟨hc, hexp⟩, h₁, h₂, h₃, h₄, h₅⟩

/-- For a call that sends an object along: it is recorded only if the object is
that of the session, and refused as stale, without a change, if it is not. -/
def BindsPayload (sha256 : String → List UInt8) (now later : Int) (sessionId : String)
    (params : AddSignatureParams ν) (allowReplace : Bool) (P P' : List (String × Json ν)) (m : Manager) : Prop :=
  ((∃ session' m', applySignature sha256 now later sessionId params allowReplace m = .ok session' m') →
    SameJson (.obj P') (.obj P)) ∧
  (¬ SameJson (.obj P') (.obj P) →
    ∃ e, applySignature sha256 now later sessionId params allowReplace m = .error e m ∧
      e.code = "STALE_PAYLOAD_HASH")

/-- In every run, a session created with the object `P` binds a signature that
comes with `P'` just when the two are the same, or the parameters pass the
checks before that of the payload and the two differ in what is hashed of
them. -/
theorem signature_payload_bound_iff {sha256 : String → List UInt8} (hsha : Function.Injective sha256)
    {w : World ν} (h : ReachableWorld sha256 (fun _ _ => True) w) {sessionId : String} {session : SignerSession}
    (hl : w.manager.sessions.lookup sessionId = some session) {p : CreateSessionParams ν}
    (hp : w.created.lookup sessionId = some p) {P : List (String × Json ν)}
    (hP : p.operationPayload = .object P) (now later : Int) {params : AddSignatureParams ν}
    {P' : List (String × Json ν)} (hP' : params.operationPayload = some (.object P')) (allowReplace : Bool) :
    BindsPayload sha256 now later sessionId params allowReplace P P' w.manager ↔
      SameJson (.obj P') (.obj P) ∨
        SignatureParamsOk now session params ∧ namedPart (.obj P') ≠ namedPart (.obj P) := by
  obtain ⟨p', hp', hhash⟩ := reachable_sessions (payloadHash_preserved sha256) h _ _ hl
  obtain rfl : p = p' := Option.some.inj (hp.symm.trans hp')
  have hstale : (∃ payload ∈ params.operationPayload, computePayloadHash sha256 payload ≠ session.payloadHash) ↔
      namedPart (.obj P') ≠ namedPart (.obj P) := by
    rw [hhash, hP, hP', ne_eq, ← computePayloadHash_object_eq_iff hsha]
    simp
  have hthrows := @throws_stale_iff _ _ sessionId sha256 now later params allowReplace _ _ hl
  rw [hstale] at hthrows
  by_cases hsame : SameJson (.obj P') (.obj P)
  · exact iff_of_true ⟨fun _ => hsame, fun hn => absurd hsame hn⟩ (.inl hsame)
  · rw [or_iff_right hsame, ← hthrows]
    constructor
    · exact fun hb => hb.2 hsame
    · rintro ⟨e, he, hcode⟩
      refine ⟨?_, fun _ => ⟨e, he, hcode⟩⟩
      rintro ⟨session', m', hok⟩
      rw [he] at hok
      cases hok

/-- SHA-256 as it is on the payloads below. -/
def sha256OfRuns : String → List UInt8 := hashFrom
  [("\x7b\"run\":\"2026-01\",\"totals\":\x7b\x7d\x7d", digest "177575c613f4bee2ca69184ce93d4a3e2e963afd83bd02c875269af9bc8d3bdb"),
    ("\x7b\"run\":\"2026-02\",\"totals\":\x7b\x7d\x7d", digest "7e28f09f187949b81b06188df44943d8115a03f35d357f00affd06e0f7627054")]

theorem sha256OfRuns_injective : Function.Injective sha256OfRuns :=
  hashFrom_injective (by decide +kernel) (by decide +kernel)

/-- A payroll run with its totals in an object inside the payload. -/
def payrollRun (run amount : String) : List (String × Json Int) :=
  [("run", .str run), ("totals", .obj [("amount", .str amount)])]

def runSessionParams : CreateSessionParams Int where
  sessionId := some "sess_1"
  payrollRunId := "run_1"
  operationPayload := .object (payrollRun "2026-01" "100")
  requiredRoles := [.payroll_admin]

/-- The world after the session is created. -/
def runCreated : World Int := runAll sha256OfRuns [.createSession 0 "" runSessionParams]

/-- A signature that comes with a payload. -/
def signRun (run amount : String) : AddSignatureParams Int where
  signerAddress := "GALICE"
  role := .payroll_admin
  signatureHex := "aa"
  operationPayload := some (.object (payrollRun run amount))
  nonce := "n1"

theorem namedPart_run : namedPart (.obj (payrollRun "2026-02" "100")) ≠
    namedPart (.obj (payrollRun "2026-01" "100")) := by
  decide +kernel

/-- A signature for another run is refused. -/
theorem signature_binds_run :
    (∃ session, runCreated.manager.sessions.lookup "sess_1" = some session) ∧
      BindsPayload sha256OfRuns 1 1 "sess_1" (signRun "2026-02" "100") false
        (payrollRun "2026-01" "100") (payrollRun "2026-02" "100") runCreated.manager :=
  ⟨⟨_, rfl⟩, (signature_payload_bound_iff sha256OfRuns_injective (reachable_runAll _ _) rfl
    (p := runSessionParams) rfl rfl 1 1 rfl false).mpr
      (.inr ⟨⟨rfl, by decide, by decide, by decide, by decide, by decide⟩, namedPart_run⟩)⟩

/-- A signature for another amount in the totals is recorded. -/
theorem recorded_with_other_totals :
    Function.Injective sha256OfRuns ∧ ReachableWorld sha256OfRuns (fun _ _ => True) runCreated ∧
      runCreated.created.lookup "sess_1" = some runSessionParams ∧
      ¬ BindsPayload sha256OfRuns 1 1 "sess_1" (signRun "2026-01" "900") false
        (payrollRun "2026-01" "100") (payrollRun "2026-01" "900") runCreated.manager := by
  refine ⟨sha256OfRuns_injective, reachable_runAll _ _, rfl, fun hb => ?_⟩
  have hsame : ¬ SameJson (.obj (payrollRun "2026-01" "900")) (.obj (payrollRun "2026-01" "100")) := by
    decide +kernel
  exact hsame (hb.1 ⟨_, _, rfl⟩)

end ZkPayroll.Sessions
