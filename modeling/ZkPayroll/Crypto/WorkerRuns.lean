import ZkPayroll.Crypto.PendingRequests

/-!
# Runs of a proof generator

A request settles when it is taken off the table, but for one whose
`postMessage` throws: it stays there, with its timer. In the runs in which that
does not happen (`Posted`) each request settles once, the table has those that
have not, and a proof is the answer to its own request or to the one it has
joined (`settled_once`). A step that is not posted leaves a settled request on
the table (`safe_step_iff`).
-/

namespace ZkPayroll.Crypto

open Framework ZkPayroll.Core Core.Idempotency

variable {ν P : Type} [NumberFormat ν]

/-- What a generator owes its callers. -/
structure Safe (g : WorkerProofGenerator ν P) : Prop where
  once {r : Request ν P} : r ∈ g.requests → r.settlements.length ≤ 1
  resolved {p : ProofCall} {v : Option P} : p ∈ g.proofs → g.outcome p.promise = some (.ok v) →
    ∃ n r payload, g.request p.promise = some n ∧ g.requests[n]? = some r ∧ r.message.key = some p.key ∧
      v = some payload ∧ .proofResult r.message.id payload ∈ g.received
  inFlight {k : String} {e : IdempotencyEntry} : (k, e) ∈ g.dedup.entries →
    ∃ c, g.dedup.calls[e.call]? = some c ∧ c.key = k ∧ c.isOpen = true
  pending {id : String} {n : Nat} : (id, n) ∈ g.pending ↔
    ∃ r, g.requests[n]? = some r ∧ r.message.id = id ∧ r.settlements = []

/-- Where a request is dispatched, `postMessage` does not throw. -/
def Posted (g : WorkerProofGenerator ν P) : WorkerEvent ν P → Prop
  | .generateProof (.ok witness) thrown =>
    (g.dedupEnabled = true → g.dedup.entries.lookup (witnessKey witness) = none) → thrown = none
  | .preloadArtifacts thrown | .clearCache thrown => thrown = none
  | _ => True

/-! ## Steps -/

theorem trim_witnessKey (witness : Witness ν) : trim (witnessKey witness) = witnessKey witness := by
  obtain ⟨cs, h⟩ := stringifyChars_obj_last witness
  have hchars : (witnessKey witness).toList = 'p' :: ("roof:".toList ++ cs) ++ ['}'] := by
    rw [witnessKey, String.toList_append, stringify, String.toList_ofList, h]
    simp
  rw [trim, hchars, trimChars_eq_self (by decide) (by decide), ← hchars, String.ofList_toList]

theorem witnessKey_ne_empty (witness : Witness ν) : witnessKey witness ≠ "" := by
  intro h
  have hchars := congrArg String.toList h
  simp [witnessKey] at hchars

variable {g g' : WorkerProofGenerator ν P}

/-- A call of `generateProof` joins the call for its witness key, or dispatches
a request. -/
theorem Joined.generateProof_cases (h : Joined g) (witness : Witness ν) (thrown : Option SdkError) :
    (∃ c call, g.dedup.calls[c]? = some call ∧ call.key = witnessKey witness ∧ g.dedupEnabled = true ∧
      g.dedup.entries.lookup (witnessKey witness) ≠ none ∧
      g.generateProof (.ok witness) thrown = g.withProof (witnessKey witness) (.call c)) ∨
    (g.dedupEnabled = true → g.dedup.entries.lookup (witnessKey witness) = none) ∧
      (g.generateProof (.ok witness) thrown =
          ((g.nextId.2.dispatch (.generateProof g.nextId.1 witness) thrown).register (witnessKey witness)
            g.requests.length).withProof (witnessKey witness) (.call g.dedup.calls.length) ∨
        g.generateProof (.ok witness) thrown =
          (g.nextId.2.dispatch (.generateProof g.nextId.1 witness) thrown).withProof (witnessKey witness)
            (.request g.requests.length)) := by
  have hkey : normalizeIdempotencyKey (witnessKey witness) = witnessKey witness := trim_witnessKey witness
  have hne : normalizeIdempotencyKey (witnessKey witness) ≠ "" := by
    rw [hkey]
    exact witnessKey_ne_empty witness
  rcases hen : g.dedupEnabled with _ | _
  · exact .inr ⟨nofun, .inr (by simp [WorkerProofGenerator.generateProof, hen, WorkerProofGenerator.inner,
      WorkerProofGenerator.nextId])⟩
  · have hcases := h.registry.execute_cases hne
    rw [hkey] at hcases
    rcases hcases with ⟨e, c, he, hex, hc, hck⟩ | ⟨hnone, hex⟩
    · refine .inl ⟨e.call, c, hc, hck, rfl, by simp [he], ?_⟩
      simp [WorkerProofGenerator.generateProof, hen, hex]
    · refine .inr ⟨fun _ => hnone, .inl ?_⟩
      simp [WorkerProofGenerator.generateProof, hen, hex, WorkerProofGenerator.inner,
        WorkerProofGenerator.nextId, WorkerProofGenerator.returned, WorkerProofGenerator.register,
        WorkerProofGenerator.dispatch]

theorem Table.message (h : Table g) {msg : WorkerResponse P}
    (hfit : ∀ r ∈ g.requests, r.message.id = msg.id → msg.answers r.message = true) :
    Table { g.onMessage msg with received := g.received ++ [msg] } := by
  have hrec : Table { g with received := g.received ++ [msg] } :=
    h.congr rfl rfl rfl fun _ => List.mem_append_left _
  unfold WorkerProofGenerator.onMessage
  cases hl : g.pending.lookup msg.id with
  | none => exact hrec
  | some n =>
    obtain ⟨r, hr, hid, hs⟩ := h.pending.mp (lookup_mem hl)
    have hanswers := hfit r (List.mem_of_getElem? hr) hid
    cases msg with
    | proofResult id payload =>
      obtain rfl : r.message.id = id := hid
      refine hrec.settle hr hs fun v k hv _ => ?_
      obtain rfl : some payload = v := Except.ok.inj hv
      exact ⟨payload, rfl, by simp⟩
    | proofError id message =>
      obtain rfl : r.message.id = id := hid
      exact hrec.settle hr hs nofun
    | progress id => exact hrec
    | preloadDone id =>
      obtain rfl : r.message.id = id := hid
      refine hrec.settle hr hs fun v k _ hk => ?_
      cases hm : r.message <;> simp_all [WorkerResponse.answers, WorkerRequest.key]
    | cacheCleared id =>
      obtain rfl : r.message.id = id := hid
      refine hrec.settle hr hs fun v k _ hk => ?_
      cases hm : r.message <;> simp_all [WorkerResponse.answers, WorkerRequest.key]

theorem Joined.onMessage (h : Joined g) (msg : WorkerResponse P) : Joined (g.onMessage msg) := by
  unfold WorkerProofGenerator.onMessage
  split
  · exact h
  · cases msg with
    | progress id => exact h
    | proofResult id payload => exact h.settle _ _ _
    | proofError id message => exact h.settle _ _ _
    | preloadDone id => exact h.settle _ _ _
    | cacheCleared id => exact h.settle _ _ _

variable {e : WorkerEvent ν P}

theorem Table.step (h : Table g) (hj : Joined g) (hs : g.Step e g') (hp : Posted g e) :
    Table g' := by
  cases hs with
  | generateProof sanitized thrown =>
    cases sanitized with
    | error e => exact h
    | ok witness =>
      rcases hj.generateProof_cases witness thrown with ⟨_, _, _, _, _, _, heq⟩ | ⟨hnone, heq | heq⟩
      · rw [heq]
        exact h.congr rfl rfl rfl fun _ => id
      · obtain rfl : thrown = none := hp hnone
        rw [heq]
        exact (h.dispatch rfl).congr rfl rfl rfl fun _ => id
      · obtain rfl : thrown = none := hp hnone
        rw [heq]
        exact (h.dispatch rfl).congr rfl rfl rfl fun _ => id
  | preloadArtifacts thrown =>
    obtain rfl : thrown = none := hp
    exact h.dispatch rfl
  | clearCache thrown =>
    obtain rfl : thrown = none := hp
    exact h.dispatch rfl
  | terminate => exact (h.rejectAll _).congr rfl rfl rfl fun _ => id
  | message _ hfit => exact h.message hfit
  | workerError message _ => exact h.rejectAll _
  | timeout hr ht => exact h.settle hr ((h.timer hr).mp ht) nofun
  | settled _ _ _ _ _ => exact h.congr rfl rfl rfl fun _ => id
  | cleanup _ _ => exact h.congr rfl rfl rfl fun _ => id
  | tick _ => exact h.congr rfl rfl rfl fun _ => id

theorem Joined.step (h : Joined g) (ht : Table g) (hs : g.Step e g') : Joined g' := by
  cases hs with
  | generateProof sanitized thrown =>
    cases sanitized with
    | error e => exact h
    | ok witness =>
      have hnew : (g.nextId.2.dispatch (.generateProof g.nextId.1 witness) thrown).Proves (witnessKey witness)
          g.requests.length := ⟨_, (getElem?_concat_iff _ _ _ _).mpr (.inr ⟨rfl, rfl⟩), rfl⟩
      rcases h.generateProof_cases witness thrown with ⟨c, call, hc, hck, _, _, heq⟩ | ⟨_, heq | heq⟩
      · rw [heq]
        exact h.withProof (hck ▸ h.linked hc)
      · rw [heq]
        refine ((h.dispatch _ _).register hnew).withProof ⟨g.requests.length, ?_, hnew⟩
        exact (getElem?_concat_iff _ _ _ _).mpr (.inr ⟨h.length.symm, rfl⟩)
      · rw [heq]
        exact (h.dispatch _ _).withProof ⟨_, rfl, hnew⟩
  | preloadArtifacts thrown => exact h.dispatch _ _
  | clearCache thrown => exact h.dispatch _ _
  | terminate =>
    have hclear := (h.rejectAll ht (workerFailure "Worker was terminated" "0")).withDedup h.registry.clear rfl
      fun hc => ⟨_, hc, rfl⟩
    exact hclear.mono rfl rfl rfl id
  | message _ _ => exact (h.onMessage _).mono rfl rfl rfl id
  | workerError message _ => exact h.rejectAll ht _
  | timeout _ _ => exact h.settle _ _ _
  | settled hc _ _ _ _ => exact h.setCall hc (h.registry.settled hc _) rfl
  | cleanup hc _ => exact h.setCall hc (h.registry.cleanup hc _) rfl
  | tick ms => exact h.withDedup (h.registry.tick _) rfl fun hc => ⟨_, hc, rfl⟩

/-! ## What the invariants say -/

omit [NumberFormat ν] in
theorem outcome_eq {promise : ProofPromise} {n : Nat} (h : g.request promise = some n) :
    g.outcome promise = (g.requests[n]?).bind Request.outcome := by
  cases promise with
  | rejected e => cases h
  | request m =>
    rw [WorkerProofGenerator.outcome, h, Option.bind_some]
    simp
  | call c =>
    rw [WorkerProofGenerator.outcome, h, Option.bind_some]
    simp

theorem Table.safe (ht : Table g) (hj : Joined g) : Safe g where
  once hr := by
    obtain ⟨n, hn⟩ := List.mem_iff_getElem?.mp hr
    exact ht.once hn
  resolved hp ho := by
    rcases hj.proofs hp with ⟨e, he⟩ | ⟨n, hn, r, hr, hk⟩
    · rw [he] at ho
      cases ho
    · rw [outcome_eq hn, hr, Option.bind_some] at ho
      obtain ⟨payload, hv, hmem⟩ := ht.answered hr ho hk
      exact ⟨n, r, payload, hn, hr, hk, hv, hmem⟩
  inFlight he := (hj.registry.entries he).2
  pending := ht.pending

/-- A request that was dispatched in vain is on the table. -/
theorem Safe.thrown_eq_none (h : Safe g') {req : WorkerRequest ν} {thrown : Option SdkError}
    (hr : g'.requests = (g.nextId.2.dispatch req thrown).requests)
    (hp : g'.pending = (g.nextId.2.dispatch req thrown).pending) : thrown = none := by
  have hmem : (req.id, g.requests.length) ∈ g'.pending := by
    rw [hp]
    exact lookup_mem (by simp [WorkerProofGenerator.dispatch, WorkerProofGenerator.nextId])
  obtain ⟨r, hget, -, hs⟩ := h.pending.mp hmem
  have hlast : g'.requests[g.requests.length]? =
      some { message := req, settlements := thrown.toList.map .error } := by
    rw [hr]
    simp [WorkerProofGenerator.dispatch, WorkerProofGenerator.nextId]
  rw [hlast] at hget
  obtain rfl := Option.some.inj hget
  simpa using hs

/-- A step keeps what is owed exactly when it posts what it dispatches. -/
theorem safe_step_iff (ht : Table g) (hj : Joined g) (hs : g.Step e g') : Safe g' ↔ Posted g e := by
  refine ⟨fun h => ?_, fun hp => (ht.step hj hs hp).safe (hj.step ht hs)⟩
  cases hs with
  | generateProof sanitized thrown =>
    cases sanitized with
    | error e => trivial
    | ok witness =>
      intro hno
      rcases hj.generateProof_cases witness thrown with ⟨_, _, _, _, hen, hsome, _⟩ | ⟨_, heq | heq⟩
      · exact absurd (hno hen) hsome
      · rw [heq] at h
        exact h.thrown_eq_none rfl rfl
      · rw [heq] at h
        exact h.thrown_eq_none rfl rfl
  | preloadArtifacts thrown => exact h.thrown_eq_none rfl rfl
  | clearCache thrown => exact h.thrown_eq_none rfl rfl
  | _ => trivial

/-! ## Runs -/

/-- A generator that was just made. -/
structure NewWorkerGenerator (g : WorkerProofGenerator ν P) : Prop where
  requests : g.requests = []
  pending : g.pending = []
  seq : g.seq = 0
  dedup : g.dedup.entries = [] ∧ g.dedup.calls = [] ∧ g.dedup.defaultTtlMs = 0
  dispatched : g.dispatched = []
  proofs : g.proofs = []

/-- The states that runs reach whose steps all meet the condition `ok`. -/
abbrev ReachableWorker (ok : WorkerProofGenerator ν P → WorkerEvent ν P → Prop) (g : WorkerProofGenerator ν P) :
    Prop :=
  Reachable NewWorkerGenerator (fun g g' => ∃ e, ok g e ∧ g.Step e g') g

theorem ReachableWorker.next {ok : WorkerProofGenerator ν P → WorkerEvent ν P → Prop} (h : ReachableWorker ok g)
    (hs : g.Step e g') (he : ok g e) : ReachableWorker ok g' :=
  Reachable.next h ⟨e, he, hs⟩

theorem NewWorkerGenerator.table (h : NewWorkerGenerator g) : Table g := by
  constructor <;> simp [h.requests, h.pending, h.seq]

theorem NewWorkerGenerator.joined (h : NewWorkerGenerator g) : Joined g := by
  have hregistry : InFlight g.dedup := by
    constructor <;> simp [h.dedup.1, h.dedup.2.1, h.dedup.2.2]
  constructor <;> simp [h.dedup.2.1, h.dispatched, h.proofs, hregistry]

theorem invariants_of_reachable (h : ReachableWorker Posted g) : Table g ∧ Joined g := by
  refine Reachable.invariant (I := fun g => Table g ∧ Joined g) (fun g hg => ⟨hg.table, hg.joined⟩) ?_ h
  intro g g' hinv hs
  obtain ⟨e, hp, hs⟩ := hs
  exact ⟨hinv.1.step hinv.2 hs hp, hinv.2.step hinv.1 hs⟩

/-- The events that settle all requests. -/
def WorkerEvent.closes : WorkerEvent ν P → Bool
  | .terminate | .workerError _ => true
  | _ => false

/-- In a run whose requests are all posted, each settles once, a proof is the
answer to its request, and the table has those that have not settled: none after
the end of the worker or its failure. -/
theorem settled_once (h : ReachableWorker Posted g) :
    Safe g ∧ ∀ (e : WorkerEvent ν P) (g' : WorkerProofGenerator ν P), g.Step e g' → e.closes = true →
      g'.pending = [] ∧ ∀ r ∈ g'.requests, r.settlements ≠ [] := by
  obtain ⟨ht, hj⟩ := invariants_of_reachable h
  refine ⟨ht.safe hj, fun e g' hs hclose => ?_⟩
  have hall : ∀ err, ∀ r ∈ (g.rejectAll err).requests, r.settlements ≠ [] := by
    intro err r hr
    obtain ⟨n, hn⟩ := List.mem_iff_getElem?.mp hr
    exact (ht.settled_of_rejectAll hn).1
  cases hs with
  | terminate => exact ⟨rfl, hall _⟩
  | workerError message _ => exact ⟨rfl, hall _⟩
  | _ => cases hclose

/-- A generator that was just made, with the default options. -/
def newWorkerGenerator : WorkerProofGenerator Int Nat where
  options := {}
  requests := []
  pending := []
  seq := 0
  dedup := { entries := [], defaultTtlMs := 0, calls := [], now := 0 }
  dispatched := []
  proofs := []
  listening := true
  received := []

theorem newWorkerGenerator_new : NewWorkerGenerator newWorkerGenerator := ⟨rfl, rfl, rfl, ⟨rfl, rfl, rfl⟩, rfl, rfl⟩

/-- A proof is asked for twice and made once. -/
theorem proof_shared :
    ∃ g : WorkerProofGenerator Int Nat,
      g.proofs.map (fun p => g.outcome p.promise) = [some (.ok (some 7)), some (.ok (some 7))] ∧
      (Safe g ∧ ∀ (e : WorkerEvent Int Nat) (g' : WorkerProofGenerator Int Nat), g.Step e g' → e.closes = true →
        g'.pending = [] ∧ ∀ r ∈ g'.requests, r.settlements ≠ []) := by
  have h₀ : ReachableWorker Posted newWorkerGenerator := Reachable.start newWorkerGenerator_new
  have h₁ := h₀.next (.generateProof (.ok []) none) fun _ => rfl
  have h₂ := h₁.next (.generateProof (.ok []) none) fun _ => rfl
  have h₃ := h₂.next (e := .message (.proofResult (toString 0) 7)) (.message rfl (by decide)) trivial
  exact ⟨_, rfl, settled_once h₃⟩

/-- The worker cannot be posted to: the request is rejected, and stays on the
table. -/
theorem unposted_pending :
    ∃ g : WorkerProofGenerator Int Nat, ReachableWorker (fun _ _ => True) g ∧ ¬Safe g := by
  have h₀ : ReachableWorker (fun _ _ => True) newWorkerGenerator := Reachable.start newWorkerGenerator_new
  have h₁ := h₀.next (.preloadArtifacts (some (genericError "DataCloneError"))) trivial
  refine ⟨_, h₁, fun h => ?_⟩
  have hnone : some (genericError "DataCloneError") = none := h.thrown_eq_none (g := newWorkerGenerator) rfl rfl
  cases hnone

end ZkPayroll.Crypto
