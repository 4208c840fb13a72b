import ZkPayroll.Payroll.SubmissionRuns
import ZkPayroll.Payroll.BatchAccounting

/-!
# Chains of runs

A run can be left at any point: it returns, or its process stops. The caller
then resumes with a token that it was handed out (`HandedOut`), and so on
(`Resumed`). If in every run no batch failed without stopping the run before
the token was handed out, and no batch resolved after it, then the next run
skips the batches that have resolved in the chain, and submits none of them
again (`resumed_run_exact`).
-/

namespace ZkPayroll.Payroll

open Framework ZkPayroll.Core Batch

variable {T : Type} {host : Host} {entries : List T} {options : SafeBatchSubmissionOptions}

/-- A token that a run has handed out when it is left: what happened before it
was handed out, and after. -/
inductive HandedOut {R : Type} (run : Run R) : (before after : List (Effect R)) → (token : String) → Prop
  | checkpoint {before after rest : List (Effect R)} {token : String}
      (h : run.effects = before ++ .onCheckpoint token :: (after ++ rest)) : HandedOut run before after token
  | returned {r : SafeBatchSubmissionResult R} {detail : SafeBatchErrorDetail} {token : String}
      (hr : run.outcome = .ok r) (he : r.error = some detail) (ht : detail.resumeToken = some token) :
      HandedOut run run.effects [] token

/-- A token that stands for the progress of its run: no batch was passed over
before it was handed out, and none has resolved since. -/
structure UpToDate {R : Type} (options : SafeBatchSubmissionOptions) (before after : List (Effect R)) : Prop where
  no_failure_passed : options.stops = true ∨ ∀ i ∈ started before, ∃ j ∈ resolved before, i = (j : Nat)
  no_later_success : resolved after = []

/-- In a run that is up to date, a batch that was tried before the token was
handed out has resolved. -/
theorem UpToDate.resolves {R : Type} {env : Environment R} {before after : List (Effect R)} {s k j : Nat}
    (hu : UpToDate options before after)
    (hmem : ∀ i, i ∈ resolved before ↔ s ≤ i ∧ i < k ∧ Resolves entries options env i)
    (htried : (j : Int) ∈ started before ∧ (options.stops = true → Resolves entries options env j)) :
    Resolves entries options env j := by
  rcases hu.no_failure_passed with hst | hall
  · exact htried.2 hst
  · obtain ⟨j', hj', heq⟩ := hall _ htried.1
    obtain rfl : j = j' := by omega
    exact ((hmem j).mp hj').2.2

variable [PayrollEntry T]

/-- The token that the caller holds after a chain of runs on `entries` with
one batch size, and the batches whose submission has resolved in them. -/
inductive Resumed (host : Host) (entries : List T) (batchSize : Int) : (token : String) → (done : List Nat) → Prop
  | first {R : Type} {options : SafeBatchSubmissionOptions} {env : Environment R}
      {before after : List (Effect R)} {token : String} (hb : options.effectiveBatchSize = batchSize)
      (ht : options.resumeToken = none)
      (hh : HandedOut (submitSequentialPayrollBatches host entries options env) before after token)
      (hu : UpToDate options before after) :
      Resumed host entries batchSize token (resolved before ++ resolved after)
  | again {R : Type} {options : SafeBatchSubmissionOptions} {env : Environment R}
      {before after : List (Effect R)} {token held : String} {done : List Nat}
      (hd : Resumed host entries batchSize held done) (hb : options.effectiveBatchSize = batchSize)
      (ht : options.resumeToken = some held)
      (hh : HandedOut (submitSequentialPayrollBatches host entries options env) before after token)
      (hu : UpToDate options before after) :
      Resumed host entries batchSize token (done ++ (resolved before ++ resolved after))

/-- A token that resumes `entries` at batch `k`. -/
def IsTokenAt (host : Host) (entries : List T) (batchSize : Int) (token : String) (k : Nat) : Prop :=
  ∃ items t, k ≤ totalPages entries.length batchSize.toNat ∧
    token = createBatchResumeToken host entries k items (totalPages entries.length batchSize.toNat) batchSize t

theorem isTokenAt_makeResumeToken {R : Type} {env : Environment R} {i k : Nat} {items : Int}
    (hk : k ≤ totalBatches entries options) :
    IsTokenAt host entries options.effectiveBatchSize
      (makeResumeToken host entries options env i k items) k := by
  rw [totalBatches, length_batchPages] at hk
  refine ⟨items, env.now i, hk, ?_⟩
  rw [makeResumeToken, totalBatches, length_batchPages]

variable (options) in
/-- A run with a token at batch `k` starts there. -/
theorem resumePoint_of_isTokenAt {token : String} {k : Nat} (hb : 0 < options.effectiveBatchSize)
    (ht : options.resumeToken = some token)
    (h : IsTokenAt host entries options.effectiveBatchSize token k) :
    ∃ items, resumePoint host entries options = .ok ((k : Int), items) := by
  obtain ⟨items, t, hk, rfl⟩ := h
  refine ⟨items, ?_⟩
  rw [resumePoint, ht]
  simp only [createBatchResumeToken_ne_empty, if_false]
  rw [resolveResumeStart_self host entries hb (by omega) (by omega)]
  rfl

theorem errorToken_eq {R : Type} {env : Environment R} {i n : Nat} {items : Int} {token : String}
    (h : errorToken host entries options env i n items = some token) :
    token = makeResumeToken host entries options env i i items := by
  rw [errorToken] at h
  split at h
  · exact (Option.some.inj h).symm
  · cases h

/-- The token in the error of a loop that stops at batch `s + t`. -/
theorem LoopEnd.token {R : Type} {env : Environment R} {s m t : Nat} {p : Progress R}
    {r : SafeBatchSubmissionResult R} {detail : SafeBatchErrorDetail} {token : String}
    (h : LoopEnd host entries options env s m p t r) (hd : r.error = some detail)
    (ht : detail.resumeToken = some token) :
    t < m ∧ (∃ items, token = makeResumeToken host entries options env (s + t) (s + t) items) ∧
      (options.stops = true → ∀ i, s ≤ i → i < s + t → Resolves entries options env i) := by
  cases h with
  | completed _ => cases hd
  | cancelled ht' _ h =>
    obtain rfl := Option.some.inj hd
    exact ⟨ht', ⟨_, errorToken_eq ht⟩, h⟩
  | failed ht' _ _ _ h =>
    obtain rfl := Option.some.inj hd
    exact ⟨ht', ⟨_, errorToken_eq ht⟩, fun _ => h⟩

/-- A run whose effects are quiet, and whose result has no error, hands out no
token. -/
theorem not_handedOut {R : Type} {run : Run R} {before after : List (Effect R)} {token : String}
    (hq : ∀ e ∈ run.effects, e.Quiet) (hr : ∀ r, run.outcome = .ok r → r.error = none) :
    ¬ HandedOut run before after token := by
  intro h
  cases h with
  | checkpoint h => exact (hq _ (h ▸ by simp)).2.2 token rfl
  | returned hr' he _ => rw [hr _ hr'] at he; cases he

/-- One run of a chain: from batch `s`, it hands out a token at a batch `k` up
to which all batches from `s` on have resolved. -/
theorem handedOut_step {R : Type} {env : Environment R} {before after : List (Effect R)} {token : String}
    {s : Nat} (hstart : ∀ s' items, resumePoint host entries options = .ok (s', items) → s' = (s : Int))
    (hh : HandedOut (submitSequentialPayrollBatches host entries options env) before after token)
    (hu : UpToDate options before after) :
    0 < options.effectiveBatchSize ∧ 0 < entries.length ∧
      ∃ k, s ≤ k ∧ IsTokenAt host entries options.effectiveBatchSize token k ∧
        ∀ i, i ∈ resolved before ++ resolved after ↔ s ≤ i ∧ i < k := by
  have hexit := submit_exit host entries options env
  generalize submitSequentialPayrollBatches host entries options env = run at hexit hh
  cases hexit with
  | invalidSize _ => exact absurd hh (not_handedOut (by simp) (by simp))
  | refused _ _ _ => exact absurd hh (not_handedOut (by simp) (by simp))
  | empty _ _ he => exact absurd hh (not_handedOut (by simpa using he) (by simp [emptyResult]))
  | covered _ _ _ he hf =>
    exact absurd hh (not_handedOut (by simpa using ⟨he, hf⟩) (by simp [coveredResult]))
  | @ran e s' items hb hn hr hs he rest hrest =>
    obtain rfl : s' = s := by have := hstart _ _ hr; omega
    refine ⟨hb, hn, ?_⟩
    cases hh with
    | @checkpoint before after rest' token h =>
      cases before with
      | nil => exact absurd (List.cons.inj h).1 (he.2.2 token)
      | cons e' pre =>
        obtain ⟨rfl, h'⟩ := List.cons.inj h
        obtain ⟨i, items', hsi, hin, rfl, hmem, htried, -⟩ := submitFrom_checkpoint ((congrArg _ hrest).trans h')
        have hmem' : ∀ j, j ∈ resolved (e :: pre) ↔ s' ≤ j ∧ j < i + 1 ∧ Resolves entries options env j := by
          intro j
          rw [he.resolved_cons, hmem, Nat.lt_succ_iff]
        refine ⟨i + 1, by omega, isTokenAt_makeResumeToken (by omega), fun j => ?_⟩
        rw [hu.no_later_success, List.append_nil, hmem']
        refine ⟨fun ⟨h₁, h₂, _⟩ => ⟨h₁, h₂⟩, fun ⟨h₁, h₂⟩ => ⟨h₁, h₂, hu.resolves hmem' ?_⟩⟩
        obtain ⟨h₃, h₄⟩ := htried j h₁ (by omega)
        exact ⟨(started_append [e] pre).symm ▸ List.mem_append_right _ h₃, h₄⟩
    | @returned r detail token hr' hd ht =>
      obtain rfl : rest.2 = r := Except.ok.inj hr'
      obtain ⟨t, htried, hres, hend⟩ := submitFrom_ends host entries options env
        (totalBatches entries options - s') s'
        { batchesSucceeded := s', itemsProcessed := items, results := [] }
      have hmem := fun i => mem_resolved_submitFrom hres i
      rw [hrest] at hmem hend htried
      obtain ⟨ht', ⟨items', rfl⟩, hstops⟩ := hend.token hd ht
      have hmem' : ∀ j, j ∈ resolved (e :: rest.1) ↔
          s' ≤ j ∧ j < s' + t ∧ Resolves entries options env j := by
        intro j
        rw [he.resolved_cons, hmem]
      refine ⟨s' + t, by omega, isTokenAt_makeResumeToken (by omega), fun j => ?_⟩
      change j ∈ resolved (e :: rest.1) ++ [] ↔ _
      rw [List.append_nil, hmem']
      refine ⟨fun ⟨h₁, h₂, _⟩ => ⟨h₁, h₂⟩, fun ⟨h₁, h₂⟩ => ⟨h₁, h₂, hu.resolves hmem' ⟨?_, fun hst => ?_⟩⟩⟩
      · exact (started_append [e] rest.1).symm ▸ List.mem_append_right _ (htried j h₁ h₂).2
      · exact hstops hst j h₁ h₂

/-- The tokens of a chain: at a batch before which all batches have resolved,
and no others. -/
theorem resumed_isTokenAt {batchSize : Int} {token : String} {done : List Nat}
    (h : Resumed host entries batchSize token done) :
    0 < batchSize ∧ 0 < entries.length ∧
      ∃ k, IsTokenAt host entries batchSize token k ∧ ∀ i, i ∈ done ↔ i < k := by
  induction h with
  | @first R options env before after token hb ht hh hu =>
    have hstart : ∀ s' items, resumePoint host entries options = .ok (s', items) → s' = ((0 : Nat) : Int) := by
      intro s' items hr
      rw [resumePoint, ht] at hr
      exact (Prod.mk.inj (Except.ok.inj hr)).1.symm
    obtain ⟨hpos, hn, k, -, htoken, hmem⟩ := handedOut_step hstart hh hu
    refine ⟨hb ▸ hpos, hn, k, hb ▸ htoken, fun i => ?_⟩
    rw [hmem]
    omega
  | @again R options env before after token held done hd hb ht hh hu ih =>
    obtain ⟨hpos, hn, k₀, htoken₀, hmem₀⟩ := ih
    subst hb
    obtain ⟨items, hr₀⟩ := resumePoint_of_isTokenAt _ hpos ht htoken₀
    have hstart : ∀ s' items, resumePoint host entries options = .ok (s', items) → s' = ((k₀ : Nat) : Int) := by
      intro s' items' hr
      exact (Prod.mk.inj (Except.ok.inj (hr₀.symm.trans hr))).1.symm
    obtain ⟨-, -, k, hk, htoken, hmem⟩ := handedOut_step hstart hh hu
    refine ⟨hpos, hn, k, htoken, fun i => ?_⟩
    rw [List.mem_append, hmem₀, hmem]
    omega

/-- In a chain of runs whose tokens are up to date, the next run skips just
the batches that have resolved, and submits none of them again. -/
theorem resumed_run_exact {R : Type} {env : Environment R} {batchSize : Int} {token : String}
    {done : List Nat} (h : Resumed host entries batchSize token done)
    (hb : options.effectiveBatchSize = batchSize) (ht : options.resumeToken = some token) :
    (∀ i, i < startBatch host entries options ↔ i ∈ done) ∧
      ∀ i ∈ submitted (submitSequentialPayrollBatches host entries options env).effects, i ∉ done := by
  obtain ⟨hpos, hn, k, htoken, hmem⟩ := resumed_isTokenAt h
  subst hb
  obtain ⟨items, hr⟩ := resumePoint_of_isTokenAt _ hpos ht htoken
  refine ⟨fun i => by rw [startBatch_eq hn hr, hmem], fun i hi => ?_⟩
  have hexit := submit_exit host entries options env
  generalize submitSequentialPayrollBatches host entries options env = run at hexit hi
  rw [hmem]
  cases hexit with
  | invalidSize _ => cases hi
  | refused _ _ _ => cases hi
  | empty _ hn' _ => omega
  | covered _ _ _ he hf => rw [submitted, he.calls_cons, hf.calls_cons] at hi; cases hi
  | ran _ _ hr' _ he hrest =>
    obtain ⟨hs, -⟩ := Prod.mk.inj (Except.ok.inj (hr.symm.trans hr'))
    rw [submitted, he.calls_cons, ← submitted, ← hrest] at hi
    have := le_of_mem_submitted _ _ _ i hi
    omega

/-- The first of two batches is paid, and the second one refused. -/
def secondRefused : Environment PaymentResult where
  submitBatchFn batchIndex _ :=
    if batchIndex = 0 then .ok [{ txHash := "tx-alice", publicSignals := [] }]
    else .error (networkError "Forbidden" (some 403))
  aborted _ := false
  sleep _ _ := true
  now _ := 0

/-- After a run that stops at its second batch, the next run skips the first
one only. -/
theorem resumed_run_aliceBob : ∃ token,
    (∀ i, i < startBatch plainHost aliceBob { batchSize := some 1, resumeToken := some token } ↔ i ∈ [0]) ∧
      ∀ i ∈ submitted (submitSequentialPayrollBatches plainHost aliceBob
        { batchSize := some 1, resumeToken := some token } firstRefused).effects, i ∉ [0] := by
  have hh : HandedOut (submitSequentialPayrollBatches plainHost aliceBob { batchSize := some 1 } secondRefused)
      _ [] _ := .returned rfl rfl rfl
  exact ⟨_, resumed_run_exact (.first rfl rfl hh ⟨.inl rfl, rfl⟩) rfl rfl⟩

/-- A run that goes on after its first batch has failed hands out a token with
which the next run skips that batch. -/
theorem failed_batch_skipped : ∃ token,
    .onCheckpoint token ∈ (submitSequentialPayrollBatches plainHost aliceBob
        { batchSize := some 1, stopOnFirstFailure := some false } firstRefused).effects ∧
      0 ∉ resolved (submitSequentialPayrollBatches plainHost aliceBob
        { batchSize := some 1, stopOnFirstFailure := some false } firstRefused).effects ∧
      0 < startBatch plainHost aliceBob { batchSize := some 1, resumeToken := some token } := by
  refine ⟨makeResumeToken plainHost aliceBob { batchSize := some 1, stopOnFirstFailure := some false }
    firstRefused 1 2 1, List.mem_of_getElem? (i := 11) rfl, by decide +kernel, ?_⟩
  obtain ⟨items, hr⟩ := resumePoint_of_isTokenAt
    { batchSize := some 1, resumeToken := some (makeResumeToken plainHost aliceBob
      { batchSize := some 1, stopOnFirstFailure := some false } firstRefused 1 2 1) }
    (by decide) rfl (isTokenAt_makeResumeToken (by decide))
  rw [startBatch_eq (by decide) hr]
  decide

end ZkPayroll.Payroll
