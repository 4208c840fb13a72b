import ZkPayroll.Payroll.SubmissionRuns

/-!
# The law of the calls of a run

Which calls of `submitBatchFn` a run of the submitter can make
(`SubmissionLaw`). The signal is one that stays aborted once it is
(`AbortSignal`): the moments of a run are ordered by batch, then by attempt,
then by the place in the attempt.

A call is made by an attempt of its batch, after attempts that were all retried
(`mem_calls_submitAttempts`); `Rounds` is what the loop keeps of the batches it
starts, one round at a time. `mem_calls_run` gives the calls of a run in terms of
its inputs.
-/

namespace ZkPayroll.Payroll

open Framework ZkPayroll.Core Batch

variable {T R : Type} {host : Host} {entries : List T} {options : SafeBatchSubmissionOptions}
  {env : Environment R}

/-! ## The signal -/

/-- A moment of a run: in a batch, at an attempt (0 before the first one), and
in the attempt (0 when it starts, 1 when it has failed, 2 when the sleep after
it ends or rejects). -/
structure Moment where
  batchIndex : Nat
  attempt : Nat
  place : Nat

instance : LE Moment where
  le m n := m.batchIndex < n.batchIndex ∨ m.batchIndex = n.batchIndex ∧
    (m.attempt < n.attempt ∨ m.attempt = n.attempt ∧ m.place ≤ n.place)

/-- When `signal.aborted` is read. -/
def AbortRead.moment : AbortRead → Moment
  | .batchStart i => ⟨i, 0, 0⟩
  | .attemptStart i k => ⟨i, k, 0⟩
  | .afterFailure i k => ⟨i, k, 1⟩

/-- An `AbortSignal`: once aborted, it stays so. -/
structure AbortSignal where
  abortedAt : Moment → Bool
  stays {m n : Moment} : m ≤ n → abortedAt m = true → abortedAt n = true

/-- The environment with the signal that the options pass. -/
def Environment.under (env : Environment R) (signal : AbortSignal) : Environment R :=
  { env with aborted := fun r => signal.abortedAt r.moment }

/-! ## The law -/

/-- A call after which its batch is not called again: it resolved, or it failed
with an error that is not retried. -/
def Final : Except SdkError (List R) → Prop
  | .ok _ => True
  | .error err => isNonRetryable (toError err) = true

variable (options) in
/-- The law of the effects of a run under a signal. -/
structure SubmissionLaw (env : Environment R) (signal : AbortSignal) (effects : List (Effect R)) : Prop where
  /-- A call settles as `submitBatchFn` does at that attempt. -/
  settles : ∀ i k outcome, .submit i k outcome ∈ effects → outcome = env.submitBatchFn i k
  /-- Each batch is submitted at most `Math.max(1, maxRetries + 1)` times, -/
  attempts : ∀ i, ((submitted effects).count i : Int) ≤ max 1 (options.retries + 1)
  /-- and not again after a call that is final. -/
  final : ∀ before after i k outcome, effects = before ++ .submit i k outcome :: after → Final outcome →
    i ∉ submitted after
  /-- Batches are visited in the order of their indices: they start in it, -/
  starts : (started effects).Pairwise (· < ·)
  /-- and are submitted in it, after they have started. -/
  order : (submitted effects).Pairwise (· ≤ ·) ∧ ∀ i ∈ submitted effects, (i : Int) ∈ started effects
  /-- With `stopOnFirstFailure`, a batch only starts if all those before it
  that started have resolved. -/
  stops : options.stops = true → ∀ i j : Nat, (i : Int) ∈ started effects → (j : Int) ∈ started effects →
    i < j → i ∈ resolved effects
  /-- A call is only made if the signal was not aborted at any moment up to the
  start of its attempt, -/
  aborts : ∀ c ∈ calls effects, ∀ m, m ≤ (AbortRead.attemptStart c.1 c.2).moment → signal.abortedAt m = false
  /-- and if the sleeps after the attempts before it ended. -/
  sleeps : ∀ c ∈ calls effects, ∀ k, 1 ≤ k → k < c.2 → env.sleep c.1 k = true

/-! ## Which calls a run makes -/

variable (env) in
/-- A call at attempt `k` of batch `i`, the first one being number `first`,
that the environment lets the code make. -/
def Made (i first k : Nat) : Prop :=
  first ≤ k ∧ env.aborted (.attemptStart i k) = false ∧ ∀ j, first ≤ j → j < k → RetriedAt env i j

variable (options env) in
/-- Attempt `k` of a batch `i` that has started is made. -/
def Attempted (i k : Nat) : Prop := Made env i 1 k ∧ k ≤ options.maxAttempts

/-- The attempts before one that is made are made. -/
theorem Attempted.earlier {i j k : Nat} (h : Attempted options env i k) (hj : 1 ≤ j) (hjk : j < k) :
    Attempted options env i j := by
  obtain ⟨⟨-, -, hretried⟩, hk⟩ := h
  exact ⟨⟨hj, (hretried j hj hjk).1, fun l hl hlj => hretried l hl (by omega)⟩, by omega⟩

theorem made_first {i k : Nat} (ha : env.aborted (.attemptStart i k) = false) : Made env i k k :=
  ⟨le_rfl, ha, fun j h₁ h₂ => by omega⟩

/-- The first call is made unless the signal is aborted, and a later one if the
first attempt was retried. -/
theorem made_iff {i first k : Nat} : Made env i first k ↔
    (k = first ∧ env.aborted (.attemptStart i first) = false) ∨ (RetriedAt env i first ∧ Made env i (first + 1) k) := by
  constructor
  · rintro ⟨hle, ha, hretried⟩
    rcases Nat.eq_or_lt_of_le hle with rfl | hlt
    · exact .inl ⟨rfl, ha⟩
    · exact .inr ⟨hretried first le_rfl hlt, hlt, ha, fun j hj hjk => hretried j (by omega) hjk⟩
  · rintro (⟨rfl, ha⟩ | ⟨hr, hle, ha, hretried⟩)
    · exact made_first ha
    · refine ⟨by omega, ha, fun j hj hjk => ?_⟩
      rcases Nat.eq_or_lt_of_le hj with heq | hlt
      · rwa [← heq]
      · exact hretried j hlt hjk

/-- The attempts of a batch make just the calls that the environment lets them
make. -/
theorem mem_calls_submitAttempts (batch : BatchPage T) (items : Int) {i k : Nat} :
    ∀ (left attempt : Nat) (last : Option String), attempt + left = options.maxAttempts + 1 →
      ((i, k) ∈ calls (submitAttempts entries options env batch items left attempt last).1 ↔
        i = batch.index ∧ Made env batch.index attempt k ∧ k < attempt + left)
  | 0, attempt, _, _ => iff_of_false List.not_mem_nil fun h => absurd h.2.1.1 (by omega)
  | left + 1, attempt, last, hleft => by
    have ih := mem_calls_submitAttempts (i := i) (k := k) batch items left (attempt + 1)
    rw [submitAttempts, made_iff]
    split
    · rename_i ha
      refine iff_of_false List.not_mem_nil ?_
      rw [RetriedAt, ha]
      simp
    rename_i ha
    rw [Bool.not_eq_true] at ha
    -- when the attempt is not retried, its call is the only one
    have hlast : ¬(RetriedAt env batch.index attempt ∧ 0 < left) → ∀ es : List (Effect R),
        calls es = [(batch.index, attempt)] → ((i, k) ∈ calls es ↔ i = batch.index ∧
          ((k = attempt ∧ env.aborted (.attemptStart batch.index attempt) = false) ∨
            (RetriedAt env batch.index attempt ∧ Made env batch.index (attempt + 1) k)) ∧ k < attempt + (left + 1)) := by
      intro hnot es hes
      rw [hes, List.mem_singleton, Prod.mk.injEq]
      constructor
      · rintro ⟨rfl, rfl⟩
        exact ⟨rfl, .inl ⟨rfl, ha⟩, by omega⟩
      · rintro ⟨rfl, ⟨rfl, -⟩ | ⟨hr, hle, -⟩, hlt⟩
        · exact ⟨rfl, rfl⟩
        · exact absurd ⟨hr, by omega⟩ hnot
    split
    · rename_i rs hrs
      refine hlast (fun h => ?_) _ rfl
      obtain ⟨-, err, herr, -⟩ := h.1
      rw [hrs] at herr
      cases herr
    rename_i err herr
    simp only []
    split
    · rename_i hretry
      simp only [Bool.and_eq_true, Bool.not_eq_true', decide_eq_true_eq] at hretry
      split
      · rename_i hsleep
        have hr : RetriedAt env batch.index attempt := ⟨ha, err, herr, hretry.1.1, hretry.2, hsleep⟩
        rw [calls_append, List.mem_append, ih _ (by omega)]
        show (i, k) ∈ [(batch.index, attempt)] ∨ _ ↔ _
        rw [List.mem_singleton, Prod.mk.injEq, ← and_or_left]
        refine and_congr_right fun _ => ?_
        constructor
        · rintro (rfl | ⟨hmade, hlt⟩)
          · exact ⟨.inl ⟨rfl, ha⟩, by omega⟩
          · exact ⟨.inr ⟨hr, hmade⟩, by omega⟩
        · rintro ⟨⟨rfl, -⟩ | ⟨-, hmade⟩, hlt⟩
          · exact .inl rfl
          · exact .inr ⟨hmade, by omega⟩
      · rename_i hsleep
        exact hlast (fun h => hsleep h.1.2.choose_spec.2.2.2) _ rfl
    · rename_i hretry
      refine hlast (fun h => ?_) _ rfl
      obtain ⟨⟨-, err', herr', hn, hf, -⟩, hpos⟩ := h
      obtain rfl : err = err' := Except.error.inj (herr.symm.trans herr')
      refine hretry ?_
      simp only [hn, hf, Bool.not_false, Bool.and_true, Bool.true_and, decide_eq_true_eq]
      omega

/-- A call settles as the environment says. -/
theorem settled_submitAttempts (batch : BatchPage T) (items : Int) {i k : Nat}
    {outcome : Except SdkError (List R)} :
    ∀ (left attempt : Nat) (last : Option String),
      .submit i k outcome ∈ (submitAttempts entries options env batch items left attempt last).1 →
        outcome = env.submitBatchFn i k
  | 0, _, _, h => absurd h List.not_mem_nil
  | left + 1, attempt, last, h => by
    have ih : ∀ last,
        .submit i k outcome ∈ (submitAttempts entries options env batch items left (attempt + 1) last).1 →
          outcome = env.submitBatchFn i k :=
      settled_submitAttempts batch items left (attempt + 1)
    have hcall : (.submit i k outcome : Effect R) =
        .submit batch.index attempt (env.submitBatchFn batch.index attempt) → outcome = env.submitBatchFn i k := by
      intro heq
      obtain ⟨rfl, rfl, rfl⟩ := Effect.submit.inj heq
      rfl
    rw [submitAttempts] at h
    split at h
    · exact absurd h List.not_mem_nil
    split at h
    · simp only [emitProgress, List.mem_cons, reduceCtorEq, List.not_mem_nil, or_false, false_or] at h
      exact hcall h
    simp only [] at h
    split at h
    · split at h
      · simp only [emitProgress, List.mem_append, List.mem_cons, reduceCtorEq, List.not_mem_nil, or_false,
          false_or] at h
        rcases h with h | h
        · exact hcall h
        · exact ih _ h
      · simp only [emitProgress, List.mem_append, List.mem_cons, reduceCtorEq, List.not_mem_nil, or_false,
          false_or] at h
        exact hcall h
    · simp only [emitProgress, List.mem_append, List.mem_cons, reduceCtorEq, List.not_mem_nil, or_false,
        false_or] at h
      exact hcall h

/-- No attempt starts a batch. -/
theorem started_submitAttempts (batch : BatchPage T) (items : Int) :
    ∀ (left attempt : Nat) (last : Option String),
      started (submitAttempts entries options env batch items left attempt last).1 = []
  | 0, _, _ => rfl
  | left + 1, attempt, last => by
    have ih := started_submitAttempts batch items left (attempt + 1)
    rw [submitAttempts]
    split
    · rfl
    split
    · rfl
    simp only []
    split
    · split
      · rw [started_append, ih]
        rfl
      · rfl
    · rfl

/-! ## One round of the loop -/

/-- An effect that neither starts a batch nor submits one. -/
def Effect.Silent (e : Effect R) : Prop := e.started = none ∧ e.call = none

theorem silent_emitProgress (stage : SafeBatchProgressStage) (hstage : stage ≠ .batch_starting) (i n : Int)
    (message : String) (k : Option Nat) :
    (emitProgress (R := R) entries options stage i n message k).Silent :=
  ⟨if_neg hstage, rfl⟩

variable {es : List (Effect R)}

theorem started_silent (h : ∀ e ∈ es, e.Silent) : started es = [] :=
  List.filterMap_eq_nil_iff.mpr fun e he => (h e he).1

theorem calls_silent (h : ∀ e ∈ es, e.Silent) : calls es = [] :=
  List.filterMap_eq_nil_iff.mpr fun e he => (h e he).2

theorem submit_not_silent (i k : Nat) (outcome : Except SdkError (List R)) :
    ¬(Effect.submit i k outcome).Silent := nofun

variable (options env) in
/-- The effects of batch `s`: its start, and calls of its attempts. -/
structure Front (s : Nat) (es : List (Effect R)) : Prop where
  started_eq : started es = [(s : Int)]
  mem_calls : ∀ i k, (i, k) ∈ calls es ↔ i = s ∧ Attempted options env i k
  settled : ∀ i k outcome, .submit i k outcome ∈ es → outcome = env.submitBatchFn i k

/-- The start of a batch, its attempts, and silent effects. -/
theorem front_submitBatch (s : Nat) (items items' : Int) (message : String) {after : List (Effect R)}
    (h : ∀ e ∈ after, e.Silent) :
    Front options env s (emitProgress entries options .batch_starting s items' message ::
      (submitBatch entries options env (planBatch entries options s) items).1 ++ after) where
  started_eq := by
    rw [List.cons_append, ← List.singleton_append, started_append, started_append, submitBatch,
      started_submitAttempts, started_silent h]
    rfl
  mem_calls i k := by
    rw [List.cons_append, (quiet_emitProgress ..).calls_cons, calls_append, calls_silent h, List.append_nil,
      submitBatch, mem_calls_submitAttempts _ _ _ _ _ (by omega)]
    refine and_congr_right fun hi => and_congr (by rw [hi]) (by omega)
  settled i k outcome hmem := by
    simp only [emitProgress, List.cons_append, List.mem_cons, List.mem_append, reduceCtorEq, false_or] at hmem
    rcases hmem with hmem | hmem
    · exact settled_submitAttempts _ _ _ _ _ hmem
    · exact absurd (h _ hmem) (submit_not_silent i k outcome)

variable [PayrollEntry T]

variable (host entries options env) in
/-- The effects of the loop from batch `s` on, with `m` batches after it. -/
inductive RoundTrace (m s : Nat) : List (Effect R) → Prop
  | cancelled {e : Effect R} (ha : env.aborted (.batchStart s) = true) (h : e.Silent) : RoundTrace m s [e]
  | last {es : List (Effect R)} (ha : env.aborted (.batchStart s) = false) (h : Front options env s es)
      (hs : options.stops = true) (hfails : ¬ BatchSucceeds options env s) : RoundTrace m s es
  | more {es : List (Effect R)} (ha : env.aborted (.batchStart s) = false) (h : Front options env s es)
      (hs : options.stops = true → s ∈ resolved es ∧ BatchSucceeds options env s) (p : Progress R) :
      RoundTrace m s (es ++ (submitFrom host entries options env (s + 1) m p).1)

variable (host entries options env) in
theorem submitFrom_trace (m s : Nat) (p : Progress R) :
    RoundTrace host entries options env m s (submitFrom host entries options env s (m + 1) p).1 := by
  have hsilent : ∀ (stage : SafeBatchProgressStage) (n i : Int) (message : String), stage ≠ .batch_starting →
      ∀ e ∈ [(emitProgress entries options stage i n message : Effect R)], e.Silent := by
    intro stage n i message hstage e he
    rw [List.mem_singleton.mp he]
    exact silent_emitProgress stage hstage _ _ _ _
  rw [submitFrom, List.range'_succ, List.map_cons, submitBatches]
  split
  · rename_i ha
    exact .cancelled ha (silent_emitProgress .failed (by decide) _ _ _ _)
  rename_i ha
  rw [Bool.not_eq_true] at ha
  simp only [submitBatch_snd]
  split
  · rename_i rs hrs
    refine .more ha (front_submitBatch s p.itemsProcessed p.itemsProcessed _ ?_) (fun _ => ⟨?_, ?_⟩) _
    · intro e he
      simp only [List.mem_cons, List.not_mem_nil, or_false] at he
      rcases he with rfl | rfl | rfl
      · exact ⟨rfl, rfl⟩
      · exact silent_emitProgress .batch_completed (by decide) _ _ _ _
      · exact ⟨rfl, rfl⟩
    · rw [List.cons_append, (quiet_emitProgress ..).resolved_cons, resolved_append, List.mem_append]
      refine .inl ?_
      rw [resolved, resolutions_submitBatch, hrs]
      exact List.mem_singleton_self s
    · exact (resolves_iff s).mp (resolves_of_ok hrs)
  · rename_i last hlast
    split
    · rename_i hs
      exact .last ha (front_submitBatch s _ _ _ (hsilent .failed _ _ _ (by decide))) hs
        fun hsucc => not_resolves_of_error hlast ((resolves_iff s).mpr hsucc)
    · rename_i hs
      exact .more ha (front_submitBatch s _ _ _ (hsilent .failed _ _ _ (by decide))) (fun h => absurd h hs) p

/-! ## The loop -/

variable (options env) in
/-- The loop over `m` batches from `s` on comes to batch `i`: the signal is not
aborted at the start of a batch up to it, and where failures stop the run, the
batches before it succeed. -/
structure ComesTo (s m i : Nat) : Prop where
  inLoop : s ≤ i ∧ i < s + m
  notAborted : ∀ j, s ≤ j → j ≤ i → env.aborted (.batchStart j) = false
  succeed : options.stops = true → ∀ j, s ≤ j → j < i → BatchSucceeds options env j

omit [PayrollEntry T] in
/-- The loop comes to its first batch unless the signal is aborted, and then to
those that the rest of it comes to. -/
theorem comesTo_succ {s m i : Nat} (ha : env.aborted (.batchStart s) = false) : ComesTo options env s (m + 1) i ↔
    i = s ∨ ((options.stops = true → BatchSucceeds options env s) ∧ ComesTo options env (s + 1) m i) := by
  constructor
  · rintro ⟨⟨hle, hlt⟩, hsig, hsucc⟩
    rcases Nat.eq_or_lt_of_le hle with rfl | hsi
    · exact .inl rfl
    · exact .inr ⟨fun hst => hsucc hst s le_rfl hsi, ⟨hsi, by omega⟩, fun j hj => hsig j (by omega),
        fun hst j hj => hsucc hst j (by omega)⟩
  · rintro (rfl | ⟨hs, ⟨hle, hlt⟩, hsig, hsucc⟩)
    · refine ⟨⟨le_rfl, by omega⟩, fun j hj hji => ?_, fun _ j hj hji => by omega⟩
      rwa [Nat.le_antisymm hji hj]
    · refine ⟨⟨by omega, by omega⟩, fun j hj hji => ?_, fun hst j hj hji => ?_⟩
      · rcases Nat.eq_or_lt_of_le hj with rfl | hsj
        · exact ha
        · exact hsig j hsj hji
      · rcases Nat.eq_or_lt_of_le hj with rfl | hsj
        · exact hs hst
        · exact hsucc hst j hsj hji

variable (options env) in
/-- What the loop over `m` batches keeps of the `t` batches that it starts, from
`s` on. -/
structure Rounds (s m t : Nat) (es : List (Effect R)) : Prop where
  started_eq : started es = (List.range' s t).map Int.ofNat
  comes : ∀ i, ComesTo options env s m i ↔ s ≤ i ∧ i < s + t
  mem_calls : ∀ i k, (i, k) ∈ calls es ↔ (s ≤ i ∧ i < s + t) ∧ Attempted options env i k
  settled : ∀ i k outcome, .submit i k outcome ∈ es → outcome = env.submitBatchFn i k
  /-- With `stopOnFirstFailure`, all but the last of them have resolved. -/
  stops : options.stops = true → ∀ i, s ≤ i → i + 1 < s + t → i ∈ resolved es

omit [PayrollEntry T] in
theorem rounds_silent {s m : Nat} (h : ∀ e ∈ es, e.Silent)
    (hnone : ∀ i, ¬ ComesTo options env s m i) : Rounds options env s m 0 es where
  started_eq := started_silent h
  comes i := iff_of_false (hnone i) (by omega)
  mem_calls i k := by
    rw [calls_silent h]
    exact iff_of_false List.not_mem_nil fun hi => absurd hi.1 (by omega)
  settled i k outcome hmem := absurd (h _ hmem) (submit_not_silent i k outcome)
  stops _ i hsi hi := by omega

omit [PayrollEntry T] in
/-- The batch is the last one that starts. -/
theorem Front.rounds {s m : Nat} (h : Front options env s es)
    (hcomes : ∀ i, ComesTo options env s m i ↔ i = s) : Rounds options env s m 1 es where
  started_eq := h.started_eq
  comes i := (hcomes i).trans (by omega)
  mem_calls i k := (h.mem_calls i k).trans (and_congr_left fun _ => by omega)
  settled := h.settled
  stops _ i hsi hi := by omega

omit [PayrollEntry T] in
/-- One more batch in front. -/
theorem Rounds.cons {s m t : Nat} {es rest : List (Effect R)} (ha : env.aborted (.batchStart s) = false)
    (hfront : Front options env s es) (hs : options.stops = true → s ∈ resolved es ∧ BatchSucceeds options env s)
    (h : Rounds options env (s + 1) m t rest) : Rounds options env s (m + 1) (t + 1) (es ++ rest) where
  started_eq := by
    rw [started_append, hfront.started_eq, h.started_eq, List.range'_succ, List.map_cons]
    rfl
  comes i := by
    rw [comesTo_succ ha, and_iff_right fun hst => (hs hst).2, h.comes]
    omega
  mem_calls i k := by
    rw [calls_append, List.mem_append, hfront.mem_calls, h.mem_calls, ← or_and_right]
    exact and_congr_left fun _ => by omega
  settled i k outcome hmem := by
    rcases List.mem_append.mp hmem with hmem | hmem
    · exact hfront.settled i k outcome hmem
    · exact h.settled i k outcome hmem
  stops hst i hsi hi := by
    rw [resolved_append, List.mem_append]
    rcases Nat.eq_or_lt_of_le hsi with rfl | hlt
    · exact .inl (hs hst).1
    · exact .inr (h.stops hst i hlt (by omega))

variable (host entries options env) in
theorem rounds_submitFrom (m s : Nat) (p : Progress R) :
    ∃ t, Rounds options env s m t (submitFrom host entries options env s m p).1 := by
  induction m generalizing s p with
  | zero =>
    refine ⟨0, rounds_silent (fun e he => ?_) fun i hi => absurd hi.inLoop (by omega)⟩
    rw [List.mem_singleton.mp he]
    exact silent_emitProgress .completed (by decide) _ _ _ _
  | succ m ih =>
    have htrace := submitFrom_trace host entries options env m s p
    generalize (submitFrom host entries options env s (m + 1) p).1 = es at htrace
    cases htrace with
    | cancelled ha h =>
      refine ⟨0, rounds_silent (fun e he => List.mem_singleton.mp he ▸ h) fun i hi => ?_⟩
      have hnot := hi.notAborted s le_rfl hi.inLoop.1
      rw [ha] at hnot
      cases hnot
    | last ha h hs hfails =>
      refine ⟨1, h.rounds fun i => ?_⟩
      rw [comesTo_succ ha, or_iff_left fun hi => hfails (hi.1 hs)]
    | more ha h hs p' =>
      obtain ⟨t, hrest⟩ := ih (s + 1) p'
      exact ⟨t + 1, hrest.cons ha h hs⟩

/-! ## The whole run -/

variable (host entries options) in
/-- A run passes its checks, and its loop is over `m` batches from `s` on. -/
structure Starts (s m : Nat) : Prop where
  batchSize : 0 < options.effectiveBatchSize
  notEmpty : 0 < entries.length
  resumes : ∃ items, resumePoint host entries options = .ok ((s : Int), items)
  left : s + m = totalBatches entries options

variable (host entries options env) in
/-- A run is a few silent effects, or one and then the loop from some batch. -/
theorem run_effects :
    ((∀ e ∈ (submitSequentialPayrollBatches host entries options env).effects, e.Silent) ∧
      ∀ s m, Starts host entries options s m → m = 0) ∨
      ∃ e s m p, e.Silent ∧ Starts host entries options s m ∧
        (submitSequentialPayrollBatches host entries options env).effects =
          e :: (submitFrom host entries options env s m p).1 := by
  rw [submitSequentialPayrollBatches]
  rcases le_or_gt options.effectiveBatchSize 0 with hb | hb
  · rw [assertValidPageSize, if_pos hb]
    exact .inl ⟨fun e he => absurd he List.not_mem_nil, fun s m h => absurd h.batchSize (by omega)⟩
  rw [assertValidPageSize_some hb]
  simp only []
  split
  · rename_i hn
    refine .inl ⟨fun e he => ?_, fun s m h => absurd h.notEmpty (by omega)⟩
    rw [List.mem_singleton.mp he]
    exact ⟨rfl, rfl⟩
  rename_i hn
  split
  · rename_i err hr
    refine .inl ⟨fun e he => absurd he List.not_mem_nil, fun s m h => ?_⟩
    obtain ⟨items, hok⟩ := h.resumes
    rw [hr] at hok
    cases hok
  rename_i s items hr
  obtain ⟨hs₀, hs₁⟩ := resumePoint_range hb hr
  obtain ⟨s, rfl⟩ := Int.eq_ofNat_of_zero_le hs₀
  split
  · rename_i hs
    refine .inl ⟨fun e he => ?_, fun s' m h => ?_⟩
    · simp only [List.mem_cons, List.not_mem_nil, or_false] at he
      rcases he with rfl | rfl
      · exact silent_emitProgress .validating (by decide) _ _ _ _
      · exact silent_emitProgress .completed (by decide) _ _ _ _
    · obtain ⟨items', hok⟩ := h.resumes
      have heq := congrArg Prod.fst (Except.ok.inj (hr.symm.trans hok))
      have hleft := h.left
      simp only at heq
      omega
  · refine .inr ⟨emitProgress entries options .validating s items (validatingMessage entries options s), s,
      totalBatches entries options - s, { batchesSucceeded := s, itemsProcessed := items, results := [] },
      silent_emitProgress .validating (by decide) _ _ _ _, ⟨hb, by omega, ⟨items, hr⟩, by omega⟩, ?_⟩
    rw [drop_batchPages, ← length_batchPages, ← totalBatches]
    rfl

variable (host entries options env) in
theorem run_rounds :
    ∃ s m t, Rounds options env s m t (submitSequentialPayrollBatches host entries options env).effects ∧
      ∀ i, ComesTo options env s m i ↔ ∃ s m, Starts host entries options s m ∧ ComesTo options env s m i := by
  rcases run_effects host entries options env with ⟨hsilent, hnone⟩ | ⟨e, s, m, p, he, hstarts, heffects⟩
  · have hempty : ∀ s i, ¬ ComesTo options env s 0 i := fun s i h => absurd h.inLoop (by omega)
    refine ⟨0, 0, 0, rounds_silent hsilent (hempty 0), fun i => iff_of_false (hempty 0 i) ?_⟩
    rintro ⟨s, m, hstarts, h⟩
    obtain rfl := hnone s m hstarts
    exact hempty s i h
  · obtain ⟨t, h⟩ := rounds_submitFrom host entries options env m s p
    rw [heffects]
    refine ⟨s, m, t, ⟨?_, h.comes, ?_, ?_, ?_⟩, fun i => ⟨fun hi => ⟨s, m, hstarts, hi⟩, ?_⟩⟩
    · rw [started, List.filterMap_cons_none he.1]
      exact h.started_eq
    · rw [calls, List.filterMap_cons_none he.2]
      exact h.mem_calls
    · intro i k outcome hmem
      rcases List.mem_cons.mp hmem with rfl | hmem
      · exact absurd he (submit_not_silent i k outcome)
      · exact h.settled i k outcome hmem
    · intro hst i hsi hi
      rw [← List.singleton_append, resolved_append, List.mem_append]
      exact .inr (h.stops hst i hsi hi)
    · rintro ⟨s', m', hstarts', hi⟩
      obtain ⟨items, hok⟩ := hstarts.resumes
      obtain ⟨items', hok'⟩ := hstarts'.resumes
      have heq := congrArg Prod.fst (Except.ok.inj (hok.symm.trans hok'))
      have hleft := hstarts.left
      have hleft' := hstarts'.left
      simp only at heq
      obtain rfl : s = s' := by omega
      obtain rfl : m = m' := by omega
      exact hi

/-- The calls of a run: of each batch that its loop comes to, the attempts that
are made. -/
theorem mem_calls_run {i k : Nat} : (i, k) ∈ calls (submitSequentialPayrollBatches host entries options env).effects ↔
    (∃ s m, Starts host entries options s m ∧ ComesTo options env s m i) ∧ Attempted options env i k := by
  obtain ⟨s, m, t, h, hcomes⟩ := run_rounds host entries options env
  rw [h.mem_calls, ← h.comes, hcomes]

/-! ## Counting the calls of a batch -/

/-- Calls in order, of attempts up to `n`, are at most `n` for each batch. -/
theorem count_calls_le {cs : List (Nat × Nat)} {n : Nat} (h : cs.Pairwise CallBefore)
    (hb : ∀ c ∈ cs, 1 ≤ c.2 ∧ c.2 ≤ n) (i : Nat) : (cs.map Prod.fst).count i ≤ n := by
  have hcount : (cs.map Prod.fst).count i = ((cs.filter fun c => c.1 == i).map Prod.snd).length := by
    rw [List.count, List.countP_map, List.countP_eq_length_filter, List.length_map]
    rfl
  have hlt : ((cs.filter fun c => c.1 == i).map Prod.snd).Pairwise (· < ·) := by
    refine List.pairwise_map.mpr ((h.filter _).imp_of_mem fun {c d} hc hd hbefore => ?_)
    have hci : c.1 = i := beq_iff_eq.mp (List.mem_filter.mp hc).2
    have hdi : d.1 = i := beq_iff_eq.mp (List.mem_filter.mp hd).2
    rcases hbefore with hbatch | ⟨-, hattempt⟩
    · omega
    · exact hattempt
  have hsub : ((cs.filter fun c => c.1 == i).map Prod.snd) ⊆ List.range' 1 n := by
    intro k hk
    obtain ⟨c, hc, rfl⟩ := List.mem_map.mp hk
    have := hb c (List.mem_filter.mp hc).1
    exact List.mem_range'_1.mpr (by omega)
  rw [hcount]
  calc _ ≤ (List.range' 1 n).length := (List.subperm_of_subset (hlt.imp Nat.ne_of_lt) hsub).length_le
    _ = n := List.length_range'

/-! ## The law holds -/

/-- A later call of a batch would have retried a call that is final. -/
theorem not_submitted_again {before after : List (Effect R)} {i k : Nat} {outcome : Except SdkError (List R)}
    (horder : (calls (before ++ .submit i k outcome :: after)).Pairwise CallBefore)
    (hmade : ∀ c ∈ calls (before ++ .submit i k outcome :: after), Made env c.1 1 c.2) (hfirst : 1 ≤ k)
    (houtcome : outcome = env.submitBatchFn i k) (hfinal : Final outcome) : i ∉ submitted after := by
  intro hi
  obtain ⟨⟨i, k'⟩, hc, rfl⟩ := List.mem_map.mp hi
  have hcalls : calls (before ++ .submit i k outcome :: after) = calls before ++ (i, k) :: calls after := by
    rw [calls_append]
    rfl
  rw [hcalls] at horder hmade
  have hbefore : CallBefore (i, k) (i, k') := List.rel_of_pairwise_cons (List.pairwise_append.mp horder).2.1 hc
  have hk : k < k' := by
    rcases hbefore with hlt | ⟨-, hlt⟩
    · exact absurd hlt (Nat.lt_irrefl i)
    · exact hlt
  have hmem : (i, k') ∈ calls before ++ (i, k) :: calls after := List.mem_append_right _ (List.mem_cons_of_mem _ hc)
  obtain ⟨-, err, herr, hretry, -⟩ := (hmade _ hmem).2.2 k hfirst hk
  rw [houtcome, herr] at hfinal
  have hnot : isNonRetryable (toError err) = true := hfinal
  rw [hretry] at hnot
  cases hnot

/-- Every run obeys the law, whatever the entries, the options, the outcomes
and the signal. -/
theorem law_of_submitSequentialPayrollBatches (host : Host) (entries : List T)
    (options : SafeBatchSubmissionOptions) (env : Environment R) (signal : AbortSignal) :
    SubmissionLaw options (env.under signal) signal
      (submitSequentialPayrollBatches host entries options (env.under signal)).effects := by
  obtain ⟨s, m, t, hrounds, -⟩ := run_rounds host entries options (env.under signal)
  have horder : (calls (submitSequentialPayrollBatches host entries options (env.under signal)).effects).Pairwise
      CallBefore := calls_pairwise
  generalize (submitSequentialPayrollBatches host entries options (env.under signal)).effects = es at *
  have hcalls : ∀ c ∈ calls es, (s ≤ c.1 ∧ c.1 < s + t) ∧ Attempted options (env.under signal) c.1 c.2 :=
    fun c hc => (hrounds.mem_calls c.1 c.2).mp hc
  have hmade : ∀ c ∈ calls es, Made (env.under signal) c.1 1 c.2 := fun c hc => (hcalls c hc).2.1
  have hstarted : ∀ i : Nat, (i : Int) ∈ started es ↔ s ≤ i ∧ i < s + t := by
    intro i
    rw [hrounds.started_eq, show (i : Int) = Int.ofNat i from rfl,
      List.mem_map_of_injective (f := Int.ofNat) fun _ _ => Int.ofNat.inj, List.mem_range'_1]
  refine ⟨hrounds.settled, fun i => ?_, ?_, ?_, ⟨?_, ?_⟩, ?_, ?_, ?_⟩
  · have hcount := count_calls_le horder (fun c hc => ⟨(hmade c hc).1, (hcalls c hc).2.2⟩) i
    rw [SafeBatchSubmissionOptions.maxAttempts] at hcount
    rw [submitted]
    omega
  · intro before after i k outcome heffects hfinal hi
    subst heffects
    have hc : (i, k) ∈ calls (before ++ .submit i k outcome :: after) := by
      rw [calls_append]
      exact List.mem_append_right _ List.mem_cons_self
    refine not_submitted_again horder hmade (hmade _ hc).1 ?_ hfinal hi
    exact hrounds.settled i k outcome (List.mem_append_right _ List.mem_cons_self)
  · rw [hrounds.started_eq]
    exact List.pairwise_map.mpr ((List.pairwise_lt_range' 1 (by decide)).imp Int.ofNat_lt.mpr)
  · refine List.pairwise_map.mpr (horder.imp fun h => ?_)
    rcases h with hlt | ⟨heq, -⟩
    · exact hlt.le
    · exact heq.le
  · intro i hi
    obtain ⟨c, hc, rfl⟩ := List.mem_map.mp hi
    exact (hstarted c.1).mpr (hcalls c hc).1
  · intro hst i j hi hj hij
    have hi := (hstarted i).mp hi
    have hj := (hstarted j).mp hj
    exact hrounds.stops hst i hi.1 (by omega)
  · intro c hc m hm
    have hread : signal.abortedAt (AbortRead.attemptStart c.1 c.2).moment = false := (hmade c hc).2.1
    by_contra habort
    rw [signal.stays hm (Bool.not_eq_false _ ▸ habort)] at hread
    cases hread
  · intro c hc k hk hlt
    obtain ⟨-, err, -, -, -, hsleep⟩ := (hmade c hc).2.2 k hk hlt
    exact hsleep

end ZkPayroll.Payroll
