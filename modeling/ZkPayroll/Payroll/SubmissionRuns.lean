import ZkPayroll.Framework.Lists
import ZkPayroll.Payroll.SafeBatchSubmitter

/-!
# What a run of the submitter does

A run tries the batches of its plan in order, from its start. `LoopEnd` says
how it ends, and `submitBatches_ends` that this is all a run can do: it tries
some number `t` of batches, resolves those among them whose attempts succeed
(`Resolves`), and ends at the last one, or because the signal is aborted, or
because a batch failed. `submitBatches_checkpoint` says when it hands out the
token of a checkpoint.
-/

namespace ZkPayroll.Payroll

open Framework ZkPayroll.Core Batch

variable {T R : Type}

/-! ## What a trace shows -/

/-- The batch and the results of a call of `submitBatchFn` that resolved. -/
def Effect.resolution : Effect R → Option (Nat × List R)
  | .submit batchIndex _ (.ok results) => some (batchIndex, results)
  | _ => none

variable {e : Effect R} {i : Nat}

theorem Effect.resolution_eq_some {rs : List R} :
    e.resolution = some (i, rs) ↔ ∃ k, e = .submit i k (.ok rs) := by
  constructor
  · intro h
    cases e with
    | submit j k outcome =>
      cases outcome with
      | ok results =>
        cases h
        exact ⟨k, rfl⟩
      | error e => cases h
    | _ => cases h
  · rintro ⟨k, rfl⟩
    rfl

/-- The batches that resolve in a trace, with their results, in order. -/
def resolutions (effects : List (Effect R)) : List (Nat × List R) := effects.filterMap Effect.resolution

/-- The batches that resolve in a trace. -/
def resolved (effects : List (Effect R)) : List Nat := (resolutions effects).map Prod.fst

/-- The batch and the attempt of a call of `submitBatchFn`. -/
def Effect.call : Effect R → Option (Nat × Nat)
  | .submit batchIndex attempt _ => some (batchIndex, attempt)
  | _ => none

/-- The calls of `submitBatchFn` in a trace, in order. -/
def calls (effects : List (Effect R)) : List (Nat × Nat) := effects.filterMap Effect.call

/-- The batches that a trace submits, once for each call. -/
def submitted (effects : List (Effect R)) : List Nat := (calls effects).map Prod.fst

/-- The batch of a `batch_starting` event. -/
def Effect.started : Effect R → Option Int
  | .onProgress event => if event.stage = .batch_starting then some event.batchIndex else none
  | _ => none

/-- The batches that a trace shows as started. -/
def started (effects : List (Effect R)) : List Int := effects.filterMap Effect.started

@[simp] theorem resolutions_nil : resolutions ([] : List (Effect R)) = [] := rfl

@[simp] theorem resolutions_append (es fs : List (Effect R)) :
    resolutions (es ++ fs) = resolutions es ++ resolutions fs := List.filterMap_append

@[simp] theorem resolutions_submit_ok (i k : Nat) (rs : List R) (es : List (Effect R)) :
    resolutions (.submit i k (.ok rs) :: es) = (i, rs) :: resolutions es := rfl

@[simp] theorem resolutions_submit_error (i k : Nat) (e : SdkError) (es : List (Effect R)) :
    resolutions (.submit i k (.error e) :: es) = resolutions es := rfl

@[simp] theorem resolutions_batchError (i : Nat) (e : SdkError) (b : Bool) (es : List (Effect R)) :
    resolutions (.onBatchError i e b :: es) = resolutions es := rfl

@[simp] theorem resolutions_sleep (ms : Int) (es : List (Effect R)) :
    resolutions (.sleep ms :: es) = resolutions es := rfl

@[simp] theorem resolutions_batchSuccess (i : Nat) (rs : List R) (es : List (Effect R)) :
    resolutions (.onBatchSuccess i rs :: es) = resolutions es := rfl

@[simp] theorem resolutions_checkpoint (token : String) (es : List (Effect R)) :
    resolutions (.onCheckpoint token :: es) = resolutions es := rfl

variable {host : Host} {entries : List T} {options : SafeBatchSubmissionOptions} {env : Environment R}

@[simp] theorem resolutions_progress (stage : SafeBatchProgressStage) (i n : Int) (message : String)
    (k : Option Nat) (es : List (Effect R)) :
    resolutions (emitProgress entries options stage i n message k :: es) = resolutions es := rfl

/-! ## One batch -/

variable (entries options env)

/-- Batch `i` of the plan. -/
def planBatch (i : Nat) : BatchPage T := batchPage entries options.effectiveBatchSize.toNat i

/-- How the attempts of batch `i` end. -/
def batchResult (i : Nat) : Except (Option String) (List R) :=
  (submitBatch entries options env (planBatch entries options i) 0).2

/-- Whether one of the attempts of batch `i` succeeds. -/
def Resolves (i : Nat) : Prop := (batchResult entries options env i).isOk = true

instance (i : Nat) : Decidable (Resolves entries options env i) :=
  inferInstanceAs (Decidable (_ = true))

variable {entries options env}

/-- The items processed before a batch only enter its progress events. -/
theorem submitAttempts_snd (batch : BatchPage T) (items items' : Int) :
    ∀ (left attempt : Nat) (last : Option String),
      (submitAttempts entries options env batch items left attempt last).2 =
        (submitAttempts entries options env batch items' left attempt last).2
  | 0, _, _ => rfl
  | left + 1, attempt, last => by
    have ih := submitAttempts_snd batch items items' left (attempt + 1)
    rw [submitAttempts, submitAttempts]
    split
    · rfl
    split
    · rfl
    simp only []
    split
    · split
      · exact ih _
      · rfl
    · rfl

/-- A batch resolves once if an attempt succeeds, and not otherwise. -/
theorem resolutions_submitAttempts (batch : BatchPage T) (items : Int) :
    ∀ (left attempt : Nat) (last : Option String),
      resolutions (submitAttempts entries options env batch items left attempt last).1 =
        ((submitAttempts entries options env batch items left attempt last).2.toOption.map
          fun rs => (batch.index, rs)).toList
  | 0, _, _ => rfl
  | left + 1, attempt, last => by
    have ih := resolutions_submitAttempts batch items left (attempt + 1)
    rw [submitAttempts]
    split
    · rfl
    split
    · rename_i rs hrs
      simp [hrs, Except.toOption]
    · rename_i err herr
      simp only [herr]
      split
      · split
        · simp [ih]
        · simp [Except.toOption]
      · simp [Except.toOption]

theorem calls_append (es fs : List (Effect R)) : calls (es ++ fs) = calls es ++ calls fs :=
  List.filterMap_append

/-- The attempts of a batch are calls for that batch, numbered in order. -/
theorem calls_submitAttempts (batch : BatchPage T) (items : Int) :
    ∀ (left attempt : Nat) (last : Option String),
      ∃ n ≤ left, calls (submitAttempts entries options env batch items left attempt last).1 =
        (List.range' attempt n).map fun k => (batch.index, k)
  | 0, _, _ => ⟨0, le_rfl, rfl⟩
  | left + 1, attempt, last => by
    rw [submitAttempts]
    split
    · exact ⟨0, by omega, rfl⟩
    split
    · exact ⟨1, by omega, rfl⟩
    · simp only []
      split
      · split
        · rename_i err _ _ _
          obtain ⟨n, hn, hcalls⟩ := calls_submitAttempts batch items left (attempt + 1)
            (some (Redaction.redactError (toError err)).message)
          refine ⟨n + 1, by omega, ?_⟩
          rw [calls_append, hcalls, List.range'_succ]
          rfl
        · exact ⟨1, by omega, rfl⟩
      · exact ⟨1, by omega, rfl⟩

/-- The attempts of a batch hand out no token. -/
theorem no_token_submitAttempts (batch : BatchPage T) (items : Int) (token : String) :
    ∀ (left attempt : Nat) (last : Option String),
      .onCheckpoint token ∉ (submitAttempts entries options env batch items left attempt last).1
  | 0, _, _ => by simp [submitAttempts]
  | left + 1, attempt, last => by
    have ih := no_token_submitAttempts batch items token left (attempt + 1)
    rw [submitAttempts]
    split
    · simp
    split
    · simp [emitProgress]
    · simp only []
      split
      · split
        · simp [emitProgress, ih]
        · simp [emitProgress]
      · simp [emitProgress]

theorem submitBatch_snd (i : Nat) (items : Int) :
    (submitBatch entries options env (planBatch entries options i) items).2 =
      batchResult entries options env i := submitAttempts_snd _ _ _ _ _ _

theorem resolutions_submitBatch (i : Nat) (items : Int) :
    resolutions (submitBatch entries options env (planBatch entries options i) items).1 =
      ((batchResult entries options env i).toOption.map fun rs => (i, rs)).toList := by
  rw [← submitBatch_snd i items]
  exact resolutions_submitAttempts _ _ _ _ _

/-! ## The attempts of a batch in terms of their outcomes -/

variable (options env) in
/-- Attempt `k` of batch `i` fails, and another one follows if one is left. -/
def RetriedAt (i k : Nat) : Prop :=
  env.aborted (.attemptStart i k) = false ∧
    ∃ err, env.submitBatchFn i k = .error err ∧ isNonRetryable (toError err) = false ∧
      env.aborted (.afterFailure i k) = false ∧ env.sleep i k = true

variable (options env) in
/-- One of the attempts of batch `i` is made and resolves, and those before it
fail in such a way that the next one follows. -/
def BatchSucceeds (i : Nat) : Prop :=
  ∃ k, 1 ≤ k ∧ k ≤ options.maxAttempts ∧ env.aborted (.attemptStart i k) = false ∧
    (∃ rs, env.submitBatchFn i k = .ok rs) ∧ ∀ j, 1 ≤ j → j < k → RetriedAt env i j

variable (env) in
/-- One of the `left` attempts from `attempt` on is made and resolves, and those
before it are retried. -/
def SucceedsWithin (i attempt left : Nat) : Prop :=
  ∃ k, attempt ≤ k ∧ k < attempt + left ∧ env.aborted (.attemptStart i k) = false ∧
    (∃ rs, env.submitBatchFn i k = .ok rs) ∧ ∀ j, attempt ≤ j → j < k → RetriedAt env i j

theorem not_succeedsWithin_zero (i attempt : Nat) : ¬SucceedsWithin env i attempt 0 := by
  rintro ⟨k, hk, hlt, -⟩
  omega

theorem not_succeedsWithin_of_aborted {i attempt left : Nat} (ha : env.aborted (.attemptStart i attempt) = true) :
    ¬SucceedsWithin env i attempt left := by
  rintro ⟨k, hk, -, hmade, -, hretried⟩
  rcases Nat.eq_or_lt_of_le hk with rfl | hlt
  · rw [ha] at hmade
    cases hmade
  · have hnot := (hretried attempt le_rfl hlt).1
    rw [ha] at hnot
    cases hnot

/-- After an attempt that fails, a later one succeeds if this one is retried. -/
theorem succeedsWithin_of_error {i attempt left : Nat} {err : SdkError}
    (herr : env.submitBatchFn i attempt = .error err) :
    SucceedsWithin env i attempt (left + 1) ↔ RetriedAt env i attempt ∧ SucceedsWithin env i (attempt + 1) left := by
  constructor
  · rintro ⟨k, hk, hlt, hmade, ⟨rs, hrs⟩, hretried⟩
    have hne : attempt ≠ k := by
      rintro rfl
      rw [herr] at hrs
      cases hrs
    exact ⟨hretried attempt le_rfl (by omega), k, by omega, by omega, hmade, ⟨rs, hrs⟩, fun j hj => hretried j (by omega)⟩
  · rintro ⟨hfirst, k, hk, hlt, hmade, hresolves, hretried⟩
    refine ⟨k, by omega, by omega, hmade, hresolves, fun j hj hjk => ?_⟩
    rcases Nat.eq_or_lt_of_le hj with rfl | hlt
    · exact hfirst
    · exact hretried j hlt hjk

theorem submitAttempts_isOk_iff (batch : BatchPage T) (items : Int) :
    ∀ (left attempt : Nat) (last : Option String), attempt + left = options.maxAttempts + 1 →
      ((submitAttempts entries options env batch items left attempt last).2.isOk = true ↔
        SucceedsWithin env batch.index attempt left)
  | 0, attempt, last, _ => iff_of_false nofun (not_succeedsWithin_zero _ _)
  | left + 1, attempt, last, hleft => by
    have ih := submitAttempts_isOk_iff batch items left (attempt + 1)
    rw [submitAttempts]
    split
    · rename_i ha
      exact iff_of_false nofun (not_succeedsWithin_of_aborted ha)
    rename_i ha
    split
    · rename_i rs hrs
      exact iff_of_true rfl
        ⟨attempt, le_rfl, by omega, Bool.eq_false_iff.mpr ha, ⟨rs, hrs⟩, fun j h₁ h₂ => by omega⟩
    · rename_i err herr
      rw [succeedsWithin_of_error herr]
      simp only []
      split
      · rename_i hretry
        simp only [Bool.and_eq_true, Bool.not_eq_true', decide_eq_true_eq] at hretry
        split
        · rename_i hsleep
          rw [ih _ (by omega)]
          have hretried : RetriedAt env batch.index attempt :=
            ⟨Bool.eq_false_iff.mpr ha, err, herr, hretry.1.1, hretry.2, hsleep⟩
          exact (and_iff_right hretried).symm
        · rename_i hsleep
          refine iff_of_false nofun ?_
          rintro ⟨⟨-, err', -, -, -, hs⟩, -⟩
          exact hsleep hs
      · rename_i hretry
        refine iff_of_false nofun ?_
        rintro ⟨⟨-, err', herr', hn, hf, -⟩, k, h₁, h₂, -⟩
        obtain rfl : err = err' := Except.error.inj (herr.symm.trans herr')
        refine hretry ?_
        simp only [hn, hf, Bool.not_false, Bool.and_true, Bool.true_and, decide_eq_true_eq]
        omega

/-- A batch resolves if and only if one of its attempts succeeds and the ones
before it were retried. -/
theorem resolves_iff (i : Nat) : Resolves entries options env i ↔ BatchSucceeds options env i := by
  rw [Resolves, batchResult, submitBatch, submitAttempts_isOk_iff _ _ _ _ _ (by omega), SucceedsWithin, BatchSucceeds]
  refine exists_congr fun k => and_congr_right fun _ => and_congr_left fun _ => ?_
  omega

/-! ## The loop over the batches -/

variable (entries options env) in
/-- The batches of `is` that resolve, with their results. -/
def planResolutions (is : List Nat) : List (Nat × List R) :=
  is.filterMap fun i => (batchResult entries options env i).toOption.map fun rs => (i, rs)

variable (entries options) in
/-- The loop's variables after some batches have resolved. -/
def Progress.advance (p : Progress R) (rs : List (Nat × List R)) : Progress R where
  batchesSucceeded := p.batchesSucceeded + rs.length
  itemsProcessed := p.itemsProcessed + ((rs.map fun r => (planBatch entries options r.1).count).sum : Nat)
  results := p.results ++ rs.flatMap Prod.snd

theorem planResolutions_cons_ok {rs : List R} (h : batchResult entries options env i = .ok rs)
    (is : List Nat) :
    planResolutions entries options env (i :: is) = (i, rs) :: planResolutions entries options env is := by
  simp [planResolutions, h, Except.toOption]

theorem planResolutions_cons_error {last : Option String}
    (h : batchResult entries options env i = .error last) (is : List Nat) :
    planResolutions entries options env (i :: is) = planResolutions entries options env is := by
  simp [planResolutions, h, Except.toOption]

@[simp] theorem Progress.advance_nil (p : Progress R) : p.advance entries options [] = p := by
  simp [Progress.advance]

theorem Progress.advance_cons (p : Progress R) (i : Nat) (rs : List R) (l : List (Nat × List R)) :
    p.advance entries options ((i, rs) :: l) =
      Progress.advance entries options
        { batchesSucceeded := p.batchesSucceeded + 1
          itemsProcessed := p.itemsProcessed + (planBatch entries options i).count
          results := p.results ++ rs } l := by
  simp [Progress.advance, Nat.add_comm, Nat.add_left_comm, Int.add_assoc]

theorem resolves_of_ok {rs : List R} (h : batchResult entries options env i = .ok rs) :
    Resolves entries options env i := by
  rw [Resolves, h]; rfl

theorem not_resolves_of_error {last : Option String}
    (h : batchResult entries options env i = .error last) : ¬ Resolves entries options env i := by
  rw [Resolves, h]; exact Bool.false_ne_true

theorem map_fst_planResolutions (is : List Nat) :
    (planResolutions entries options env is).map Prod.fst =
      is.filter fun i => decide (Resolves entries options env i) := by
  induction is with
  | nil => rfl
  | cons i is ih =>
    cases h : batchResult entries options env i with
    | ok rs =>
      rw [planResolutions_cons_ok h, List.map_cons, ih,
        List.filter_cons_of_pos (by simpa using resolves_of_ok h)]
    | error last =>
      rw [planResolutions_cons_error h, ih,
        List.filter_cons_of_neg (by simpa using not_resolves_of_error h)]

theorem mem_planResolutions {is : List Nat} :
    i ∈ (planResolutions entries options env is).map Prod.fst ↔
      i ∈ is ∧ Resolves entries options env i := by
  rw [map_fst_planResolutions, List.mem_filter, decide_eq_true_eq]

variable (options) in
/-- Effects of batch `s`: its attempts, of which there are not too many, that
resolve `rs`; and no token. -/
structure OfBatch (s : Nat) (es : List (Effect R)) (rs : List (Nat × List R)) : Prop where
  resolutions_eq : resolutions es = rs
  calls_eq : ∃ n ≤ options.maxAttempts, calls es = (List.range' 1 n).map fun k => (s, k)
  no_token : ∀ token, .onCheckpoint token ∉ es

/-- An effect that submits nothing and hands out no token. -/
def Effect.Quiet (e : Effect R) : Prop :=
  e.resolution = none ∧ e.call = none ∧ ∀ token, e ≠ .onCheckpoint token

theorem quiet_emitProgress (stage : SafeBatchProgressStage) (i n : Int) (message : String)
    (k : Option Nat) : (emitProgress (R := R) entries options stage i n message k).Quiet :=
  ⟨rfl, rfl, fun _ => nofun⟩

theorem quiet_batchSuccess (i : Nat) (rs : List R) : (Effect.onBatchSuccess i rs).Quiet :=
  ⟨rfl, rfl, fun _ => nofun⟩

theorem Effect.Quiet.resolutions_cons (h : e.Quiet) (es : List (Effect R)) :
    resolutions (e :: es) = resolutions es := List.filterMap_cons_none h.1

theorem Effect.Quiet.resolved_cons (h : e.Quiet) (es : List (Effect R)) :
    resolved (e :: es) = resolved es := by
  rw [resolved, h.resolutions_cons, resolved]

theorem Effect.Quiet.calls_cons (h : e.Quiet) (es : List (Effect R)) :
    calls (e :: es) = calls es := List.filterMap_cons_none h.2.1

variable {es : List (Effect R)}

theorem resolutions_quiet (h : ∀ e ∈ es, e.Quiet) : resolutions es = [] :=
  List.filterMap_eq_nil_iff.mpr fun e he => (h e he).1

theorem calls_quiet (h : ∀ e ∈ es, e.Quiet) : calls es = [] :=
  List.filterMap_eq_nil_iff.mpr fun e he => (h e he).2.1

variable {rs : List (Nat × List R)}

theorem OfBatch.submitted_eq {s : Nat}
    (h : OfBatch options s es rs) : ∀ i ∈ submitted es, i = s := by
  obtain ⟨n, -, hcalls⟩ := h.calls_eq
  intro i hi
  rw [submitted, hcalls] at hi
  simp only [List.map_map, List.mem_map, Function.comp_apply] at hi
  obtain ⟨k, -, rfl⟩ := hi
  rfl

theorem ofBatch_quiet {s : Nat} (h : ∀ e ∈ es, e.Quiet) : OfBatch options s es [] where
  resolutions_eq := resolutions_quiet h
  calls_eq := ⟨0, Nat.zero_le _, calls_quiet h⟩
  no_token token hmem := (h _ hmem).2.2 token rfl

/-- Quiet effects before and after those of a batch. -/
theorem OfBatch.between {s : Nat} {es before after : List (Effect R)}
    (h : OfBatch options s es rs) (hb : ∀ e ∈ before, e.Quiet) (ha : ∀ e ∈ after, e.Quiet) :
    OfBatch options s (before ++ es ++ after) rs where
  resolutions_eq := by
    rw [resolutions_append, resolutions_append, resolutions_quiet hb, resolutions_quiet ha, h.resolutions_eq,
      List.nil_append, List.append_nil]
  calls_eq := by
    obtain ⟨n, hn, hcalls⟩ := h.calls_eq
    refine ⟨n, hn, ?_⟩
    rw [calls_append, calls_append, calls_quiet hb, calls_quiet ha, hcalls, List.nil_append, List.append_nil]
  no_token token hmem := by
    rcases List.mem_append.mp hmem with hmem | hmem
    · rcases List.mem_append.mp hmem with hmem | hmem
      · exact (hb _ hmem).2.2 token rfl
      · exact h.no_token token hmem
    · exact (ha _ hmem).2.2 token rfl

variable (entries options env) in
theorem ofBatch_submitBatch (s : Nat) (items : Int) :
    OfBatch options s (submitBatch entries options env (planBatch entries options s) items).1
      ((batchResult entries options env s).toOption.map fun rs => (s, rs)).toList where
  resolutions_eq := resolutions_submitBatch s items
  calls_eq := calls_submitAttempts _ _ _ _ _
  no_token token := no_token_submitAttempts _ _ token _ _ _

variable [PayrollEntry T]

variable (host entries options env) in
/-- The loop over `m` batches of the plan from `s` on. -/
def submitFrom (s m : Nat) (p : Progress R) : List (Effect R) × SafeBatchSubmissionResult R :=
  submitBatches host entries options env ((List.range' s m).map (planBatch entries options)) p

variable (host entries options env) in
/-- What one round of the loop, at batch `s`, does before the `m` that are
left. -/
inductive Round (m s : Nat) (p : Progress R) : List (Effect R) × SafeBatchSubmissionResult R → Prop
  | cancelled {es : List (Effect R)} (ha : env.aborted (.batchStart s) = true) (h : OfBatch options s es []) :
      Round m s p (es, stoppedResult entries options p s
        (cancelledDetail host entries options env s p.batchesSucceeded p.itemsProcessed))
  | resolved {rs : List R} {es : List (Effect R)} (ha : env.aborted (.batchStart s) = false)
      (hr : batchResult entries options env s = .ok rs) (h : OfBatch options s es [(s, rs)])
      (hstart : (s : Int) ∈ started es) {next : List (Effect R) × SafeBatchSubmissionResult R}
      (hn : submitFrom host entries options env (s + 1) m (p.advance entries options [(s, rs)]) = next) :
      Round m s p (es ++ .onCheckpoint (makeResumeToken host entries options env s (s + 1)
        (p.itemsProcessed + (planBatch entries options s).count)) :: next.1, next.2)
  | stopped {last : Option String} {es : List (Effect R)} (ha : env.aborted (.batchStart s) = false)
      (hr : batchResult entries options env s = .error last) (hs : options.stops = true)
      (h : OfBatch options s es []) :
      Round m s p (es, stoppedResult entries options p s
        (failedDetail host entries options env s p.batchesSucceeded p.itemsProcessed last))
  | passed {last : Option String} {es : List (Effect R)} (ha : env.aborted (.batchStart s) = false)
      (hr : batchResult entries options env s = .error last) (hs : ¬ options.stops = true)
      (h : OfBatch options s es []) (hstart : (s : Int) ∈ started es)
      {next : List (Effect R) × SafeBatchSubmissionResult R}
      (hn : submitFrom host entries options env (s + 1) m p = next) :
      Round m s p (es ++ next.1, next.2)

variable (host entries options env) in
theorem submitFrom_succ (m s : Nat) (p : Progress R) :
    Round host entries options env m s p (submitFrom host entries options env s (m + 1) p) := by
  have hlist : ∀ (e f g c : Effect R) (es next : List (Effect R)),
      e :: es ++ [f, g, c] ++ next = [e] ++ es ++ [f, g] ++ c :: next := by simp
  rw [submitFrom, List.range'_succ, List.map_cons, submitBatches]
  split
  · rename_i ha
    exact .cancelled ha (ofBatch_quiet (by simp [quiet_emitProgress]))
  rename_i ha
  have ha := Bool.eq_false_iff.mpr ha
  have hbatch := ofBatch_submitBatch entries options env s p.itemsProcessed
  simp only [submitBatch_snd]
  split
  · rename_i rs hrs
    rw [hrs] at hbatch
    rw [hlist]
    refine .resolved ha hrs (hbatch.between ?_ ?_) List.mem_cons_self ?_
    · simp [quiet_emitProgress]
    · simp [quiet_emitProgress, quiet_batchSuccess]
    · rw [Progress.advance_cons, Progress.advance_nil]
      rfl
  · rename_i last hlast
    rw [hlast] at hbatch
    have hbatch' : ∀ e f : Effect R, e.Quiet → f.Quiet → OfBatch options s
        (e :: (submitBatch entries options env (planBatch entries options s) p.itemsProcessed).1 ++ [f]) [] :=
      fun e f he hf => @OfBatch.between _ _ _ _ _ [e] [f] hbatch (by simpa using he) (by simpa using hf)
    split
    · rename_i hst
      exact .stopped ha hlast hst (hbatch' _ _ (quiet_emitProgress ..) (quiet_emitProgress ..))
    · rename_i hst
      exact .passed ha hlast hst (hbatch' _ _ (quiet_emitProgress ..) (quiet_emitProgress ..))
        List.mem_cons_self rfl

variable (host entries options env) in
/-- How the loop over `m` batches from `s` on ends, after it has tried `t` of
them. -/
inductive LoopEnd (s m : Nat) (p : Progress R) : (t : Nat) → SafeBatchSubmissionResult R → Prop
  /-- All have been tried; if failures stop the run, there was none. -/
  | completed (h : options.stops = true → ∀ i, s ≤ i → i < s + m → Resolves entries options env i) :
      LoopEnd s m p m (completedResult entries options p)
  /-- The signal is aborted before batch `s + t`. -/
  | cancelled {t : Nat} (ht : t < m) (ha : env.aborted (.batchStart (s + t)) = true)
      (h : options.stops = true → ∀ i, s ≤ i → i < s + t → Resolves entries options env i) :
      LoopEnd s m p t (stoppedResult entries options p (s + t)
        (cancelledDetail host entries options env (s + t) p.batchesSucceeded p.itemsProcessed))
  /-- Batch `s + t` fails, and failures stop the run. -/
  | failed {t : Nat} (ht : t < m) (last : Option String) (hs : options.stops = true)
      (hf : ¬ Resolves entries options env (s + t))
      (h : ∀ i, s ≤ i → i < s + t → Resolves entries options env i) :
      LoopEnd s m p t (stoppedResult entries options p (s + t)
        (failedDetail host entries options env (s + t) p.batchesSucceeded p.itemsProcessed last))

variable {p : Progress R}

/-- One more batch in front, that resolves or whose failure does not stop the
run. -/
theorem LoopEnd.cons {s m t : Nat} {r : SafeBatchSubmissionResult R}
    (h : LoopEnd host entries options env (s + 1) m p t r)
    (hs : options.stops = true → Resolves entries options env s) :
    LoopEnd host entries options env s (m + 1) p (t + 1) r := by
  have hext : ∀ {e : Nat}, (∀ i, s + 1 ≤ i → i < s + 1 + e → Resolves entries options env i) →
      options.stops = true → ∀ i, s ≤ i → i < s + (e + 1) → Resolves entries options env i := by
    intro e h hst i hi hie
    rcases Nat.eq_or_lt_of_le hi with rfl | hlt
    · exact hs hst
    · exact h i hlt (by omega)
  cases h with
  | completed h => exact .completed fun hst => hext (h hst) hst
  | cancelled ht ha h =>
    rw [Nat.add_right_comm, Nat.add_assoc s _ 1] at ha ⊢
    exact .cancelled (by omega) ha fun hst => hext (h hst) hst
  | failed ht last hst hf h =>
    rw [Nat.add_right_comm, Nat.add_assoc s _ 1] at hf ⊢
    exact .failed (by omega) last hst hf (hext h hst)

theorem started_append (es fs : List (Effect R)) : started (es ++ fs) = started es ++ started fs :=
  List.filterMap_append

variable (host entries options env) in
/-- All that the loop can do: it tries `t` batches, none of them with the
signal aborted at its start, and ends. -/
theorem submitFrom_ends (m s : Nat) (p : Progress R) :
    ∃ t, (∀ i, s ≤ i → i < s + t → env.aborted (.batchStart i) = false ∧
        (i : Int) ∈ started (submitFrom host entries options env s m p).1) ∧
      resolutions (submitFrom host entries options env s m p).1 =
        planResolutions entries options env (List.range' s t) ∧
      LoopEnd host entries options env s m
        (p.advance entries options (planResolutions entries options env (List.range' s t))) t
        (submitFrom host entries options env s m p).2 := by
  induction m generalizing s p with
  | zero =>
    refine ⟨0, fun i h₁ h₂ => by omega, rfl, ?_⟩
    rw [List.range'_zero, planResolutions, List.filterMap_nil, Progress.advance_nil]
    exact .completed fun _ i h₁ h₂ => by omega
  | succ m ih =>
    -- one more batch in front of those tried
    have hfront : ∀ {t} {P : Nat → Prop}, P s → (∀ i, s + 1 ≤ i → i < s + 1 + t → P i) →
        ∀ i, s ≤ i → i < s + (t + 1) → P i := by
      intro t P hs h i hi hit
      rcases Nat.eq_or_lt_of_le hi with rfl | hlt
      · exact hs
      · exact h i hlt (by omega)
    have hround := submitFrom_succ host entries options env m s p
    generalize submitFrom host entries options env s (m + 1) p = run at hround
    cases hround with
    | cancelled ha h =>
      refine ⟨0, fun i h₁ h₂ => by omega, h.resolutions_eq, ?_⟩
      rw [List.range'_zero, planResolutions, List.filterMap_nil, Progress.advance_nil]
      exact .cancelled (Nat.succ_pos m) ha fun _ i h₁ h₂ => by omega
    | @resolved rs es ha hr h hstart next hn =>
      obtain ⟨t, hsig, hres, hend⟩ := ih (s + 1) (p.advance entries options [(s, rs)])
      rw [hn] at hsig hres hend
      simp only [started_append, List.mem_append]
      refine ⟨t + 1, hfront ⟨ha, .inl hstart⟩ fun i h₁ h₂ =>
        ⟨(hsig i h₁ h₂).1, .inr (hsig i h₁ h₂).2⟩, ?_, ?_⟩
      · rw [List.range'_succ, planResolutions_cons_ok hr, resolutions_append, h.resolutions_eq,
          resolutions_checkpoint, hres, List.singleton_append]
      · rw [List.range'_succ, planResolutions_cons_ok hr, Progress.advance_cons]
        rw [Progress.advance_cons, Progress.advance_nil] at hend
        exact hend.cons fun _ => resolves_of_ok hr
    | stopped ha hr hs h =>
      refine ⟨0, fun i h₁ h₂ => by omega, h.resolutions_eq, ?_⟩
      rw [List.range'_zero, planResolutions, List.filterMap_nil, Progress.advance_nil]
      exact .failed (Nat.succ_pos m) _ hs (not_resolves_of_error hr) fun i h₁ h₂ => by omega
    | passed ha hr hs h hstart hn =>
      obtain ⟨t, hsig, hres, hend⟩ := ih (s + 1) p
      rw [hn] at hsig hres hend
      simp only [started_append, List.mem_append]
      refine ⟨t + 1, hfront ⟨ha, .inl hstart⟩ fun i h₁ h₂ =>
        ⟨(hsig i h₁ h₂).1, .inr (hsig i h₁ h₂).2⟩, ?_, ?_⟩
      · rw [List.range'_succ, planResolutions_cons_error hr, resolutions_append, h.resolutions_eq, hres,
          List.nil_append]
      · rw [List.range'_succ, planResolutions_cons_error hr]
        exact hend.cons fun hst => absurd hst hs

/-- The batches that the loop resolves. -/
theorem mem_resolved_submitFrom {m s t : Nat}
    (h : resolutions (submitFrom host entries options env s m p).1 =
      planResolutions entries options env (List.range' s t)) (i : Nat) :
    i ∈ resolved (submitFrom host entries options env s m p).1 ↔
      s ≤ i ∧ i < s + t ∧ Resolves entries options env i := by
  rw [resolved, h, mem_planResolutions, List.mem_range'_1, and_assoc]

/-- The order in which calls are made: by batch, then by attempt. -/
def CallBefore (c d : Nat × Nat) : Prop := c.1 < d.1 ∨ c.1 = d.1 ∧ c.2 < d.2

theorem pairwise_attempts (s a n : Nat) :
    ((List.range' a n).map fun k => (s, k)).Pairwise CallBefore :=
  List.pairwise_map.mpr ((List.pairwise_lt_range' 1 (by decide)).imp fun h => .inr ⟨rfl, h⟩)

/-- The calls of one batch come before those of later batches. -/
theorem OfBatch.callBefore {s : Nat}
    (h : OfBatch options s es rs) {cs : List (Nat × Nat)} (hcs : ∀ c ∈ cs, s + 1 ≤ c.1)
    (hp : cs.Pairwise CallBefore) :
    (calls es ++ cs).Pairwise CallBefore ∧
      ∀ c ∈ calls es ++ cs, s ≤ c.1 ∧ (c.1 = s → 1 ≤ c.2 ∧ c.2 ≤ options.maxAttempts) := by
  obtain ⟨n, hn, hcalls⟩ := h.calls_eq
  have hmem : ∀ c ∈ calls es, c.1 = s ∧ 1 ≤ c.2 ∧ c.2 ≤ options.maxAttempts := by
    intro c hc
    rw [hcalls] at hc
    obtain ⟨k, hk, rfl⟩ := List.mem_map.mp hc
    rw [List.mem_range'_1] at hk
    exact ⟨rfl, hk.1, by omega⟩
  refine ⟨List.pairwise_append.mpr ⟨hcalls ▸ pairwise_attempts s 1 n, hp, fun c hc d hd => ?_⟩, ?_⟩
  · have h₁ := (hmem c hc).1
    have h₂ := hcs d hd
    exact .inl (by omega)
  · intro c hc
    rcases List.mem_append.mp hc with hc | hc
    · exact ⟨(hmem c hc).1.ge, fun _ => (hmem c hc).2⟩
    · have := hcs c hc
      exact ⟨by omega, fun h => by omega⟩

/-- The loop from batch `s` on calls `submitBatchFn` for no earlier batch, in
order, and for each batch at most `maxAttempts` times. -/
theorem calls_submitFrom (m s : Nat) (p : Progress R) :
    (calls (submitFrom host entries options env s m p).1).Pairwise CallBefore ∧
      ∀ c ∈ calls (submitFrom host entries options env s m p).1,
        s ≤ c.1 ∧ 1 ≤ c.2 ∧ c.2 ≤ options.maxAttempts := by
  induction m generalizing s p with
  | zero => exact ⟨List.Pairwise.nil, fun c hc => nomatch hc⟩
  | succ m ih =>
    have hround := submitFrom_succ host entries options env m s p
    generalize submitFrom host entries options env s (m + 1) p = run at hround
    -- the calls of the round, and those of the rounds after it
    have hjoin : ∀ {es next : List (Effect R)} {rs : List (Nat × List R)}, OfBatch options s es rs →
        ((calls next).Pairwise CallBefore ∧
          ∀ c ∈ calls next, s + 1 ≤ c.1 ∧ 1 ≤ c.2 ∧ c.2 ≤ options.maxAttempts) →
        (calls es ++ calls next).Pairwise CallBefore ∧
          ∀ c ∈ calls es ++ calls next, s ≤ c.1 ∧ 1 ≤ c.2 ∧ c.2 ≤ options.maxAttempts := by
      intro es next rs h ⟨hp, hall⟩
      obtain ⟨h₁, h₂⟩ := h.callBefore (fun c hc => (hall c hc).1) hp
      refine ⟨h₁, fun c hc => ⟨(h₂ c hc).1, ?_⟩⟩
      rcases List.mem_append.mp hc with hes | hnext
      · exact (h₂ c hc).2 (h.submitted_eq c.1 (List.mem_map_of_mem hes))
      · exact (hall c hnext).2
    have hnil : (calls ([] : List (Effect R))).Pairwise CallBefore ∧
        ∀ c ∈ calls ([] : List (Effect R)), s + 1 ≤ c.1 ∧ 1 ≤ c.2 ∧ c.2 ≤ options.maxAttempts :=
      ⟨List.Pairwise.nil, fun c hc => nomatch hc⟩
    cases hround with
    | cancelled _ h => simpa [calls] using hjoin h hnil
    | stopped _ _ _ h => simpa [calls] using hjoin h hnil
    | resolved _ _ h _ hn =>
      subst hn
      rw [calls_append]
      exact hjoin h (ih (s + 1) _)
    | passed _ _ _ h _ hn =>
      subst hn
      rw [calls_append]
      exact hjoin h (ih (s + 1) _)

/-- The loop from batch `s` on submits no earlier batch. -/
theorem le_of_mem_submitted (m s : Nat) (p : Progress R) :
    ∀ i ∈ submitted (submitFrom host entries options env s m p).1, s ≤ i := by
  intro i hi
  obtain ⟨c, hc, rfl⟩ := List.mem_map.mp hi
  exact ((calls_submitFrom m s p).2 c hc).1

theorem resolved_subset_submitted (es : List (Effect R)) : ∀ i ∈ resolved es, i ∈ submitted es := by
  intro i hi
  obtain ⟨⟨j, rs⟩, hj, rfl⟩ := List.mem_map.mp hi
  obtain ⟨e, he, hr⟩ := List.mem_filterMap.mp hj
  obtain ⟨k, rfl⟩ := Effect.resolution_eq_some.mp hr
  exact List.mem_map.mpr ⟨(j, k), List.mem_filterMap.mpr ⟨_, he, rfl⟩, rfl⟩

theorem resolved_append (es fs : List (Effect R)) : resolved (es ++ fs) = resolved es ++ resolved fs := by
  rw [resolved, resolutions_append, List.map_append, ← resolved, ← resolved]

section Step

variable {s i : Nat} {es pre : List (Effect R)}

omit [PayrollEntry T] in
/-- A trace that starts with that of batch `s` resolves it if it does, and what
the rest resolves. -/
theorem mem_resolved_step (hes : ∀ j, j ∈ resolved es ↔ j = s ∧ Resolves entries options env s) (hsi : s ≤ i)
    (hpre : ∀ j, j ∈ resolved pre ↔ s + 1 ≤ j ∧ j ≤ i ∧ Resolves entries options env j) (j : Nat) :
    j ∈ resolved (es ++ pre) ↔ s ≤ j ∧ j ≤ i ∧ Resolves entries options env j := by
  rw [resolved_append, List.mem_append, hes, hpre]
  constructor
  · rintro (⟨rfl, hresolves⟩ | ⟨hlt, hle, hresolves⟩)
    · exact ⟨le_rfl, hsi, hresolves⟩
    · exact ⟨by omega, hle, hresolves⟩
  · rintro ⟨hsj, hle, hresolves⟩
    rcases Nat.eq_or_lt_of_le hsj with rfl | hlt
    · exact .inl ⟨rfl, hresolves⟩
    · exact .inr ⟨hlt, hle, hresolves⟩

omit [PayrollEntry T] in
/-- It shows batch `s` as started, and those that the rest does. -/
theorem started_step (hstart : (s : Int) ∈ started es) (hs : options.stops = true → Resolves entries options env s)
    (hpre : ∀ j, s + 1 ≤ j → j ≤ i →
      (j : Int) ∈ started pre ∧ (options.stops = true → Resolves entries options env j)) (j : Nat) (hsj : s ≤ j)
    (hji : j ≤ i) :
    (j : Int) ∈ started (es ++ pre) ∧ (options.stops = true → Resolves entries options env j) := by
  rw [started_append, List.mem_append]
  rcases Nat.eq_or_lt_of_le hsj with rfl | hlt
  · exact ⟨.inl hstart, hs⟩
  · obtain ⟨hstarted, hresolves⟩ := hpre j hlt hji
    exact ⟨.inr hstarted, hresolves⟩

end Step

/-- A checkpoint is made after a batch `i` that resolved: its token resumes at
the batch after it, the batches that resolved before it are those up to `i`
that do, and all that resolve after it come later in the plan. -/
theorem submitFrom_checkpoint {m s : Nat} {pre post : List (Effect R)} {token : String}
    (h : (submitFrom host entries options env s m p).1 = pre ++ .onCheckpoint token :: post) :
    ∃ i items, s ≤ i ∧ i < s + m ∧ token = makeResumeToken host entries options env i (i + 1) items ∧
      (∀ j, j ∈ resolved pre ↔ s ≤ j ∧ j ≤ i ∧ Resolves entries options env j) ∧
      (∀ j, s ≤ j → j ≤ i → (j : Int) ∈ started pre ∧
        (options.stops = true → Resolves entries options env j)) ∧
      ∀ j ∈ resolved post, i < j := by
  induction m generalizing s p pre with
  | zero =>
    have : Effect.onCheckpoint token ∈ (submitFrom host entries options env s 0 p).1 := by rw [h]; simp
    simp [submitFrom, submitBatches, emitProgress] at this
  | succ m ih =>
    have hround := submitFrom_succ host entries options env m s p
    generalize submitFrom host entries options env s (m + 1) p = run at hround h
    have htoken : .onCheckpoint token ∈ run.1 := by rw [h]; simp
    cases hround with
    | cancelled _ hes => exact absurd htoken (hes.no_token token)
    | stopped _ _ _ hes => exact absurd htoken (hes.no_token token)
    | @resolved rs es _ hr hes hstart next hn =>
      obtain ⟨pre', rfl, h'⟩ := split_of_notMem (hes.no_token token) h
      have hbatch (j : Nat) : j ∈ resolved es ↔ j = s ∧ Resolves entries options env s := by
        rw [resolved, hes.resolutions_eq, and_iff_left (resolves_of_ok hr)]
        exact List.mem_singleton
      cases pre' with
      | nil =>
        -- this is the checkpoint of batch `s`
        obtain ⟨htok, rfl⟩ := List.cons.inj h'
        have hnone : ∀ j, j ∈ resolved ([] : List (Effect R)) ↔ s + 1 ≤ j ∧ j ≤ s ∧ Resolves entries options env j :=
          fun j => iff_of_false List.not_mem_nil fun hj => absurd hj.2.1 (by omega)
        exact ⟨s, _, le_rfl, by omega, (Effect.onCheckpoint.inj htok).symm, mem_resolved_step hbatch le_rfl hnone,
          started_step hstart (fun _ => resolves_of_ok hr) fun j h₁ h₂ => absurd h₁ (by omega),
          fun j hj => le_of_mem_submitted m (s + 1) _ j (hn ▸ resolved_subset_submitted _ j hj)⟩
      | cons e pre'' =>
        obtain ⟨rfl, h''⟩ := List.cons.inj h'
        obtain ⟨i, items, hsi, him, htok, hmem, htried, hpost⟩ := ih (hn ▸ h'')
        exact ⟨i, items, by omega, by omega, htok, mem_resolved_step hbatch (by omega) hmem,
          started_step hstart (fun _ => resolves_of_ok hr) htried, hpost⟩
    | @passed last es _ hr hst hes hstart next hn =>
      obtain ⟨pre', rfl, h'⟩ := split_of_notMem (hes.no_token token) h
      obtain ⟨i, items, hsi, him, htok, hmem, htried, hpost⟩ := ih (hn ▸ h')
      have hbatch (j : Nat) : j ∈ resolved es ↔ j = s ∧ Resolves entries options env s := by
        rw [resolved, hes.resolutions_eq]
        exact iff_of_false List.not_mem_nil fun hj => not_resolves_of_error hr hj.2
      exact ⟨i, items, by omega, by omega, htok, mem_resolved_step hbatch (by omega) hmem,
        started_step hstart (fun h => absurd h hst) htried, hpost⟩

/-! ## The whole run -/

/-- A resume point lies in the plan. -/
theorem resumePoint_range (hb : 0 < options.effectiveBatchSize) {s items : Int}
    (h : resumePoint host entries options = .ok (s, items)) :
    0 ≤ s ∧ s ≤ totalBatches entries options := by
  have hzero : Except.ok (ε := SdkError) ((0 : Int), (0 : Int)) = .ok (s, items) →
      0 ≤ s ∧ s ≤ totalBatches entries options := by
    intro h
    obtain ⟨rfl, rfl⟩ := Prod.mk.inj (Except.ok.inj h)
    exact ⟨le_rfl, by omega⟩
  rw [resumePoint] at h
  split at h
  · exact hzero h
  split at h
  · exact hzero h
  rename_i token _ _
  cases hr : resolveResumeStart host entries (some options.effectiveBatchSize) token with
  | error e => rw [hr] at h; cases h
  | ok r =>
    rw [hr] at h
    obtain ⟨rfl, -⟩ := Prod.mk.inj (Except.ok.inj h)
    rw [totalBatches, length_batchPages]
    exact resolveResumeStart_range hb hr

variable (host entries options env) in
/-- The ways out of `submitSequentialPayrollBatches`. -/
inductive Exit : Run R → Prop
  | invalidSize {e : SdkError} (hb : options.effectiveBatchSize ≤ 0) : Exit { effects := [], outcome := .error e }
  | empty {e : Effect R} (hb : 0 < options.effectiveBatchSize) (hn : entries.length = 0) (he : e.Quiet) :
      Exit { effects := [e], outcome := .ok emptyResult }
  | refused {e : SdkError} (hb : 0 < options.effectiveBatchSize) (hn : 0 < entries.length)
      (hr : resumePoint host entries options = .error e) : Exit { effects := [], outcome := .error e }
  | covered {e f : Effect R} {items : Int} (hb : 0 < options.effectiveBatchSize) (hn : 0 < entries.length)
      (hr : resumePoint host entries options = .ok ((totalBatches entries options : Nat), items))
      (he : e.Quiet) (hf : f.Quiet) :
      Exit { effects := [e, f], outcome := .ok (coveredResult entries options items) }
  | ran {e : Effect R} {s : Nat} {items : Int} (hb : 0 < options.effectiveBatchSize) (hn : 0 < entries.length)
      (hr : resumePoint host entries options = .ok ((s : Nat), items))
      (hs : s < totalBatches entries options) (he : e.Quiet)
      {rest : List (Effect R) × SafeBatchSubmissionResult R}
      (hrest : submitFrom host entries options env s (totalBatches entries options - s)
        { batchesSucceeded := s, itemsProcessed := items, results := [] } = rest) :
      Exit { effects := e :: rest.1, outcome := .ok rest.2 }

variable (host entries options env) in
theorem submit_exit :
    Exit host entries options env (submitSequentialPayrollBatches host entries options env) := by
  rw [submitSequentialPayrollBatches]
  rcases le_or_gt options.effectiveBatchSize 0 with hb | hb
  · rw [assertValidPageSize, if_pos hb]
    exact .invalidSize hb
  rw [assertValidPageSize_some hb]
  simp only []
  split
  · rename_i hn
    exact .empty hb hn ⟨rfl, rfl, by simp⟩
  rename_i hn
  have hn : 0 < entries.length := Nat.pos_of_ne_zero hn
  split
  · rename_i e hr
    exact .refused hb hn hr
  rename_i s items hr
  obtain ⟨hs₀, hs₁⟩ := resumePoint_range hb hr
  obtain ⟨s, rfl⟩ := Int.eq_ofNat_of_zero_le hs₀
  split
  · rename_i hs
    obtain rfl : s = totalBatches entries options := by omega
    exact .covered hb hn hr (quiet_emitProgress ..) (quiet_emitProgress ..)
  · rename_i hs
    refine .ran hb hn hr (by omega) (quiet_emitProgress ..) ?_
    rw [submitFrom, drop_batchPages, totalBatches, length_batchPages]
    rfl

/-- A run calls `submitBatchFn` batch after batch, and attempt after
attempt. -/
theorem calls_pairwise :
    (calls (submitSequentialPayrollBatches host entries options env).effects).Pairwise CallBefore := by
  have hexit := submit_exit host entries options env
  generalize submitSequentialPayrollBatches host entries options env = run at hexit
  cases hexit with
  | invalidSize _ => exact List.Pairwise.nil
  | refused _ _ _ => exact List.Pairwise.nil
  | empty _ _ he => rw [he.calls_cons]; exact List.Pairwise.nil
  | covered _ _ _ he hf => rw [he.calls_cons, hf.calls_cons]; exact List.Pairwise.nil
  | ran _ _ _ _ he hrest =>
    rw [he.calls_cons, ← hrest]
    exact (calls_submitFrom _ _ _).1

end ZkPayroll.Payroll
