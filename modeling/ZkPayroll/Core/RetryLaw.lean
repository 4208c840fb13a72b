import ZkPayroll.Core.RetrySteps
import ZkPayroll.Framework.Transition

/-!
# The law of a retry sequence

When a call of `withRetryBudget` starts the function, and what it resolves with
(`RetryLaw`), over all runs of it from a new registry (`RetryRun`). Each part of
the law follows by induction on the run from what a step does (`Moves`): a
sequence that has ended, or whose signal is aborted, starts nothing more
(`starts_of_kept`), the number of starts is bounded by that of the attempt
(`Bounded`), and a value is that of a call that an attempt waited for (`Valued`).

With a timer, a rejection with `undefined` is taken for a result: the law holds
of the runs without one, and of no other (`retryLaw_iff`).
-/

namespace ZkPayroll.Core.RetryBudget

open Framework Idempotency

variable {T : Type} {o : WithRetryBudgetOptions} {s s' : RetrySequence T} {e : RetryEvent T}

/-! ## Runs and their law -/

instance : Decidable (s.StartsFn s') := inferInstanceAs (Decidable (_ = _))

abbrev RetryStep (T : Type) := Taken (RetrySequence T) (RetryEvent T)

/-- The steps that start the function. -/
def starts (steps : List (RetryStep T)) : List (RetryStep T) :=
  steps.filter fun t => decide (t.before.StartsFn t.after)

/-- The clock that a step reads before an attempt. -/
def RetryEvent.clock : RetryEvent T → Option Int
  | .start _ r _ => some r.now
  | .slept r _ => some r.now
  | _ => none

/-- An attempt fails with an error: its promise rejects, or its timer does. -/
def RetryFails (t : RetryStep T) (err : SdkError) : Prop :=
  (∃ r attempt awaited timer, t.event = .settled r ∧ t.before.phase = .attempting attempt awaited timer ∧
    awaited.result t.before.world = some (.error err)) ∨
  ∃ r, t.event = .timerRejected r err

/-- A step that calls the function: an attempt of the sequence, or, through the
registry, one of another sequence with the same key. The call has number `id`. -/
def Invokes (o : WithRetryBudgetOptions) (t : RetryStep T) (id : Nat) : Prop :=
  id = t.before.world.calls.length ∧
    (t.before.StartsFn t.after ∨
      (o.registry = true ∧ o.hasIdempotencyKey = true) ∧ ∃ key f, t.event = .shared key f)

/-- The law of the steps of a sequence up to a state. -/
structure RetryLaw (o : WithRetryBudgetOptions) (steps : List (RetryStep T)) (last : RetrySequence T) : Prop where
  /-- The function is started at most `Math.max(1, budget.maxAttempts)` times, the
  `maxAttempts` of the code, -/
  attempts : ((starts steps).length : Int) ≤ max 1 o.retryBudget.maxAttempts
  /-- and once if a key is required and there is none. -/
  refused : o.retryBudget.idempotencyRequired = true → o.hasIdempotencyKey = false → (starts steps).length ≤ 1
  /-- It is not started after a failure that is not to be retried, -/
  nonRetryable : ∀ past t next err, steps = past ++ t :: next → RetryFails t err →
    (classifyError err).category = .NON_RETRYABLE → starts next = []
  /-- after the signal is aborted, -/
  aborted : ∀ past t next, steps = past ++ t :: next → t.before.aborted = true ∨ t.event = .abort →
    starts (t :: next) = []
  /-- or after the deadline. -/
  deadline : ∀ t ∈ starts steps, ∀ timeoutMs, o.retryBudget.timeoutMs = some timeoutMs →
    ∃ now, t.event.clock = some now ∧ now - t.after.startedAt < timeoutMs
  /-- The sequence resolves with the value of a call of the function that
  resolved, and that one of its attempts waited for. -/
  resolves : ∀ v, last.phase = .done (.resolved v) →
    ∃ id c value, v = some value ∧ id ∈ last.attempts ∧ last.world.calls[id]? = some c ∧
      c.state = .finished (.ok value) ∧ ∃ t ∈ steps, Invokes o t id

/-- A run of a call of `withRetryBudget`, from a new registry. -/
structure RetryRun (o : WithRetryBudgetOptions) (T : Type) where
  first : RetrySequence T
  steps : List (RetryStep T)
  last : RetrySequence T
  new : NewSequence first
  taken : Steps (fun s e s' => s.Step o e s') first steps last

/-! ## After an end, and after an abort -/

theorem starts_append (ts us : List (RetryStep T)) : starts (ts ++ us) = starts ts ++ starts us :=
  List.filter_append ..

variable {steps : List (RetryStep T)}

/-- A run from a state that every step keeps, and in which none starts the function. -/
theorem starts_of_kept {P : RetrySequence T → Prop}
    (hstep : ∀ s e s', P s → Moves o s e s' → P s' ∧ ¬s.StartsFn s')
    (h : Steps (fun s e s' => s.Step o e s') s steps s') (hs : P s) : P s' ∧ starts steps = [] := by
  induction h with
  | nil s => exact ⟨hs, rfl⟩
  | cons hmove _ ih =>
    obtain ⟨hnext, hnot⟩ := hstep _ _ _ hs hmove.moves
    obtain ⟨hlast, hnone⟩ := ih hnext
    exact ⟨hlast, by rw [starts, List.filter_cons_of_neg (by simpa using hnot), ← starts, hnone]⟩

theorem starts_of_done (h : Steps (fun s e s' => s.Step o e s') s steps s')
    {outcome : Outcome T} (hp : s.phase = .done outcome) : s'.phase = .done outcome ∧ starts steps = [] :=
  starts_of_kept (fun _ _ _ hp hmove => hmove.of_done hp) h hp

theorem starts_of_aborted (h : Steps (fun s e s' => s.Step o e s') s steps s')
    (ha : s.aborted = true) : starts steps = [] :=
  (starts_of_kept (fun _ _ _ ha hmove => hmove.of_aborted ha) h ha).2

/-- A failure that is not to be retried ends the sequence. -/
theorem done_of_nonRetryable {t : RetryStep T} (h : t.before.Step o t.event t.after) {err : SdkError}
    (hf : RetryFails t err) (hn : (classifyError err).category = .NON_RETRYABLE) :
    ∃ outcome, t.after.phase = .done outcome := by
  have hfail : ∀ (s : RetrySequence T) (r : Reads) (attempt : Nat),
      ∃ outcome, (s.failAttempt o r attempt err false).phase = .done outcome := by
    intro s r attempt
    unfold RetrySequence.failAttempt
    simp only [hn, Bool.not_false, Bool.true_and, beq_self_eq_true, if_true]
    split
    · exact ⟨_, rfl⟩
    · exact ⟨_, rfl⟩
  have hsettled : ∀ (s : RetrySequence T) (r : Reads) (attempt : Nat) (timer : Bool),
      ∃ outcome, (s.attemptSettled o r attempt timer (.error err)).phase = .done outcome := by
    intro s r attempt timer
    unfold RetrySequence.attemptSettled RetrySequence.catchAttempt
    simp only []
    split
    · exact ⟨_, rfl⟩
    split
    · exact ⟨_, rfl⟩
    · exact hfail s r attempt
  obtain ⟨before, event, after⟩ := t
  rcases hf with ⟨r, attempt, awaited, timer, he, hp, hr⟩ | ⟨r, he⟩
  · simp only at he hp hr h
    subst he
    cases h with
    | settled _ hp' hr' =>
      obtain ⟨rfl, rfl, rfl⟩ := Phase.attempting.inj (hp.symm.trans hp')
      obtain rfl := Option.some.inj (hr.symm.trans hr')
      exact hsettled _ _ _ _
  · simp only at he h
    subst he
    cases h with
    | timerRejected _ _ _ => exact hsettled _ _ _ _

/-! ## Counting the starts -/

theorem one_le_maxAttempts (o : WithRetryBudgetOptions) : 1 ≤ o.maxAttempts := by
  unfold WithRetryBudgetOptions.maxAttempts
  split <;> omega

/-- What `n` starts so far say of the phase. -/
def Bounded (o : WithRetryBudgetOptions) (n : Nat) : Phase T → Prop
  | .idle => n = 0
  | .attempting attempt _ _ => n ≤ attempt ∧ (attempt : Int) ≤ o.maxAttempts
  | .sleeping attempt _ => n ≤ attempt ∧ (attempt : Int) < o.maxAttempts
  | .done _ => (n : Int) ≤ o.maxAttempts

theorem Bounded.le {n : Nat} : ∀ {p : Phase T}, Bounded o n p → (n : Int) ≤ o.maxAttempts
  | .idle, h => by
    have := one_le_maxAttempts o
    have h : n = 0 := h
    omega
  | .attempting _ _ _, h => by
    have := h.1
    have := h.2
    omega
  | .sleeping _ _, h => by
    have := h.1
    have := h.2
    omega
  | .done _, h => h

/-- An attempt that begins is within the bound. -/
theorem Bounded.of_enters {n : Nat} (hb : Bounded o n s.phase) {startedAt : Int} {r : Reads} {f : FnCall}
    {attempt : Nat} {lastError : SdkError} (h : Enters s e startedAt r f attempt lastError) :
    n + 1 ≤ attempt ∧ (attempt : Int) ≤ o.maxAttempts := by
  cases h with
  | first hp _ =>
    rw [hp] at hb
    have := one_le_maxAttempts o
    have hb : n = 0 := hb
    omega
  | again hp =>
    rw [hp] at hb
    have := hb.1
    have := hb.2
    omega

theorem Moves.bounded (h : Moves o s e s') {n : Nat} (hb : Bounded o n s.phase) :
    Bounded o (n + if s.StartsFn s' then 1 else 0) s'.phase := by
  have hstay : ∀ s' : RetrySequence T, s'.attempts = s.attempts → Bounded o n s'.phase →
      Bounded o (n + if s.StartsFn s' then 1 else 0) s'.phase := by
    intro s' heq hb'
    rwa [if_neg (not_startsFn heq), Nat.add_zero]
  cases h with
  | @begins _ startedAt r f attempt lastError henters =>
    have hle := hb.of_enters henters
    rcases beginAttempt_cases (s := { s with startedAt := startedAt }) (o := o) r f attempt lastError with
      ⟨outcome, -, heq⟩ | ⟨-, -, heq⟩
    · rw [heq]
      exact hstay _ rfl hb.le
    · rw [heq]
      refine ⟨?_, hle.2⟩
      split <;> omega
  | leaves _ hp hleaves _ =>
    rw [hp] at hb
    cases hleaves with
    | ends _ => exact hstay _ rfl hb.le
    | sleeps hlt => exact hstay _ rfl ⟨hb.1, hlt⟩
  | resolves _ _ => exact hstay _ rfl hb.le
  | resolvesUndefined _ _ _ => exact hstay _ rfl hb.le
  | ends _ _ _ => exact hstay _ rfl hb.le
  | aborts => exact hstay _ rfl hb
  | shared _ _ => exact hstay _ rfl hb
  | other _ _ => exact hstay _ rfl hb

theorem length_starts_concat (past : List (RetryStep T)) (t : RetryStep T) :
    (starts (past ++ [t])).length = (starts past).length + if t.before.StartsFn t.after then 1 else 0 := by
  rw [starts_append, List.length_append]
  by_cases ht : t.before.StartsFn t.after
  · rw [if_pos ht, show starts [t] = [t] from List.filter_cons_of_pos (by simpa using ht)]
    rfl
  · rw [if_neg ht, show starts [t] = [] from List.filter_cons_of_neg (by simpa using ht)]
    rfl

theorem length_starts_le (h : Steps (fun s e s' => s.Step o e s') s steps s')
    (hp : s.phase = .idle) : ((starts steps).length : Int) ≤ o.maxAttempts := by
  have hrun := h.invariant (I := fun past s => Bounded o (starts past).length s.phase)
    (fun past s e s' hb hstep => by
      rw [length_starts_concat]
      exact hstep.moves.bounded hb)
    [] (by rw [hp]; exact rfl)
  exact hrun.le

/-! ## Where the calls come from -/

variable {k key : String} {w : World T}

/-- The calls of the key, and those that the sequence waits for, were made by
its steps. -/
structure Traced (o : WithRetryBudgetOptions) (past : List (RetryStep T)) (s : RetrySequence T) : Prop where
  calls {i : Nat} {c : Call T} : s.world.calls[i]? = some c → c.key = o.key → ∃ t ∈ past, Invokes o t i
  entries {f : String × IdempotencyEntry} : f ∈ s.world.entries → f.1 = o.key →
    ∃ c, s.world.calls[f.2.call]? = some c ∧ c.key = o.key
  attempts {id : Nat} : id ∈ s.attempts → ∃ t ∈ past, Invokes o t id

variable {past : List (RetryStep T)}

theorem invoked_concat {t : RetryStep T} {id : Nat} (h : ∃ u ∈ past, Invokes o u id) :
    ∃ u ∈ past ++ [t], Invokes o u id := by
  obtain ⟨u, hu, hinvokes⟩ := h
  exact ⟨u, List.mem_append_left _ hu, hinvokes⟩

theorem Traced.same (h : Traced o past s) (hw : s'.world = s.world)
    (ha : s'.attempts = s.attempts) : Traced o (past ++ [⟨s, e, s'⟩]) s' where
  calls hi hk := invoked_concat (h.calls (hw ▸ hi) hk)
  entries hf hk := by
    rw [hw] at hf ⊢
    exact h.entries hf hk
  attempts hi := invoked_concat (h.attempts (ha ▸ hi))

/-- A step that makes a call of the key. -/
theorem Traced.grow (h : Traced o past s) {new : Nat → Prop}
    (hg : Grows o.key new s.world s'.world) (hnew : ∀ i, new i → Invokes o ⟨s, e, s'⟩ i)
    (ha : ∀ id ∈ s'.attempts, id ∈ s.attempts ∨ ∃ c, s'.world.calls[id]? = some c ∧ c.key = o.key) :
    Traced o (past ++ [⟨s, e, s'⟩]) s' := by
  have hcalls : ∀ {i : Nat} {c : Call T}, s'.world.calls[i]? = some c → c.key = o.key →
      ∃ t ∈ past ++ [⟨s, e, s'⟩], Invokes o t i := by
    intro i c hi hk
    rcases hg.calls hi hk with ⟨d, hd, hdk⟩ | hi
    · exact invoked_concat (h.calls hd hdk)
    · exact ⟨⟨s, e, s'⟩, List.mem_append_right _ (List.mem_singleton_self _), hnew i hi⟩
  refine ⟨hcalls, ?_, ?_⟩
  · intro f hf hk
    rcases hg.entries hf hk with hf | hcall
    · obtain ⟨c, hc, hck⟩ := h.entries hf hk
      obtain ⟨c', hc', hkey, -⟩ := hg.kept _ _ hc
      exact ⟨c', hc', by rw [hkey, hck]⟩
    · exact hcall
  · intro id hid
    rcases ha id hid with hid | ⟨c, hc, hck⟩
    · exact invoked_concat (h.attempts hid)
    · exact hcalls hc hck

/-- The call that an attempt waits for has the key. -/
theorem awaited_key (hent : ∀ f ∈ w.entries, f.1 = k → ∃ c, w.calls[f.2.call]? = some c ∧ c.key = k)
    (hk : normalizeIdempotencyKey key = k) (hne : k ≠ "") (f : FnCall) :
    ∀ id ∈ (executeAttempt w key f).1.ids, ∃ c, (executeAttempt w key f).2.calls[id]? = some c ∧ c.key = k := by
  intro id hid
  rcases executeAttempt_cases hk hne w f with ⟨g, hl, he⟩ | ⟨-, -, hcall, -, hcalls⟩
  · rw [he] at hid ⊢
    rw [List.mem_singleton.mp hid]
    exact hent (k, g) (List.mem_of_mem_filter (lookup_mem hl)) rfl
  · rw [hcall] at hid
    rw [List.mem_singleton.mp hid, hcalls]
    exact ⟨_, (getElem?_concat_iff _ _ _ _).mpr (.inr ⟨rfl, rfl⟩), hk⟩

theorem Moves.traced (hreg : o.registry = true) (hkey : o.hasIdempotencyKey = true) (h : Moves o s e s')
    (ht : Traced o past s) : Traced o (past ++ [⟨s, e, s'⟩]) s' := by
  cases h with
  | @begins _ startedAt r f attempt lastError _ =>
    rcases beginAttempt_cases (s := { s with startedAt := startedAt }) (o := o) r f attempt lastError with
      ⟨outcome, -, heq⟩ | ⟨-, -, heq⟩
    · rw [heq]
      exact ht.same rfl rfl
    · rw [heq]
      simp only [invokeAttempt_eq hreg hkey]
      have hk : normalizeIdempotencyKey (o.idempotencyKey.getD "") = o.key := rfl
      have hgrows := grows_executeAttempt hk (key_ne hkey) s.world f
      have hawaited := awaited_key (fun f hf hk => ht.entries hf hk) hk (key_ne hkey) f
      generalize executeAttempt s.world (o.idempotencyKey.getD "") f = x at *
      refine ht.grow hgrows ?_ ?_
      · intro i ⟨hi, hcall⟩
        refine ⟨hi, .inl ?_⟩
        show s.attempts ++ x.1.ids = _
        rw [hcall, hi]
        rfl
      · intro id hid
        rcases List.mem_append.mp hid with hid | hid
        · exact .inl hid
        · exact .inr (hawaited id hid)
  | leaves _ _ _ _ => exact ht.same rfl rfl
  | resolves _ _ => exact ht.same rfl rfl
  | resolvesUndefined _ _ _ => exact ht.same rfl rfl
  | ends _ _ _ => exact ht.same rfl rfl
  | aborts => exact ht.same rfl rfl
  | @shared key f hk =>
    exact ht.grow (grows_executeAttempt hk (key_ne hkey) s.world f)
      (fun i hi => ⟨hi.1, .inr ⟨⟨hreg, hkey⟩, key, f, rfl⟩⟩) fun id hid => .inl hid
  | other hw he =>
    exact ht.grow (grows_of_step hw he) (fun i hi => hi.elim) fun id hid => .inl hid

/-- Without a registry or a key, every attempt calls the function. -/
theorem Moves.invoked (hdirect : ¬(o.registry && o.hasIdempotencyKey) = true) (h : Moves o s e s')
    (ha : ∀ id ∈ s.attempts, ∃ t ∈ past, Invokes o t id) :
    ∀ id ∈ s'.attempts, ∃ t ∈ past ++ [⟨s, e, s'⟩], Invokes o t id := by
  intro id hid
  cases h with
  | @begins _ startedAt r f attempt lastError _ =>
    rcases beginAttempt_cases (s := { s with startedAt := startedAt }) (o := o) r f attempt lastError with
      ⟨outcome, -, heq⟩ | ⟨-, -, heq⟩
    · rw [heq] at hid
      exact invoked_concat (ha id hid)
    · rw [heq] at hid ⊢
      have hinvoke : (invokeAttempt o s.world f).1 = .call s.world.calls.length := by
        rw [invokeAttempt, if_neg hdirect]
        rfl
      rcases List.mem_append.mp hid with hid | hid
      · exact invoked_concat (ha id hid)
      · rw [hinvoke] at hid
        refine ⟨_, List.mem_append_right _ (List.mem_singleton_self _), List.mem_singleton.mp hid, .inl ?_⟩
        show s.attempts ++ (invokeAttempt o s.world f).1.ids = _
        rw [hinvoke]
        rfl
  | leaves _ _ _ _ => exact invoked_concat (ha id hid)
  | resolves _ _ => exact invoked_concat (ha id hid)
  | resolvesUndefined _ _ _ => exact invoked_concat (ha id hid)
  | ends _ _ _ => exact invoked_concat (ha id hid)
  | aborts => exact invoked_concat (ha id hid)
  | shared _ _ => exact invoked_concat (ha id hid)
  | other _ _ => exact invoked_concat (ha id hid)

theorem traced_of_run (run : RetryRun o T) : ∀ id ∈ run.last.attempts, ∃ t ∈ run.steps, Invokes o t id := by
  obtain ⟨⟨hent, hcalls⟩, -, hatt, -⟩ := run.new
  by_cases hreg : (o.registry && o.hasIdempotencyKey) = true
  · obtain ⟨hreg, hkey⟩ := Bool.and_eq_true_iff.mp hreg
    have hrun := run.taken.invariant (I := Traced o)
      (fun past s e s' ht hstep => hstep.moves.traced hreg hkey ht) []
      ⟨by simp [hcalls], by simp [hent], by simp [hatt]⟩
    exact fun id hid => hrun.attempts hid
  · exact run.taken.invariant (I := fun past s => ∀ id ∈ s.attempts, ∃ t ∈ past, Invokes o t id)
      (fun past s e s' ha hstep => hstep.moves.invoked hreg ha) [] (by simp [hatt])

/-! ## What a sequence resolves with -/

/-- The value is that of a call that an attempt waited for. -/
def HasValue (s : RetrySequence T) (v : Option T) : Prop :=
  ∃ id c value, v = some value ∧ id ∈ s.attempts ∧ s.world.calls[id]? = some c ∧ c.state = .finished (.ok value)

theorem HasValue.kept {v : Option T} (h : HasValue s v) (ha : s'.attempts = s.attempts)
    (hw : Kept s.world s'.world) : HasValue s' v := by
  obtain ⟨id, c, value, rfl, hid, hc, hstate⟩ := h
  obtain ⟨c', hc', -, hfinished⟩ := hw id c hc
  exact ⟨id, c', value, rfl, by rwa [ha], hc', hfinished _ hstate⟩

/-- A sequence has resolved with such a value, unless a rejection with
`undefined` was taken for one. -/
structure Valued (past : List (RetryStep T)) (s : RetrySequence T) : Prop where
  awaits {attempt : Nat} {awaited : Awaited} {timer : Bool} : s.phase = .attempting attempt awaited timer →
    ∀ id ∈ awaited.ids, id ∈ s.attempts
  value {v : Option T} : s.phase = .done (.resolved v) →
    (∃ t ∈ past, RejectsUndefined t.before t.event) ∨ HasValue s v

/-- Around a sequence, worlds keep the values. -/
theorem Valued.around (h : Valued past s) (hp : s'.phase = s.phase)
    (ha : s'.attempts = s.attempts) (hw : Kept s.world s'.world) : Valued (past ++ [⟨s, e, s'⟩]) s' where
  awaits hs id hid := ha ▸ h.awaits (hp ▸ hs) id hid
  value hs := by
    rcases h.value (hp ▸ hs) with ⟨t, ht, hu⟩ | hv
    · exact .inl ⟨t, List.mem_append_left _ ht, hu⟩
    · exact .inr (hv.kept ha hw)

/-- A sequence that sleeps or ends without a value. -/
theorem valued_of_phase (hp : ∀ attempt awaited timer, s.phase ≠ .attempting attempt awaited timer)
    (hv : ∀ v, s.phase ≠ .done (.resolved v)) : Valued past s where
  awaits hs := absurd hs (hp _ _ _)
  value hs := absurd hs (hv _)

theorem Moves.valued (h : Moves o s e s') (hv : Valued past s) :
    Valued (past ++ [⟨s, e, s'⟩]) s' := by
  have hrejects : ∀ {outcome : Outcome T} {v : Option T}, outcome.Rejects →
      (Phase.done outcome : Phase T) ≠ .done (.resolved v) := by
    intro outcome v hr heq
    rw [Phase.done.inj heq] at hr
    exact hr
  cases h with
  | @begins _ startedAt r f attempt lastError _ =>
    rcases beginAttempt_cases (s := { s with startedAt := startedAt }) (o := o) r f attempt lastError with
      ⟨outcome, hr, heq⟩ | ⟨-, -, heq⟩
    · rw [heq]
      exact valued_of_phase (by rintro _ _ _ ⟨⟩) fun v => hrejects hr
    · rw [heq]
      refine ⟨fun hs id hid => ?_, by rintro _ ⟨⟩⟩
      obtain ⟨-, rfl, -⟩ := Phase.attempting.inj hs
      exact List.mem_append_right _ hid
  | leaves _ _ hleaves _ =>
    cases hleaves with
    | ends hr => exact valued_of_phase (by rintro _ _ _ ⟨⟩) fun v => hrejects hr
    | sleeps _ => exact valued_of_phase (by rintro _ _ _ ⟨⟩) (by rintro _ ⟨⟩)
  | @resolves r attempt awaited timer value hp hr =>
    refine ⟨by rintro _ _ _ ⟨⟩, fun {v} hs => .inr ?_⟩
    obtain rfl : some value = v := Outcome.resolved.inj (Phase.done.inj hs)
    cases awaited with
    | rejected err => cases hr
    | call id =>
      have hid : id ∈ s.attempts := hv.awaits hp id (List.mem_singleton_self id)
      rw [Awaited.result] at hr
      cases hc : s.world.calls[id]? with
      | none =>
        rw [hc] at hr
        cases hr
      | some c =>
        rw [hc] at hr
        simp only [Option.map_some] at hr
        split at hr
        · rename_i result hstate
          obtain rfl := Option.some.inj hr
          exact ⟨id, c, value, rfl, hid, hc, Option.some.inj hstate⟩
        · cases hr
  | resolvesUndefined _ _ hu =>
    exact ⟨by rintro _ _ _ ⟨⟩, fun _ => .inl ⟨_, List.mem_append_right _ (List.mem_singleton_self _), hu⟩⟩
  | ends _ hr _ => exact valued_of_phase (by rintro _ _ _ ⟨⟩) fun v => hrejects hr
  | aborts => exact hv.around rfl rfl (.refl _)
  | shared f _ => exact hv.around rfl rfl (kept_executeAttempt _ _ f)
  | other hw _ => exact hv.around rfl rfl (kept_of_step hw)

theorem valued_of_run (run : RetryRun o T) : Valued run.steps run.last := by
  obtain ⟨-, hp, -, -⟩ := run.new
  refine run.taken.invariant (I := Valued) (fun past s e s' hv hstep => hstep.moves.valued hv) [] ?_
  refine valued_of_phase (fun _ _ _ hs => ?_) fun v hs => ?_
  · exact absurd (hp.symm.trans hs) nofun
  · exact absurd (hp.symm.trans hs) nofun

/-- A rejection with `undefined` under a timer ends the sequence without a value. -/
theorem resolved_of_rejectsUndefined (h : s.Step o e s') (hu : RejectsUndefined s e) :
    s'.phase = .done (.resolved none) := by
  cases h with
  | settled r hp hr =>
    obtain ⟨attempt, awaited, err, hp', hr', hundefined⟩ := hu
    obtain ⟨rfl, rfl, rfl⟩ := Phase.attempting.inj (hp.symm.trans hp')
    obtain rfl := Option.some.inj (hr.symm.trans hr')
    rw [attemptSettled_undefined hundefined]
  | timerRejected r err hp => rw [attemptSettled_undefined hu]
  | start _ _ _ _ => exact hu.elim
  | timedOut _ _ => exact hu.elim
  | slept _ _ _ => exact hu.elim
  | sleepRejected _ _ => exact hu.elim
  | abort => exact hu.elim
  | shared _ _ => exact hu.elim
  | other _ _ => exact hu.elim

/-! ## The law -/

/-- What a deadline that has not passed means. -/
theorem lt_of_not_deadlineExceeded {now timeoutMs : Int} (h : s.deadlineExceeded o now 0 = false)
    (ht : o.retryBudget.timeoutMs = some timeoutMs) : now - s.startedAt < timeoutMs := by
  rw [RetrySequence.deadlineExceeded, ht] at h
  have hlt := not_le.mp (of_decide_eq_false h)
  rw [add_zero] at hlt
  exact_mod_cast hlt

theorem Enters.clock {startedAt : Int} {r : Reads} {f : FnCall} {attempt : Nat} {lastError : SdkError}
    (h : Enters s e startedAt r f attempt lastError) : e.clock = some r.now := by
  cases h with
  | first _ _ => rfl
  | again _ => rfl

/-- The law holds of a run if and only if nothing that an attempt with a timer
waits for, and no such timer, rejects with `undefined`. -/
theorem retryLaw_iff (run : RetryRun o T) :
    RetryLaw o run.steps run.last ↔ ∀ t ∈ run.steps, ¬RejectsUndefined t.before t.event := by
  have hidle : run.first.phase = .idle := run.new.2.1
  have hle := length_starts_le run.taken hidle
  constructor
  · intro hlaw t ht hu
    obtain ⟨past, next, hsplit⟩ := List.append_of_mem ht
    have hstep := run.taken.of_mem t ht
    have hrest : Steps (fun s e s' => s.Step o e s') t.after next run.last := by
      have htaken := run.taken
      rw [hsplit] at htaken
      exact htaken.after
    have hlast := (starts_of_done hrest (resolved_of_rejectsUndefined hstep hu)).1
    obtain ⟨id, c, value, hnone, -⟩ := hlaw.resolves none hlast
    cases hnone
  · intro hdefined
    refine ⟨?_, ?_, ?_, ?_, ?_, ?_⟩
    · unfold WithRetryBudgetOptions.maxAttempts at hle
      split at hle <;> omega
    · intro hrequired hkey
      have hrefused : o.retryRefused = true := by
        rw [WithRetryBudgetOptions.retryRefused, hrequired, hkey]
        rfl
      rw [WithRetryBudgetOptions.maxAttempts, if_pos hrefused] at hle
      omega
    · intro past t next err hsplit hfails hn
      have htaken := run.taken
      rw [hsplit] at htaken
      obtain ⟨outcome, hdone⟩ := done_of_nonRetryable (htaken.of_mem t (by simp)) hfails hn
      exact (starts_of_done htaken.after hdone).2
    · intro past t next hsplit habort
      have htaken := run.taken
      rw [hsplit] at htaken
      have hstep := htaken.of_mem t (by simp)
      have hafter : t.after.aborted = true ∧ ¬t.before.StartsFn t.after := by
        rcases habort with ha | he
        · exact hstep.moves.of_aborted ha
        · rw [he] at hstep
          exact aborted_of_abort hstep
      rw [starts, List.filter_cons_of_neg (by simpa using hafter.2), ← starts]
      exact starts_of_aborted htaken.after hafter.1
    · intro t ht timeoutMs htimeout
      obtain ⟨hmem, hstarts⟩ := List.mem_filter.mp ht
      obtain ⟨startedAt, r, f, attempt, lastError, henters, -, hdeadline, hstarted⟩ :=
        (run.taken.of_mem t hmem).moves.of_startsFn (of_decide_eq_true hstarts)
      refine ⟨r.now, henters.clock, ?_⟩
      rw [hstarted]
      exact lt_of_not_deadlineExceeded hdeadline htimeout
    · intro v hv
      rcases (valued_of_run run).value hv with ⟨t, ht, hu⟩ | ⟨id, c, value, hvalue, hid, hc, hstate⟩
      · exact absurd hu (hdefined t ht)
      · exact ⟨id, c, value, hvalue, hid, hc, hstate, traced_of_run run id hid⟩

/-- A read with a timer for its attempts. -/
def timedRead : WithRetryBudgetOptions where
  attemptTimeoutMs := some 50

def newRead : RetrySequence Unit where
  world := newRegistry
  aborted := false
  startedAt := 0
  phase := .idle
  attempts := []
  abandoned := []

def readCall (state : CallState Unit) : Call Unit where
  key := ""
  ttlMs := 0
  cacheErrors := false
  state := state

/-- The read in its first attempt. -/
def attemptingRead (state : CallState Unit) : RetrySequence Unit where
  world := { newRegistry with calls := [readCall state] }
  aborted := false
  startedAt := 0
  phase := .attempting 1 (.call 0) true
  attempts := [0]
  abandoned := []

/-- The first attempt of a read rejects with `undefined`, and the read resolves
with it. -/
theorem undefined_taken_for_value : ¬∀ run : RetryRun timedRead Unit, RetryLaw timedRead run.steps run.last := by
  intro hlaw
  let rejection : Except SdkError Unit := .error undefinedValue
  have h₁ : newRead.Step timedRead (.start 0 { now := 0 } .promise) (attemptingRead .pending) :=
    .start 0 { now := 0 } .promise rfl
  have h₂ : (attemptingRead .pending).Step timedRead (.other (.settle 0 rejection))
      (attemptingRead (.settled rejection)) :=
    .other (World.Step.settle (c := readCall .pending) rejection rfl rfl) id
  have h₃ : (attemptingRead (.settled rejection)).Step timedRead (.other (.cleanup 0))
      (attemptingRead (.finished rejection)) :=
    .other (World.Step.cleanup (c := readCall (.settled rejection)) rfl rfl) id
  have h₄ : (attemptingRead (.finished rejection)).Step timedRead (.settled { now := 10 })
      ((attemptingRead (.finished rejection)).attemptSettled timedRead { now := 10 } 1 true rejection) :=
    .settled { now := 10 } rfl rfl
  let run : RetryRun timedRead Unit :=
    { first := newRead, steps := _, last := _, new := ⟨⟨rfl, rfl⟩, rfl, rfl, rfl⟩
      taken := .cons h₁ (.cons h₂ (.cons h₃ (.cons h₄ (.nil _)))) }
  obtain ⟨id, c, value, hnone, -⟩ := (hlaw run).resolves none rfl
  cases hnone

end ZkPayroll.Core.RetryBudget
