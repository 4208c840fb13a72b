import ZkPayroll.Core.RetryBudgetSafety

/-!
# What a step of a retry sequence does

A step of a call of `withRetryBudget` begins an attempt, leaves one, ends the
sequence, or happens around it (`Moves`). Its world keeps the calls that it has
and their results (`Kept`); an attempt with a key adds at most one call of the
key (`grows_executeAttempt`), and other steps add none (`grows_of_step`).
-/

namespace ZkPayroll.Core.RetryBudget

open Framework Idempotency

variable {T : Type} {o : WithRetryBudgetOptions} {s s' : RetrySequence T} {e : RetryEvent T}

/-! ## Moves -/

/-- What an attempt with a timer waits for, or the timer, rejects with
`undefined`. -/
def RejectsUndefined (s : RetrySequence T) : RetryEvent T → Prop
  | .settled _ => ∃ attempt awaited err, s.phase = .attempting attempt awaited true ∧
      awaited.result s.world = some (.error err) ∧ err.isUndefined = true
  | .timerRejected _ err => err.isUndefined = true
  | _ => False

/-- The sequence ends without a value. -/
def Outcome.Rejects : Outcome T → Prop
  | .resolved _ => False
  | _ => True

/-- Where the loop goes from an attempt that failed: it ends, or sleeps when
there is an attempt left. -/
inductive Leaves (o : WithRetryBudgetOptions) (attempt : Nat) : Phase T → Prop
  | ends {outcome : Outcome T} (h : outcome.Rejects) : Leaves o attempt (.done outcome)
  | sleeps {lastError : SdkError} (h : (attempt : Int) < o.maxAttempts) :
      Leaves o attempt (.sleeping attempt lastError)

theorem failAttempt_leaves (r : Reads) (attempt : Nat) (err : SdkError) (timedOut : Bool) :
    ∃ p, Leaves o attempt p ∧ s.failAttempt o r attempt err timedOut = { s with phase := p } := by
  unfold RetrySequence.failAttempt
  split
  · exact ⟨.done (exhausted o o.maxAttempts false err), .ends trivial, rfl⟩
  rename_i hleft
  split
  · exact ⟨.done (.threw err), .ends trivial, rfl⟩
  split
  · rename_i thrown _
    exact ⟨.done (.threw thrown), .ends trivial, rfl⟩
  simp only []
  split
  · exact ⟨.done (exhausted o attempt true err), .ends trivial, rfl⟩
  · exact ⟨.sleeping attempt err, .sleeps (by omega), rfl⟩

theorem attemptSettled_leaves {timer : Bool} {err : SdkError} (h : (timer && err.isUndefined) = false) (r : Reads)
    (attempt : Nat) :
    ∃ p, Leaves o attempt p ∧ s.attemptSettled o r attempt timer (.error err) = { s with phase := p } := by
  unfold RetrySequence.attemptSettled RetrySequence.catchAttempt
  simp only [h, Bool.false_eq_true, if_false]
  split
  · exact ⟨.done (cancelled o s!"after attempt {attempt}"), .ends trivial, rfl⟩
  · exact failAttempt_leaves r attempt err false

theorem attemptSettled_undefined {err : SdkError} (h : err.isUndefined = true) (r : Reads) (attempt : Nat) :
    s.attemptSettled o r attempt true (.error err) = { s with phase := .done (.resolved none) } := by
  unfold RetrySequence.attemptSettled
  simp only [h, Bool.and_true, if_true]

/-- Where an attempt begins: at the start of the sequence, or after a sleep. -/
inductive Enters (s : RetrySequence T) :
    RetryEvent T → (startedAt : Int) → Reads → FnCall → (attempt : Nat) → (lastError : SdkError) → Prop
  | first {startedAt : Int} {r : Reads} {f : FnCall} (hp : s.phase = .idle) (ha : s.aborted = false) :
      Enters s (.start startedAt r f) startedAt r f 1 undefinedValue
  | again {r : Reads} {f : FnCall} {attempt : Nat} {lastError : SdkError}
      (hp : s.phase = .sleeping attempt lastError) :
      Enters s (.slept r f) s.startedAt r f (attempt + 1) lastError

/-- What a step makes of a sequence. -/
inductive Moves (o : WithRetryBudgetOptions) (s : RetrySequence T) : RetryEvent T → RetrySequence T → Prop
  | begins {e : RetryEvent T} {startedAt : Int} {r : Reads} {f : FnCall} {attempt : Nat} {lastError : SdkError}
      (h : Enters s e startedAt r f attempt lastError) :
      Moves o s e ({ s with startedAt := startedAt }.beginAttempt o r f attempt lastError)
  | leaves {e : RetryEvent T} {attempt : Nat} {awaited : Awaited} {timer : Bool} {p : Phase T}
      (abandoned : List Nat) (h : s.phase = .attempting attempt awaited timer) (hp : Leaves o attempt p)
      (hd : ¬RejectsUndefined s e) : Moves o s e { s with phase := p, abandoned := abandoned }
  | resolves {r : Reads} {attempt : Nat} {awaited : Awaited} {timer : Bool} {value : T}
      (h : s.phase = .attempting attempt awaited timer) (hr : awaited.result s.world = some (.ok value)) :
      Moves o s (.settled r) { s with phase := .done (.resolved (some value)) }
  | resolvesUndefined {e : RetryEvent T} {attempt : Nat} {awaited : Awaited} (abandoned : List Nat)
      (h : s.phase = .attempting attempt awaited true) (hu : RejectsUndefined s e) :
      Moves o s e { s with phase := .done (.resolved none), abandoned := abandoned }
  | ends {e : RetryEvent T} {outcome : Outcome T}
      (hp : s.phase = .idle ∨ ∃ attempt err, s.phase = .sleeping attempt err) (h : outcome.Rejects)
      (hd : ¬RejectsUndefined s e) : Moves o s e { s with phase := .done outcome }
  | aborts : Moves o s .abort { s with aborted := true }
  | shared {key : String} (f : FnCall) (hk : normalizeIdempotencyKey key = o.key) :
      Moves o s (.shared key f) { s with world := (executeAttempt s.world key f).2 }
  | other {e : Event T} {w : World T} (hw : s.world.Step e w) (he : ¬executesKey o.key e) :
      Moves o s (.other e) { s with world := w }

theorem RetrySequence.Step.moves (h : s.Step o e s') : Moves o s e s' := by
  cases h with
  | start startedAt r f hp =>
    split
    · exact .ends (.inl hp) trivial id
    · rename_i ha
      exact .begins (.first hp (Bool.eq_false_iff.mpr ha))
  | @settled r attempt awaited timer result hp hr =>
    cases result with
    | ok value => exact .resolves hp hr
    | error err =>
      by_cases hu : timer = true ∧ err.isUndefined = true
      · obtain ⟨rfl, hu⟩ := hu
        rw [attemptSettled_undefined hu]
        exact .resolvesUndefined s.abandoned hp ⟨_, _, _, hp, hr, hu⟩
      · have hdefined : (timer && err.isUndefined) = false := by simpa using hu
        obtain ⟨p, hleaves, heq⟩ := attemptSettled_leaves (o := o) (s := s) hdefined r attempt
        rw [heq]
        refine .leaves s.abandoned hp hleaves ?_
        rintro ⟨attempt', awaited', err', hp', hr', hu'⟩
        rw [hp] at hp'
        obtain ⟨-, rfl, rfl⟩ := Phase.attempting.inj hp'
        rw [hr] at hr'
        obtain rfl : err = err' := Except.error.inj (Option.some.inj hr')
        exact hu ⟨rfl, hu'⟩
  | @timedOut r attempt awaited hp =>
    obtain ⟨p, hleaves, heq⟩ := failAttempt_leaves (o := o)
      (s := { s with abandoned := s.abandoned ++ awaited.ids }) r attempt (timeoutError o attempt) true
    rw [heq]
    exact .leaves (s.abandoned ++ awaited.ids) hp hleaves id
  | @timerRejected r err attempt awaited hp =>
    by_cases hu : err.isUndefined = true
    · rw [attemptSettled_undefined hu]
      exact .resolvesUndefined (s.abandoned ++ awaited.ids) hp hu
    · have hdefined : (true && err.isUndefined) = false := by simpa using hu
      obtain ⟨p, hleaves, heq⟩ := attemptSettled_leaves (o := o)
        (s := { s with abandoned := s.abandoned ++ awaited.ids }) hdefined r attempt
      rw [heq]
      exact .leaves (s.abandoned ++ awaited.ids) hp hleaves hu
  | slept r f hp => exact .begins (.again hp)
  | sleepRejected err hp =>
    refine .ends (.inr ⟨_, _, hp⟩) ?_ id
    split
    · exact trivial
    · exact trivial
  | abort => exact .aborts
  | shared f hk => exact .shared f hk
  | other hw he => exact .other hw he

/-- An attempt is made when neither the signal nor the deadline forbids it. -/
theorem beginAttempt_cases (r : Reads) (f : FnCall) (attempt : Nat) (lastError : SdkError) :
    (∃ outcome, outcome.Rejects ∧ s.beginAttempt o r f attempt lastError = { s with phase := .done outcome }) ∨
    s.aborted = false ∧ s.deadlineExceeded o r.now 0 = false ∧
      s.beginAttempt o r f attempt lastError =
        { s with
          world := (invokeAttempt o s.world f).2
          phase := .attempting attempt (invokeAttempt o s.world f).1 (RetrySequence.hasTimer o f)
          attempts := s.attempts ++ (invokeAttempt o s.world f).1.ids } := by
  unfold RetrySequence.beginAttempt RetrySequence.stopped
  by_cases ha : s.aborted = true
  · rw [if_pos ha]
    exact .inl ⟨cancelled o s!"before attempt {attempt}", trivial, rfl⟩
  rw [if_neg ha]
  by_cases hd : s.deadlineExceeded o r.now 0 = true
  · rw [if_pos hd]
    exact .inl ⟨exhausted o (attempt - 1 : Nat) true lastError, trivial, rfl⟩
  · rw [if_neg hd]
    exact .inr ⟨Bool.eq_false_iff.mpr ha, Bool.eq_false_iff.mpr hd, rfl⟩

theorem not_startsFn (h : s'.attempts = s.attempts) : ¬s.StartsFn s' := by
  intro hs
  have hlength := congrArg List.length (h.symm.trans hs)
  simp at hlength

/-- A step that starts the function begins an attempt, and nothing forbids it. -/
theorem Moves.of_startsFn (h : Moves o s e s') (hs : s.StartsFn s') :
    ∃ startedAt r f attempt lastError, Enters s e startedAt r f attempt lastError ∧ s.aborted = false ∧
      { s with startedAt := startedAt }.deadlineExceeded o r.now 0 = false ∧ s'.startedAt = startedAt := by
  cases h with
  | @begins _ startedAt r f attempt lastError henters =>
    rcases beginAttempt_cases (s := { s with startedAt := startedAt }) (o := o) r f attempt lastError with
      ⟨outcome, -, heq⟩ | ⟨ha, hd, heq⟩
    · rw [heq] at hs
      exact absurd hs (not_startsFn rfl)
    · exact ⟨startedAt, r, f, attempt, lastError, henters, ha, hd, by rw [heq]⟩
  | leaves _ _ _ _ => exact absurd hs (not_startsFn rfl)
  | resolves _ _ => exact absurd hs (not_startsFn rfl)
  | resolvesUndefined _ _ _ => exact absurd hs (not_startsFn rfl)
  | ends _ _ _ => exact absurd hs (not_startsFn rfl)
  | aborts => exact absurd hs (not_startsFn rfl)
  | shared _ _ => exact absurd hs (not_startsFn rfl)
  | other _ _ => exact absurd hs (not_startsFn rfl)

/-- Nothing happens to a sequence that has ended. -/
theorem Moves.of_done (h : Moves o s e s') {outcome : Outcome T} (hp : s.phase = .done outcome) :
    s'.phase = .done outcome ∧ ¬s.StartsFn s' := by
  cases h with
  | begins henters =>
    cases henters with
    | first hp' _ => exact absurd (hp.symm.trans hp') nofun
    | again hp' => exact absurd (hp.symm.trans hp') nofun
  | leaves _ hp' _ _ => exact absurd (hp.symm.trans hp') nofun
  | resolves hp' _ => exact absurd (hp.symm.trans hp') nofun
  | resolvesUndefined _ hp' _ => exact absurd (hp.symm.trans hp') nofun
  | ends hp' _ _ =>
    rcases hp' with hp' | ⟨attempt, err, hp'⟩
    · exact absurd (hp.symm.trans hp') nofun
    · exact absurd (hp.symm.trans hp') nofun
  | aborts => exact ⟨hp, not_startsFn rfl⟩
  | shared _ _ => exact ⟨hp, not_startsFn rfl⟩
  | other _ _ => exact ⟨hp, not_startsFn rfl⟩

/-- A signal that is aborted stays so. -/
theorem Moves.of_aborted (h : Moves o s e s') (ha : s.aborted = true) : s'.aborted = true ∧ ¬s.StartsFn s' := by
  refine ⟨?_, fun hs => ?_⟩
  · cases h with
    | @begins _ startedAt r f attempt lastError _ =>
      rcases beginAttempt_cases (s := { s with startedAt := startedAt }) (o := o) r f attempt lastError with
        ⟨outcome, -, heq⟩ | ⟨-, -, heq⟩
      · rw [heq]
        exact ha
      · rw [heq]
        exact ha
    | leaves _ _ _ _ => exact ha
    | resolves _ _ => exact ha
    | resolvesUndefined _ _ _ => exact ha
    | ends _ _ _ => exact ha
    | aborts => rfl
    | shared _ _ => exact ha
    | other _ _ => exact ha
  · obtain ⟨_, _, _, _, _, -, hnot, -⟩ := h.of_startsFn hs
    rw [ha] at hnot
    cases hnot

theorem aborted_of_abort (h : s.Step o .abort s') : s'.aborted = true ∧ ¬s.StartsFn s' := by
  cases h with
  | abort => exact ⟨rfl, not_startsFn rfl⟩

/-! ## The calls of a world -/

/-- Calls stay, with their keys, and keep the results they have. -/
def Kept (w w' : World T) : Prop :=
  ∀ (i : Nat) (c : Call T), w.calls[i]? = some c → ∃ c', w'.calls[i]? = some c' ∧ c'.key = c.key ∧
    ∀ result, c.state = .finished result → c'.state = .finished result

/-- Besides, the calls of a key are those of before, and some new ones, and its
entries point to such calls. -/
structure Grows (k : String) (new : Nat → Prop) (w w' : World T) : Prop where
  kept : Kept w w'
  calls {i : Nat} {c : Call T} : w'.calls[i]? = some c → c.key = k →
    (∃ d, w.calls[i]? = some d ∧ d.key = k) ∨ new i
  entries {f : String × IdempotencyEntry} : f ∈ w'.entries → f.1 = k →
    f ∈ w.entries ∨ ∃ c, w'.calls[f.2.call]? = some c ∧ c.key = k

variable {k key : String} {w w' : World T}

theorem Kept.refl (w : World T) : Kept w w := fun _ c hi => ⟨c, hi, rfl, fun _ h => h⟩

theorem kept_concat {call : Call T} (h : w'.calls = w.calls ++ [call]) : Kept w w' := by
  intro i c hi
  refine ⟨c, ?_, rfl, fun _ hr => hr⟩
  rw [h]
  exact (getElem?_concat_iff _ _ _ _).mpr (.inl hi)

/-- A call that has no result yet changes. -/
theorem kept_set {id : Nat} {c d : Call T} (hid : w.calls[id]? = some c)
    (hnone : ∀ result, c.state ≠ .finished result) (h : w'.calls = w.calls.set id d) (hk : d.key = c.key) :
    Kept w w' := by
  intro i c' hi
  rw [h]
  by_cases hii : i = id
  · subst hii
    obtain rfl : c = c' := Option.some.inj (hid.symm.trans hi)
    exact ⟨d, (getElem?_set_iff hid _ _ _).mpr (.inl ⟨rfl, rfl⟩), hk, fun r hr => absurd hr (hnone r)⟩
  · exact ⟨c', (getElem?_set_iff hid _ _ _).mpr (.inr ⟨hii, hi⟩), rfl, fun _ hr => hr⟩

/-- The call of a key that changes is one of before. -/
theorem calls_set {id i : Nat} {c d c' : Call T} (hid : w.calls[id]? = some c) (hi : w'.calls[i]? = some c')
    (h : w'.calls = w.calls.set id d) (hk : d.key = c.key) (hc : c'.key = k) :
    ∃ d, w.calls[i]? = some d ∧ d.key = k := by
  rw [h] at hi
  rcases (getElem?_set_iff hid _ i c').mp hi with ⟨rfl, rfl⟩ | ⟨-, hi⟩
  · exact ⟨c, hid, by rw [← hk, hc]⟩
  · exact ⟨c', hi, hc⟩

theorem kept_of_step {e : Event T} (hs : w.Step e w') : Kept w w' := by
  cases hs with
  | execute key options =>
    unfold World.execute
    simp only
    split
    · exact .refl w
    · split
      · exact .refl w
      · exact kept_concat rfl
  | returned hid hc => exact kept_set hid (fun r h => nomatch hc.symm.trans h) rfl rfl
  | threw _ hid hc => exact kept_set hid (fun r h => nomatch hc.symm.trans h) rfl rfl
  | settle _ hid hc => exact kept_set hid (fun r h => nomatch hc.symm.trans h) rfl rfl
  | cleanup hid hc => exact kept_set hid (fun r h => nomatch hc.symm.trans h) rfl rfl
  | tick ms => exact .refl w

theorem kept_executeAttempt (w : World T) (key : String) (f : FnCall) : Kept w (executeAttempt w key f).2 := by
  by_cases hk : normalizeIdempotencyKey key = ""
  · have hx : w.execute key { ttlMs := some 0 } =
        (.threw (genericError "Idempotency key must not be empty"), w) := by
      simp only [World.execute, hk, if_true]
    rw [executeAttempt, hx]
    exact .refl w
  · rcases executeAttempt_cases rfl hk w f with ⟨_, -, he⟩ | ⟨-, -, -, -, hcalls⟩
    · rw [he]
      exact .refl w
    · exact kept_concat hcalls

/-- A step of the world that executes nothing for the key. -/
theorem grows_of_step {e : Event T} (hs : w.Step e w') (he : ¬executesKey k e) :
    Grows k (fun _ => False) w w' := by
  refine ⟨kept_of_step hs, ?_, ?_⟩
  · intro i c hi hk
    cases hs with
    | execute key options =>
      revert hi
      unfold World.execute
      simp only
      split
      · exact fun hi => .inl ⟨c, hi, hk⟩
      · split
        · exact fun hi => .inl ⟨c, hi, hk⟩
        · intro hi
          rcases (getElem?_concat_iff _ _ i c).mp hi with hi | ⟨-, rfl⟩
          · exact .inl ⟨c, hi, hk⟩
          · exact absurd hk he
    | returned hid _ => exact .inl (calls_set hid hi rfl rfl hk)
    | threw _ hid _ => exact .inl (calls_set hid hi rfl rfl hk)
    | settle _ hid _ => exact .inl (calls_set hid hi rfl rfl hk)
    | cleanup hid _ => exact .inl (calls_set hid hi rfl rfl hk)
    | tick ms => exact .inl ⟨c, hi, hk⟩
  · intro f hf hk
    cases hs with
    | execute key options =>
      revert hf
      unfold World.execute
      simp only
      split
      · exact .inl
      · split
        · exact fun hf => .inl (List.mem_of_mem_filter hf)
        · exact fun hf => .inl (List.mem_of_mem_filter hf)
    | @returned id c hid hc =>
      rcases eq_or_mem_of_mem_setKey hf with rfl | hf
      · exact .inr ⟨_, (getElem?_set_iff hid _ _ _).mpr (.inl ⟨rfl, rfl⟩), hk⟩
      · exact .inl hf
    | threw _ _ _ => exact .inl hf
    | settle _ _ _ => exact .inl hf
    | @cleanup id c result hid hc =>
      refine .inl ?_
      simp only [World.cleanup] at hf
      split at hf
      · exact List.mem_of_mem_filter hf
      · exact hf
    | tick ms => exact .inl hf

/-- An attempt with the key: a new call is the one that it waits for. -/
theorem grows_executeAttempt (hk : normalizeIdempotencyKey key = k) (hne : k ≠ "") (w : World T) (f : FnCall) :
    Grows k (fun i => i = w.calls.length ∧ (executeAttempt w key f).1 = .call i) w (executeAttempt w key f).2 := by
  refine ⟨kept_executeAttempt w key f, ?_, ?_⟩
  · intro i c hi hc
    rcases executeAttempt_cases hk hne w f with ⟨_, -, he⟩ | ⟨-, -, hid, -, hcalls⟩
    · rw [he] at hi
      exact .inl ⟨c, hi, hc⟩
    · rw [hcalls] at hi
      rcases (getElem?_concat_iff _ _ i c).mp hi with hi | ⟨rfl, -⟩
      · exact .inl ⟨c, hi, hc⟩
      · exact .inr ⟨rfl, hid⟩
  · intro g hg hgk
    rcases executeAttempt_cases hk hne w f with ⟨_, -, he⟩ | ⟨-, -, -, hstep, -⟩
    · rw [he] at hg
      exact .inl (List.mem_of_mem_filter hg)
    · have hgrows := grows_of_step (k := k) hstep (by cases f <;> exact id)
      rcases hgrows.entries hg hgk with hg | hcall
      · exact .inl (List.mem_of_mem_filter hg)
      · exact .inr hcall

end ZkPayroll.Core.RetryBudget
