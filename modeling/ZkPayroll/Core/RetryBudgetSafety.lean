import ZkPayroll.Core.IdempotencySafety
import ZkPayroll.Core.RetryBudget

/-!
# When a retry may start the function again

The attempts of `withRetryBudget` run in the registry without a time to live.
Their calls keep the entry of the key as long as they run (`AttemptsOnly`), so a
retry never starts the function while a call for the key is in flight. A call
that an attempt has stopped waiting for may resolve during the sleep and take
its entry with it: only if no such call has resolved (`Timely`) is a retry known
to follow failures (`never_started_again`).
-/

namespace ZkPayroll.Core.RetryBudget

open Framework Idempotency

variable {T : Type} {k key : String} {w w' : World T}

/-! ## Attempts in the registry -/

/-- A registry in which all calls for the key are attempts. -/
structure AttemptsOnly (k : String) (w : World T) : Prop where
  inv : Inv k w
  known : ∀ f ∈ w.entries, f.2.call < w.calls.length
  attempt {i : Nat} {c : Call T} : w.calls[i]? = some c → c.key = k →
    c.expiresAt = none ∧ c.ttlMs = 0 ∧ c.isStarting = false

variable {c : Call T}

/-- The calls of a registry without an entry for the key are over. -/
theorem AttemptsOnly.not_open (h : AttemptsOnly k w) (hnone : w.entries.lookup k = none) {i : Nat}
    (hi : w.calls[i]? = some c) (hk : c.key = k) : c.isOpen = false := by
  by_contra ho
  obtain ⟨hexp, -, hs⟩ := h.attempt hi hk
  rcases h.inv.held hi hk (by simpa using ho) hs with he | ⟨hd, -⟩
  · rw [hnone] at he
    cases he
  · simp [Call.overdue, hexp] at hd

theorem AttemptsOnly.prune (h : AttemptsOnly k w) :
    AttemptsOnly k { w with entries := pruneExpired w.now w.entries } where
  inv := h.inv.prune
  known f hf := h.known f (List.mem_of_mem_filter hf)
  attempt := h.attempt

/-- No step leaves an entry without its call. -/
theorem known_of_step (hkeys : (w.entries.map Prod.fst).Nodup)
    (h : ∀ f ∈ w.entries, f.2.call < w.calls.length) {e : Event T} (hs : w.Step e w') :
    ∀ f ∈ w'.entries, f.2.call < w'.calls.length := by
  have hprune : ∀ f ∈ pruneExpired w.now w.entries, f.2.call < w.calls.length :=
    fun f hf => h f (List.mem_of_mem_filter hf)
  intro f hf
  cases hs with
  | execute key options =>
    revert hf
    unfold World.execute
    simp only
    split
    · exact h f
    · split
      · exact hprune f
      · exact fun hf => (hprune f hf).trans_le (by simp)
  | returned hid hc =>
    simp only [World.returned, List.length_set] at hf ⊢
    rcases (mem_setKey hkeys).mp hf with rfl | ⟨hf, -⟩
    · exact (List.getElem?_eq_some_iff.mp hid).1
    · exact h f hf
  | threw _ _ _ | settle _ _ _ => simpa [World.setState] using h f hf
  | @cleanup id c result hid hc =>
    have hf' : f ∈ w.entries := by
      simp only [World.cleanup] at hf
      split at hf
      · exact List.mem_of_mem_filter hf
      · exact hf
    simpa [World.cleanup] using h f hf'
  | tick ms => exact h f hf

/-- A step that is no call of `execute` for the key. -/
theorem AttemptsOnly.step (h : AttemptsOnly k w) {e : Event T} (he : ¬executesKey k e) (hs : w.Step e w') :
    AttemptsOnly k w' := by
  have hinv : Inv k w' := h.inv.step (by cases e <;> first | exact fun hk => absurd hk he | trivial) hs
  refine ⟨hinv, known_of_step h.inv.keys h.known hs, ?_⟩
  · intro i d hi hk
    cases hs with
    | execute key' options =>
      revert hi
      unfold World.execute
      simp only
      split
      · exact fun hi => h.attempt hi hk
      · split
        · exact fun hi => h.attempt hi hk
        · intro hi
          rcases (getElem?_concat_iff _ _ i d).mp hi with hi | ⟨-, rfl⟩
          · exact h.attempt hi hk
          · exact absurd hk he
    | returned hid hc =>
      rcases (getElem?_set_iff hid _ i d).mp hi with ⟨-, rfl⟩ | ⟨-, hi⟩
      · -- no call for the key is being started
        have := (h.attempt hid hk).2.2
        simp [Call.isStarting, hc] at this
      · exact h.attempt hi hk
    | threw _ hid _ | settle _ hid _ | cleanup hid _ =>
      rcases (getElem?_set_iff hid _ i d).mp hi with ⟨-, rfl⟩ | ⟨-, hi⟩
      · exact ⟨(h.attempt hid hk).1, (h.attempt hid hk).2.1, rfl⟩
      · exact h.attempt hi hk
    | tick ms => exact h.attempt hi hk

/-- The call of an attempt. -/
def attemptCall (key : String) : Call T where
  key := normalizeIdempotencyKey key
  ttlMs := 0
  cacheErrors := false

/-- The world in which an attempt calls the function. -/
def startAttempt (w : World T) (key : String) : World T :=
  { w with entries := pruneExpired w.now w.entries, calls := w.calls ++ [attemptCall key] }

theorem getElem?_startAttempt (w : World T) (key : String) :
    (startAttempt w key).calls[w.calls.length]? = some (attemptCall key) := by
  simp [startAttempt]

/-- The event of a function being called. -/
def FnCall.event (id : Nat) : FnCall → Event T
  | .promise => .returned id
  | .throws e => .threw id e

/-- What becomes of a call when its function is called. -/
def FnCall.state : FnCall → CallState T
  | .promise => .pending
  | .throws e => .finished (.error e)

/-- An attempt joins the call of the key, or starts one. -/
theorem executeAttempt_cases (hk : normalizeIdempotencyKey key = k) (hne : k ≠ "") (w : World T) (f : FnCall) :
    (∃ e, (pruneExpired w.now w.entries).lookup k = some e ∧
      executeAttempt w key f = (.call e.call, { w with entries := pruneExpired w.now w.entries })) ∨
    (pruneExpired w.now w.entries).lookup k = none ∧
      (w.execute key { ttlMs := some 0 }) = (.started w.calls.length, startAttempt w key) ∧
      (executeAttempt w key f).1 = .call w.calls.length ∧
      (startAttempt w key).Step (f.event w.calls.length) (executeAttempt w key f).2 ∧
      (executeAttempt w key f).2.calls = w.calls ++ [{ (attemptCall key : Call T) with state := f.state }] := by
  cases hl : (pruneExpired w.now w.entries).lookup k with
  | some e =>
    refine .inl ⟨e, rfl, ?_⟩
    have hx : w.execute key { ttlMs := some 0 } =
        (.existing e.call, { w with entries := pruneExpired w.now w.entries }) := by
      simp only [World.execute, hk, if_neg hne, hl]
    rw [executeAttempt, hx]
  | none =>
    have hx : w.execute key { ttlMs := some 0 } = (.started w.calls.length, startAttempt w key) := by
      simp only [World.execute, hk, if_neg hne, hl, startAttempt, attemptCall]
      rfl
    have hget := getElem?_startAttempt w key
    refine .inr ⟨rfl, hx, ?_⟩
    rw [executeAttempt, hx]
    simp only [hget]
    cases f with
    | promise =>
      refine ⟨rfl, .returned hget rfl, ?_⟩
      simp [World.returned, startAttempt, attemptCall, FnCall.state]
    | throws e =>
      refine ⟨rfl, .threw e hget rfl, ?_⟩
      simp [World.setState, startAttempt, attemptCall, FnCall.state]

theorem AttemptsOnly.execute (h : AttemptsOnly k w) (hk : normalizeIdempotencyKey key = k) (hne : k ≠ "")
    (f : FnCall) : AttemptsOnly k (executeAttempt w key f).2 := by
  rcases executeAttempt_cases hk hne w f with ⟨e, -, he⟩ | ⟨hnone, hx, -, hstep, hcalls⟩
  · rw [he]
    exact h.prune
  · have htime : InTime k w (.execute key { ttlMs := some 0 }) := by
      intro _ i c hi hc
      obtain ⟨hexp, -, hs⟩ := h.attempt hi hc
      exact ⟨hs, fun hd => by simp [Call.overdue, hexp] at hd⟩
    have hstart : Inv k (startAttempt w key) := by
      have := h.inv.execute htime
      rwa [hx] at this
    have hknown : ∀ g ∈ (startAttempt w key).entries, g.2.call < (startAttempt w key).calls.length :=
      fun g hg => (h.prune.known g hg).trans_le (by simp [startAttempt])
    refine ⟨hstart.step (by cases f <;> trivial) hstep, known_of_step hstart.keys hknown hstep,
      fun {i c} hi hc => ?_⟩
    rw [hcalls] at hi
    rcases (getElem?_concat_iff _ _ i c).mp hi with hi | ⟨-, rfl⟩
    · exact h.attempt hi hc
    · cases f <;> exact ⟨rfl, rfl, rfl⟩

/-- An attempt changes no call that is there. -/
theorem getElem?_executeAttempt (hk : normalizeIdempotencyKey key = k) (hne : k ≠ "") (f : FnCall) {i : Nat}
    (hi : w.calls[i]? = some c) : (executeAttempt w key f).2.calls[i]? = some c := by
  rcases executeAttempt_cases hk hne w f with ⟨e, -, he⟩ | ⟨-, -, -, -, hcalls⟩
  · rw [he]
    exact hi
  · rw [hcalls]
    exact (getElem?_concat_iff _ _ i c).mpr (.inl hi)

/-- What an attempt waits for is a call. -/
theorem AttemptsOnly.awaited (h : AttemptsOnly k w) (hk : normalizeIdempotencyKey key = k) (hne : k ≠ "")
    (f : FnCall) : ∃ id, (executeAttempt w key f).1 = .call id ∧
      id < (executeAttempt w key f).2.calls.length := by
  rcases executeAttempt_cases hk hne w f with ⟨e, hl, he⟩ | ⟨-, -, hid, -, hcalls⟩
  · rw [he]
    exact ⟨e.call, rfl, h.prune.known _ (lookup_mem hl)⟩
  · exact ⟨_, hid, by rw [hcalls]; simp⟩

/-! ## One step of a sequence -/

/-- The promise of the function was rejected. -/
def Failed (c : Call T) : Prop := ∃ e, c.state = .finished (.error e)

variable {o : WithRetryBudgetOptions} {s s' : RetrySequence T}

/-- The loop waits for the call, or has ended. -/
def Phase.mayWaitFor (i : Nat) : Phase T → Prop
  | .attempting _ awaited _ => i ∈ awaited.ids
  | .done _ => True
  | .idle | .sleeping _ _ => False

/-- The calls of the attempts so far were abandoned, or failed, or are waited
for. -/
structure SequenceInv (o : WithRetryBudgetOptions) (s : RetrySequence T) : Prop where
  world : AttemptsOnly o.key s.world
  idle : s.phase = .idle → s.attempts = []
  attempts {i : Nat} : i ∈ s.attempts → ∃ c, s.world.calls[i]? = some c ∧
    (i ∈ s.abandoned ∨ Failed c ∨ s.phase.mayWaitFor i)

/-- The calls of all attempts were abandoned, or failed. -/
def AllLeft (s : RetrySequence T) : Prop :=
  ∀ i ∈ s.attempts, ∃ c, s.world.calls[i]? = some c ∧ (i ∈ s.abandoned ∨ Failed c)

theorem SequenceInv.allLeft (h : SequenceInv o s) (hp : ∀ i, ¬s.phase.mayWaitFor i) : AllLeft s := by
  intro i hi
  obtain ⟨c, hc, hcase⟩ := h.attempts hi
  exact ⟨c, hc, hcase.imp_right fun hf => hf.resolve_right (hp i)⟩

theorem AllLeft.setPhase (hl : AllLeft s) (hw : AttemptsOnly o.key s.world) {p : Phase T} (hp : p ≠ .idle) :
    SequenceInv o { s with phase := p } where
  world := hw
  idle h := absurd h hp
  attempts hi := by
    obtain ⟨c, hc, hcase⟩ := hl _ hi
    exact ⟨c, hc, hcase.imp_right .inl⟩

/-- A sequence that has ended. -/
theorem SequenceInv.done (h : SequenceInv o s) (outcome : Outcome T) :
    SequenceInv o { s with phase := .done outcome } where
  world := h.world
  idle hd := nomatch hd
  attempts hi := by
    obtain ⟨c, hc, -⟩ := h.attempts hi
    exact ⟨c, hc, .inr (.inr trivial)⟩

/-- The failure of an attempt ends the loop or leads to its sleep. -/
theorem failAttempt_eq (r : Reads) (attempt : Nat) (e : SdkError) (timedOut : Bool) :
    ∃ p, p ≠ .idle ∧ s.failAttempt o r attempt e timedOut = { s with phase := p } := by
  unfold RetrySequence.failAttempt
  simp only
  split
  · exact ⟨.done _, nofun, rfl⟩
  · split
    · exact ⟨.done _, nofun, rfl⟩
    · split
      · exact ⟨.done _, nofun, rfl⟩
      · split
        · exact ⟨.done _, nofun, rfl⟩
        · exact ⟨.sleeping _ _, nofun, rfl⟩

theorem AllLeft.failAttempt (hl : AllLeft s) (hw : AttemptsOnly o.key s.world) (r : Reads) (attempt : Nat)
    (e : SdkError) (timedOut : Bool) : SequenceInv o (s.failAttempt o r attempt e timedOut) := by
  obtain ⟨p, hp, he⟩ := failAttempt_eq (o := o) (s := s) r attempt e timedOut
  rw [he]
  exact hl.setPhase hw hp

theorem AllLeft.attemptSettled (hl : AllLeft s) (hw : AttemptsOnly o.key s.world) (r : Reads) (attempt : Nat)
    (timer : Bool) (e : SdkError) : SequenceInv o (s.attemptSettled o r attempt timer (.error e)) := by
  unfold RetrySequence.attemptSettled RetrySequence.catchAttempt
  simp only
  split
  · exact hl.setPhase hw nofun
  · split
    · exact hl.setPhase hw nofun
    · exact hl.failAttempt hw r attempt e false

variable {attempt : Nat}

/-- An attempt stops waiting for its call. -/
theorem SequenceInv.abandon (h : SequenceInv o s) {awaited : Awaited} {timer : Bool}
    (hp : s.phase = .attempting attempt awaited timer) :
    AllLeft { s with abandoned := s.abandoned ++ awaited.ids } := by
  intro i hi
  obtain ⟨c, hc, hcase⟩ := h.attempts hi
  refine ⟨c, hc, ?_⟩
  rcases hcase with ha | hf | hwait
  · exact .inl (List.mem_append_left _ ha)
  · exact .inr hf
  · rw [hp] at hwait
    exact .inl (List.mem_append_right _ hwait)

/-- What an attempt waited for has failed. -/
theorem SequenceInv.rejected (h : SequenceInv o s) {attempt : Nat} {awaited : Awaited} {timer : Bool}
    (hp : s.phase = .attempting attempt awaited timer) {e : SdkError}
    (hr : awaited.result s.world = some (.error e)) : AllLeft s := by
  intro i hi
  obtain ⟨c, hc, hcase⟩ := h.attempts hi
  refine ⟨c, hc, hcase.imp_right fun hf => hf.elim id fun hwait => ?_⟩
  rw [hp] at hwait
  cases awaited with
  | rejected e => cases hwait
  | call id =>
    obtain rfl : i = id := List.mem_singleton.mp hwait
    rw [Awaited.result, hc] at hr
    simp only [Option.map_some] at hr
    split at hr
    · rename_i hstate
      injection hr with hr
      exact ⟨e, by rw [Option.some.inj hstate, hr]⟩
    · cases hr

/-- The function that the options name is called through the registry. -/
theorem invokeAttempt_eq (hreg : o.registry = true) (hkey : o.hasIdempotencyKey = true) (w : World T)
    (f : FnCall) : invokeAttempt o w f = executeAttempt w (o.idempotencyKey.getD "") f := by
  simp [invokeAttempt, hreg, hkey]

theorem key_ne (hkey : o.hasIdempotencyKey = true) : o.key ≠ "" := by
  simpa [WithRetryBudgetOptions.hasIdempotencyKey] using hkey

theorem AllLeft.beginAttempt (hl : AllLeft s) (hw : AttemptsOnly o.key s.world) (hreg : o.registry = true)
    (hkey : o.hasIdempotencyKey = true) (r : Reads) (f : FnCall) (attempt : Nat) (lastError : SdkError) :
    SequenceInv o (s.beginAttempt o r f attempt lastError) := by
  unfold RetrySequence.beginAttempt
  split
  · exact hl.setPhase hw nofun
  · simp only [invokeAttempt_eq hreg hkey]
    have hexec := hw.execute rfl (key_ne hkey) f
    have hkept := fun i c hi => getElem?_executeAttempt (w := s.world) (i := i) (c := c) rfl (key_ne hkey) f hi
    have hawaited := hw.awaited rfl (key_ne hkey) f
    generalize executeAttempt s.world (o.idempotencyKey.getD "") f = x at *
    obtain ⟨_, w⟩ := x
    obtain ⟨id, rfl, hlt⟩ := hawaited
    refine ⟨hexec, nofun, fun {i} hi => ?_⟩
    rcases List.mem_append.mp hi with hi | hi
    · obtain ⟨c, hc, hcase⟩ := hl i hi
      exact ⟨c, hkept i c hc, hcase.imp_right .inl⟩
    · obtain rfl : i = id := List.mem_singleton.mp hi
      exact ⟨_, List.getElem?_eq_getElem hlt, .inr (.inr hi)⟩

/-- A call stays, and one that has failed stays as it is. -/
theorem exists_call_of_step {e : Event T} (hs : w.Step e w') {i : Nat}
    (hi : w.calls[i]? = some c) : ∃ c', w'.calls[i]? = some c' ∧ (Failed c → Failed c') := by
  have hset : ∀ {id : Nat} {d d' : Call T}, w.calls[id]? = some d → ¬Failed d →
      ∃ c', (w.calls.set id d')[i]? = some c' ∧ (Failed c → Failed c') := by
    intro id d d' hid hd
    by_cases hii : i = id
    · subst hii
      obtain rfl : d = c := Option.some.inj (hid.symm.trans hi)
      exact ⟨d', (getElem?_set_iff hid _ _ _).mpr (.inl ⟨rfl, rfl⟩), fun hf => absurd hf hd⟩
    · exact ⟨c, (getElem?_set_iff hid _ _ _).mpr (.inr ⟨hii, hi⟩), fun hf => hf⟩
  have hnot : ∀ {d : Call T}, (∀ result, d.state ≠ .finished result) → ¬Failed d :=
    fun hd ⟨e, he⟩ => hd _ he
  cases hs with
  | execute key options =>
    refine ⟨c, ?_, id⟩
    unfold World.execute
    simp only
    split
    · exact hi
    · split
      · exact hi
      · exact (getElem?_concat_iff _ _ _ _).mpr (.inl hi)
  | returned hid hc | threw _ hid hc | settle _ hid hc | cleanup hid hc =>
    exact hset hid (hnot fun _ h => by rw [hc] at h; cases h)
  | tick ms => exact ⟨c, hi, id⟩

theorem SequenceInv.setWorld (h : SequenceInv o s) (hw : AttemptsOnly o.key w)
    (hcalls : ∀ (i : Nat) (c : Call T), s.world.calls[i]? = some c →
      ∃ c', w.calls[i]? = some c' ∧ (Failed c → Failed c')) : SequenceInv o { s with world := w } where
  world := hw
  idle := h.idle
  attempts hi := by
    obtain ⟨c, hc, hcase⟩ := h.attempts hi
    obtain ⟨c', hc', hf⟩ := hcalls _ c hc
    exact ⟨c', hc', hcase.imp_right (Or.imp_left hf)⟩

variable {e : RetryEvent T}

theorem SequenceInv.step (hreg : o.registry = true) (hkey : o.hasIdempotencyKey = true) (h : SequenceInv o s)
    (hs : s.Step o e s') : SequenceInv o s' := by
  have hidle : s.phase = .idle → AllLeft s := fun hp i hi => by
    rw [h.idle hp] at hi
    cases hi
  cases hs with
  | start startedAt r f hp =>
    split
    · exact h.done _
    · exact AllLeft.beginAttempt (s := { s with startedAt := startedAt }) (hidle hp) h.world hreg hkey _ _ _ _
  | @settled r attempt awaited timer result hp hr =>
    cases result with
    | ok value => exact h.done _
    | error err => exact (h.rejected hp hr).attemptSettled h.world _ _ _ _
  | timedOut r hp => exact (h.abandon hp).failAttempt h.world _ _ _ _
  | timerRejected r e hp => exact (h.abandon hp).attemptSettled h.world _ _ _ _
  | slept r f hp => exact (h.allLeft fun i hw => by rw [hp] at hw; exact hw).beginAttempt h.world hreg hkey _ _ _ _
  | sleepRejected e hp => exact h.done _
  | abort => exact ⟨h.world, h.idle, h.attempts⟩
  | shared f hk =>
    exact h.setWorld (h.world.execute hk (key_ne hkey) f) fun i c hi =>
      ⟨c, getElem?_executeAttempt hk (key_ne hkey) f hi, id⟩
  | other hw he => exact h.setWorld (h.world.step he hw) fun i c hi => exists_call_of_step hw hi

/-! ## Runs -/

/-- A new registry, and a sequence that has not begun. -/
def NewSequence (s : RetrySequence T) : Prop :=
  Initial s.world ∧ s.phase = .idle ∧ s.attempts = [] ∧ s.abandoned = []

/-- The states that runs reach whose steps all meet the condition `ok`. -/
abbrev ReachableSequence (o : WithRetryBudgetOptions) (ok : RetrySequence T → RetryEvent T → Prop)
    (s : RetrySequence T) : Prop :=
  Reachable NewSequence (fun s s' => ∃ e, ok s e ∧ s.Step o e s') s

theorem ReachableSequence.next {ok : RetrySequence T → RetryEvent T → Prop} (h : ReachableSequence o ok s)
    (he : ok s e) (hs : s.Step o e s') : ReachableSequence o ok s' :=
  Reachable.next h ⟨e, he, hs⟩

theorem sequenceInv_of_reachable (hreg : o.registry = true) (hkey : o.hasIdempotencyKey = true)
    {ok : RetrySequence T → RetryEvent T → Prop} (h : ReachableSequence o ok s) : SequenceInv o s := by
  refine Reachable.invariant (I := SequenceInv o) (fun s hs => ?_) (fun s s' hinv hs => ?_) h
  · obtain ⟨⟨hent, hcalls⟩, -, hatt, -⟩ := hs
    refine ⟨⟨?_, ?_, ?_⟩, fun _ => hatt, ?_⟩
    · constructor <;> simp [hent, hcalls]
    · simp [hent]
    · simp [hcalls]
    · simp [hatt]
  · obtain ⟨e, -, hs⟩ := hs
    exact hinv.step hreg hkey hs

/-- When the sleep after an attempt may end: if the next attempt is going to
call the function, no call that an earlier one stopped waiting for has resolved. -/
def Timely (o : WithRetryBudgetOptions) (s : RetrySequence T) : RetryEvent T → Prop
  | .slept r _ => ∀ (attempt : Nat) (lastError : SdkError) (id : Nat), s.phase = .sleeping attempt lastError →
      s.stopped o r (attempt + 1) lastError = none →
      (s.world.execute (o.idempotencyKey.getD "") { ttlMs := some 0 }).1 = .started id →
      ∀ i ∈ s.abandoned, ∀ (c : Call T) (value : T), s.world.calls[i]? = some c →
        c.state ≠ .finished (.ok value)
  | _ => True

section

variable (hw : AttemptsOnly o.key s.world) (hreg : o.registry = true) (hkey : o.hasIdempotencyKey = true)
  {r : Reads} {f : FnCall} {lastError : SdkError} (hs : s.StartsFn (s.beginAttempt o r f attempt lastError))
include hw hreg hkey hs

/-- An attempt that starts the function was not stopped, and found no entry of
the key. -/
theorem AttemptsOnly.of_startsFn : s.stopped o r attempt lastError = none ∧
      (s.world.execute (o.idempotencyKey.getD "") { ttlMs := some 0 }).1 = .started s.world.calls.length ∧
      (pruneExpired s.world.now s.world.entries).lookup o.key = none := by
  unfold RetrySequence.StartsFn RetrySequence.beginAttempt at hs
  split at hs
  · simp at hs
  · rename_i hstop
    refine ⟨hstop, ?_⟩
    simp only [invokeAttempt_eq hreg hkey] at hs
    rcases executeAttempt_cases rfl (key_ne hkey) s.world f with ⟨e, hl, he⟩ | ⟨hnone, hx, -⟩
    · -- the call of an entry is not new
      have hlt := hw.prune.known _ (lookup_mem hl)
      rw [he] at hs
      have hid : e.call = s.world.calls.length := by simpa [Awaited.ids] using hs
      exact absurd hid hlt.ne
    · exact ⟨by rw [hx], hnone⟩

/-- The calls for the key are over when an attempt starts the function. -/
theorem AttemptsOnly.over_of_startsFn {i : Nat}
    (hi : s.world.calls[i]? = some c) (hk : c.key = o.key) : ∃ result, c.state = .finished result := by
  obtain ⟨-, -, hnone⟩ := hw.of_startsFn hreg hkey hs
  have hopen := hw.prune.not_open hnone hi hk
  have httl := (hw.attempt hi hk).2.1
  unfold Call.isOpen at hopen
  split at hopen
  · cases hopen
  · cases hopen
  · -- a settled attempt is still going to delete its entry
    simp [Call.deletes, httl] at hopen
  · exact ⟨_, by assumption⟩

end

/-- A step that starts the function begins an attempt. -/
theorem RetrySequence.Step.begins (hs : s.Step o e s') (hstart : s.StartsFn s') :
    (∃ startedAt r f, e = .start startedAt r f ∧ s.phase = .idle ∧
      s' = { s with startedAt := startedAt }.beginAttempt o r f 1 undefinedValue) ∨
    ∃ r f attempt lastError, e = .slept r f ∧ s.phase = .sleeping attempt lastError ∧
      s' = s.beginAttempt o r f (attempt + 1) lastError := by
  have hsame : s'.attempts = s.attempts → False := fun h => by
    have := hstart.symm.trans h
    simp at this
  have hfail : ∀ (s : RetrySequence T) r attempt e timedOut,
      (s.failAttempt o r attempt e timedOut).attempts = s.attempts := by
    intro s r attempt e timedOut
    obtain ⟨p, -, he⟩ := failAttempt_eq (o := o) (s := s) r attempt e timedOut
    rw [he]
  have hsettled : ∀ (s : RetrySequence T) r attempt timer result,
      (s.attemptSettled o r attempt timer result).attempts = s.attempts := by
    intro s r attempt timer result
    unfold RetrySequence.attemptSettled RetrySequence.catchAttempt
    repeat' split
    all_goals first | rfl | exact hfail _ _ _ _ _
  cases hs with
  | start startedAt r f hp =>
    split at hstart
    · exact (hsame (by simp [*])).elim
    · exact .inl ⟨_, _, _, rfl, hp, if_neg (by assumption)⟩
  | settled r hp hr => exact (hsame (hsettled _ _ _ _ _)).elim
  | timedOut r hp => exact (hsame (hfail _ _ _ _ _)).elim
  | timerRejected r e hp => exact (hsame (hsettled _ _ _ _ _)).elim
  | slept r f hp => exact .inr ⟨_, _, _, _, rfl, hp, rfl⟩
  | sleepRejected e hp => exact (hsame rfl).elim
  | abort => exact (hsame rfl).elim
  | shared f hk => exact (hsame rfl).elim
  | other hw he => exact (hsame rfl).elim

/-- A sequence with a key and a registry starts the function only when no call
for the key is in flight, and none that it has waited for succeeded. -/
theorem never_started_again (hreg : o.registry = true) (hkey : o.hasIdempotencyKey = true)
    (h : ReachableSequence o (Timely o) s) {e : RetryEvent T} (he : Timely o s e) (hs : s.Step o e s')
    (hstart : s.StartsFn s') {i : Nat} {c : Call T} (hi : s.world.calls[i]? = some c) (hk : c.key = o.key) :
    c.isPending = false ∧ (i ∈ s.attempts → c.succeeded = false) := by
  have hinv := sequenceInv_of_reachable hreg hkey h
  rcases hs.begins hstart with ⟨startedAt, r, f, rfl, hp, rfl⟩ | ⟨r, f, attempt, lastError, rfl, hp, rfl⟩
  · have hw : AttemptsOnly o.key { s with startedAt := startedAt }.world := hinv.world
    obtain ⟨result, hc⟩ := hw.over_of_startsFn hreg hkey hstart hi hk
    refine ⟨by simp [Call.isPending, hc], fun hmem => ?_⟩
    rw [hinv.idle hp] at hmem
    cases hmem
  · obtain ⟨result, hc⟩ := hinv.world.over_of_startsFn hreg hkey hstart hi hk
    refine ⟨by simp [Call.isPending, hc], fun hmem => ?_⟩
    obtain ⟨hstop, hx, -⟩ := hinv.world.of_startsFn hreg hkey hstart
    obtain ⟨d, hd, hcase⟩ := hinv.allLeft (fun j hj => by rw [hp] at hj; exact hj) i hmem
    obtain rfl : c = d := Option.some.inj (hi.symm.trans hd)
    cases result with
    | error e => simp [Call.succeeded, hc]
    | ok value =>
      -- its attempt did not see it fail, so it was abandoned, and then resolved
      rcases hcase with hab | ⟨e, he'⟩
      · exact absurd hc (he _ _ _ hp hstop hx i hab c value hi)
      · rw [hc] at he'
        cases he'

/-- A payment with a key, a registry and a timer for its attempts. -/
def payOptions : WithRetryBudgetOptions where
  operationType := .WRITE
  budget := { maxAttempts := some 3 }
  idempotencyKey := some "pay"
  attemptTimeoutMs := some 50
  registry := true

/-- A call that has not begun. -/
def newPayment : RetrySequence Unit where
  world := newRegistry
  aborted := false
  startedAt := 0
  phase := .idle
  attempts := []
  abandoned := []

/-- The payment after its first attempt. -/
def sleepingPayment (result : Except SdkError Unit) (lastError : SdkError) (abandoned : List Nat) :
    RetrySequence Unit where
  world := { newRegistry with calls := [{ (attemptCall "pay" : Call Unit) with state := .finished result }] }
  aborted := false
  startedAt := 0
  phase := .sleeping 1 lastError
  attempts := [0]
  abandoned := abandoned

/-- The payment is rejected by the network: the second attempt starts it again
when the first call is over. -/
theorem rejected_payment_retried :
    ∃ s s' : RetrySequence Unit, s.Step payOptions (.slept { now := 110 } .promise) s' ∧ s.StartsFn s' ∧
      0 ∈ s.attempts ∧ ∃ c, s.world.calls[0]? = some c ∧ c.isPending = false ∧ c.succeeded = false := by
  let lost := networkError "no route"
  have h₀ : ReachableSequence payOptions (Timely payOptions) newPayment :=
    Reachable.start ⟨⟨rfl, rfl⟩, rfl, rfl, rfl⟩
  have h₁ := h₀.next (e := .start 0 { now := 0 } .promise) trivial (.start _ _ _ rfl)
  have h₂ := h₁.next (e := .other (.settle 0 (.error lost))) trivial (.other (.settle _ rfl rfl) id)
  have h₃ := h₂.next (e := .other (.cleanup 0)) trivial (.other (.cleanup rfl rfl) id)
  have h₄ := h₃.next (e := .settled { now := 10 }) trivial (.settled _ rfl rfl)
  change ReachableSequence payOptions (Timely payOptions) (sleepingPayment (.error lost) lost []) at h₄
  have htimely : Timely payOptions (sleepingPayment (.error lost) lost []) (.slept { now := 110 } .promise) := by
    intro _ _ _ _ _ _ i hi
    cases hi
  have hstep := RetrySequence.Step.slept (o := payOptions) (s := sleepingPayment (.error lost) lost [])
    { now := 110 } .promise rfl
  have hsafe := never_started_again rfl (by decide) h₄ htimely hstep rfl (i := 0) rfl rfl
  exact ⟨_, _, hstep, rfl, .head _, _, rfl, hsafe.1, hsafe.2 (.head _)⟩

/-- The first attempt times out, and its call succeeds while the loop sleeps:
the second attempt pays again. -/
theorem late_payment_paid_again :
    ∃ s s' : RetrySequence Unit, ReachableSequence payOptions (fun _ _ => True) s ∧
      s.Step payOptions (.slept { now := 150 } .promise) s' ∧ s.StartsFn s' ∧ 0 ∈ s.attempts ∧
      ∃ c, s.world.calls[0]? = some c ∧ c.key = payOptions.key ∧ c.succeeded = true := by
  have h₀ : ReachableSequence payOptions (fun _ _ => True) newPayment :=
    Reachable.start ⟨⟨rfl, rfl⟩, rfl, rfl, rfl⟩
  have h₁ := h₀.next (e := .start 0 { now := 0 } .promise) trivial (.start _ _ _ rfl)
  have h₂ := h₁.next (e := .timedOut { now := 50 }) trivial (.timedOut _ rfl)
  have h₃ := h₂.next (e := .other (.settle 0 (.ok ()))) trivial (.other (.settle _ rfl rfl) id)
  have h₄ := h₃.next (e := .other (.cleanup 0)) trivial (.other (.cleanup rfl rfl) id)
  change ReachableSequence payOptions (fun _ _ => True)
    (sleepingPayment (.ok ()) (timeoutError payOptions 1) [0]) at h₄
  exact ⟨_, _, h₄, .slept _ _ rfl, rfl, .head _, _, rfl, rfl, rfl⟩

end ZkPayroll.Core.RetryBudget
