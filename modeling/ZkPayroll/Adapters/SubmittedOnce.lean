import ZkPayroll.Adapters.InvocationSteps

/-!
# When a key is broadcast once

The registry holds the entry of a key as long as its send is open, so that two
sends for the key are never in flight at once; but it forgets a send that was
answered. An invocation that is signed later broadcasts again, unless it is
known that nothing it could repeat stands (`Unspent`). In the runs in which
that is so, no send follows one that was accepted, and what is signed later
awaits that one (`submitted_once`).
-/

namespace ZkPayroll.Adapters

open Framework ZkPayroll.Core Core.Idempotency Core.RetryBudget

variable {k : String} {s t u : Wrapper}

/-- The send with the number `id` for the key was accepted, and its transaction
is not known to have failed. -/
structure Stands (k : String) (s : Wrapper) (id : Nat) (r : SendTransactionResponse) : Prop where
  answered : ∃ c, s.world.calls[id]? = some c ∧ c.key = k ∧ Answered c r
  accepted : r.status ≠ .ERROR
  notFailed : r.hash ∉ s.failed

/-- The invocation awaits or has awaited the send, if it has come to a send. -/
structure Invocation.Follows (i : Invocation) (id : Nat) (r : SendTransactionResponse) : Prop where
  sending : ∀ awaited, i.phase = .sending awaited → awaited = .call id
  polling : ∀ txHash, i.phase.txHash = some txHash → txHash = r.hash

/-- What the key is for: one send for it at a time, and after one that stands
no other, but all that is signed later awaits that one. -/
structure SubmittedOnce (run : Wrapper → Wrapper → Prop) (k : String) (s : Wrapper) : Prop where
  inFlight : ∀ (i j : Nat) (c d : Call SendTransactionResponse), s.world.calls[i]? = some c →
    s.world.calls[j]? = some d → c.key = k → d.key = k → c.isPending = true → d.isPending = true → i = j
  replays : ∀ (t : Wrapper) (id : Nat) (r : SendTransactionResponse), run s t → Stands k s id r → Stands k t id r →
    (∀ (j : Nat) (d : Call SendTransactionResponse), t.world.calls[j]? = some d → d.key = k →
      j < s.world.calls.length) ∧
    ∀ (n : Nat) (i : Invocation), t.invocations[n]? = some i → i.key = k →
      (∀ i₀, s.invocations[n]? = some i₀ → i₀.phase.unsent = true) → i.Follows id r

/-- When an invocation may have been signed: a send for its key is in flight, or
no invocation with the key knows an accepted transaction that is not known to
have failed. -/
def Unspent (s : Wrapper) : WrapperEvent → Prop
  | .signed n (.ok _) _ => ∀ i, s.invocations[n]? = some i → i.key ≠ "" → s.world.entries.lookup i.key = none →
      ∀ j ∈ s.invocations, j.key = i.key → ∀ txHash, j.acceptedHash s.world = some txHash → txHash ∈ s.failed
  | _ => True

/-- The send that stands is the open one, if there is any. -/
def OpenStands (k : String) (s : Wrapper) : Prop :=
  ∀ (id : Nat) (r : SendTransactionResponse), Stands k s id r →
    ∀ (j : Nat) (d : Call SendTransactionResponse), s.world.calls[j]? = some d → d.key = k → d.isOpen = true → j = id

variable {r : SendTransactionResponse} {id : Nat} {i : Invocation}

/-- Where an unspent invocation starts a send, none stands. -/
theorem Sends.none_stands (h : Sends k s) (hne : k ≠ "") {n : Nat} {f : FnCall}
    (hu : Unspent s (.signed n (.ok ()) f)) (hi : s.invocations[n]? = some i) (hik : i.key = k)
    (hnone : s.world.entries.lookup k = none) : ¬Stands k s id r := by
  intro hr
  obtain ⟨c, hc, hck, hans⟩ := hr.answered
  have hacc : acceptedBy (.ok r) = some r.hash := if_neg hr.accepted
  obtain ⟨m, j, hj, hjk, htrack⟩ := h.tracked hc hck
  have hfin : c.state = .finished (.ok r) := by
    refine hans.resolve_left fun hset => ?_
    have hopen : c.isOpen = true := by
      simp [Call.isOpen, hset, Call.deletes, (h.guarded.attempt hc hck).2.1]
    rw [h.guarded.lookup_of_open hc hck hopen] at hnone
    cases hnone
  have hknows : j.acceptedHash s.world = some r.hash := by
    rcases htrack with hsend | ⟨result, hres, hknown⟩
    · rw [acceptedHash_of_sending hsend, result_call_iff.mpr ⟨c, hc, hfin⟩, Option.bind_some, hacc]
    · rw [hfin] at hres
      injection hres with hres
      exact acceptedHash_of_txHash (hknown _ (hres ▸ hacc))
  exact hr.notFailed (hu i hi (hik ▸ hne) (hik ▸ hnone) j (List.mem_of_getElem? hj) (hjk.trans hik.symm) _ hknows)

/-! ## Runs -/

variable {e : WrapperEvent}

/-- A send that stands stood before, unless it was open and nothing was known of
it. -/
theorem stands_of_step (h : Sends k s) (hne : k ≠ "") (hs : s.Step e t) (hr : Stands k t id r) :
    Stands k s id r ∨ ∃ c, s.world.calls[id]? = some c ∧ c.key = k ∧ c.isOpen = true := by
  obtain ⟨c, hc, hck, hans⟩ := hr.answered
  rcases step_cases hs with ⟨i, -, rfl⟩ | ⟨n, i, p, ha⟩ | ⟨n, i, f, rfl, hi, hp, rfl⟩ | ⟨e', w, he, hw, rfl⟩
  · exact .inl ⟨⟨c, hc, hck, hans⟩, hr.accepted, hr.notFailed⟩
  · exact .inl ⟨⟨c, ha.world ▸ hc, hck, hans⟩, hr.accepted, fun hf => hr.notFailed (ha.failed hf)⟩
  · have hfailed := hr.notFailed
    rw [signed_failed] at hfailed
    refine .inl ⟨⟨c, ?_, hck, hans⟩, hr.accepted, hfailed⟩
    obtain ⟨-, hcases⟩ := signed_cases h.guarded hne (n := n) (i := i) f
    rcases hcases with ⟨-, _, _, -, -, -, -, hcalls⟩ | ⟨-, -, -, c', -, hstate, hcalls⟩ | ⟨-, _, -, hcalls⟩
    · exact hcalls ▸ hc
    · rw [hcalls] at hc
      refine ((getElem?_concat_iff _ _ _ _).mp hc).resolve_right fun hnew => ?_
      obtain ⟨-, rfl⟩ := hnew
      cases f <;> simp [Answered, hstate, FnCall.state] at hans
    · exact (hcalls id c hck).mp hc
  · obtain ⟨c₀, hc₀, hm⟩ := (moves_of_outside he hw).2 id c hc
    rcases hm.answeredOrOpen hans with hans | hopen
    · exact .inl ⟨⟨c₀, hc₀, hm.key ▸ hck, hans⟩, hr.accepted, hr.notFailed⟩
    · exact .inr ⟨c₀, hc₀, hm.key ▸ hck, hopen⟩

theorem OpenStands.step (h : OpenStands k s) (hsends : Sends k s) (hne : k ≠ "")
    (hu : Unspent s e) (hs : s.Step e t) : OpenStands k t := by
  intro id r hr j d hj hjk ho
  -- two open sends for the key are one
  have hstood : ∀ {d₀ : Call SendTransactionResponse}, s.world.calls[j]? = some d₀ → d₀.key = k → d₀.isOpen = true →
      j = id := by
    intro d₀ hd₀ hdk hdo
    rcases stands_of_step hsends hne hs hr with hr | ⟨c, hc, hck, hco⟩
    · exact h id r hr j d₀ hd₀ hdk hdo
    · exact hsends.guarded.inv.unique hd₀ hc hdk hck hdo hco
  rcases step_cases hs with ⟨i, -, rfl⟩ | ⟨n, i, p, ha⟩ | ⟨n, i, f, rfl, hi, hp, rfl⟩ | ⟨e', w, he, hw, rfl⟩
  · exact hstood hj hjk ho
  · exact hstood (ha.world ▸ hj) hjk ho
  · obtain ⟨-, hcases⟩ := signed_cases hsends.guarded hne (n := n) (i := i) f
    rcases hcases with ⟨-, _, _, -, -, -, -, hcalls⟩ | ⟨hik, hnone, -, c', hck', hstate, hcalls⟩ | ⟨-, _, -, hcalls⟩
    · exact hstood (hcalls ▸ hj) hjk ho
    · have hr' := (stands_of_step hsends hne hs hr).resolve_right fun ⟨c, hc, hck, hco⟩ => by
        rw [hsends.guarded.lookup_of_open hc hck hco] at hnone
        cases hnone
      exact absurd hr' (hsends.none_stands hne hu hi hik hnone)
    · exact hstood ((hcalls j d hjk).mp hj) hjk ho
  · obtain ⟨d₀, hd₀, hm⟩ := (moves_of_outside he hw).2 j d hj
    exact hstood hd₀ (hm.key ▸ hjk) (hm.isOpen ho)

/-- In a state of the run from `s`, the send that stood there is the last for
the key. -/
structure Replayed (k : String) (s : Wrapper) (id : Nat) (r : SendTransactionResponse) (t : Wrapper) : Prop where
  answered : ∃ c, t.world.calls[id]? = some c ∧ c.key = k ∧ Answered c r
  noOther {j : Nat} {d : Call SendTransactionResponse} : t.world.calls[j]? = some d → d.key = k →
    j < s.world.calls.length
  follows {n : Nat} {i : Invocation} : t.invocations[n]? = some i → i.key = k →
    (∀ i₀, s.invocations[n]? = some i₀ → i₀.phase.unsent = true) → i.Follows id r

theorem follows_of_unsent (h : i.phase.unsent = true) (id : Nat) (r : SendTransactionResponse) :
    i.Follows id r := by
  refine ⟨fun awaited hp => ?_, fun txHash hp => ?_⟩
  · rw [hp] at h
    cases h
  · cases hph : i.phase <;> simp_all [Phase.unsent, Phase.txHash]

/-- What an invocation that follows the send has been told is the answer to
that send. -/
theorem Replayed.acceptedHash (h : Replayed k s id r t)
    (hf : i.Follows id r) {txHash : String} (htx : i.acceptedHash t.world = some txHash) : txHash = r.hash := by
  rcases acceptedHash_cases htx with htx | ⟨awaited, result, hp, hr, htx⟩
  · exact hf.polling _ htx
  · obtain rfl := hf.sending _ hp
    obtain ⟨c, hc, -, hans⟩ := h.answered
    obtain ⟨c', hc', hfin⟩ := result_call_iff.mp hr
    obtain rfl : c = c' := Option.some.inj (hc.symm.trans hc')
    obtain rfl : .ok r = result := by
      rcases hans with hset | hfin'
      · rw [hset] at hfin
        cases hfin
      · rw [hfin'] at hfin
        injection hfin
    rw [acceptedBy] at htx
    split at htx
    · cases htx
    · exact (Option.some.inj htx).symm

theorem Replayed.step (h : Replayed k s id r t) (hsends : Sends k t)
    (hopen : OpenStands k t) (hne : k ≠ "") (hu : Unspent t e) (hs : t.Step e u)
    (hr : Stands k t id r) : Replayed k s id r u := by
  rcases step_cases hs with ⟨i, hp, rfl⟩ | ⟨n, i, p, ha⟩ | ⟨n, i, f, rfl, hi, hp, rfl⟩ | ⟨e', w, he, hw, rfl⟩
  · refine ⟨h.answered, h.noOther, fun {m j} hj hjk hbefore => ?_⟩
    rcases (getElem?_concat_iff _ _ _ _).mp hj with hj | ⟨-, rfl⟩
    · exact h.follows hj hjk hbefore
    · exact follows_of_unsent (by rw [hp]; rfl) id r
  · refine ⟨ha.world ▸ h.answered, fun hj hjk => h.noOther (ha.world ▸ hj) hjk, fun {m j} hj hjk hbefore => ?_⟩
    rw [ha.set] at hj
    rcases (getElem?_set_iff ha.get _ m j).mp hj with ⟨rfl, rfl⟩ | ⟨-, hj⟩
    · have hfollows := h.follows ha.get hjk hbefore
      refine ⟨fun awaited hp => ?_, fun txHash htx => h.acceptedHash hfollows (ha.txHash.symm.trans htx)⟩
      have hns := ha.notSending
      obtain rfl : p = .sending awaited := hp
      cases hns
    · exact h.follows hj hjk hbefore
  · obtain ⟨-, hcases⟩ := signed_cases hsends.guarded hne (n := n) (i := i) f
    have hset : ∀ {awaited : Awaited}, (t.signed n i f).invocations =
        t.invocations.set n { i with phase := .sending awaited } → (i.key = k → awaited = .call id) →
          ∀ {m : Nat} {j : Invocation}, (t.signed n i f).invocations[m]? = some j → j.key = k →
            (∀ i₀, s.invocations[m]? = some i₀ → i₀.phase.unsent = true) → j.Follows id r := by
      intro awaited hset hawaited m j hj hjk hbefore
      rw [hset] at hj
      rcases (getElem?_set_iff hi _ m j).mp hj with ⟨-, rfl⟩ | ⟨-, hj⟩
      · refine ⟨fun a hp => ?_, nofun⟩
        injection hp with hp
        exact hp ▸ hawaited hjk
      · exact h.follows hj hjk hbefore
    rcases hcases with ⟨-, id', c', hc', hck', ho', hinv, hcalls⟩ | ⟨hik, hnone, -⟩ | ⟨hik, a, hinv, hcalls⟩
    · -- the send that is joined is the one that stands
      obtain rfl := hopen id r hr id' c' hc' hck' ho'
      refine ⟨?_, fun {j d} hj hjk => ?_, hset hinv fun _ => rfl⟩
      · rw [hcalls]
        exact h.answered
      · rw [hcalls] at hj
        exact h.noOther hj hjk
    · exact absurd hr (hsends.none_stands hne hu hi hik hnone)
    · obtain ⟨c, hc, hck, hans⟩ := h.answered
      exact ⟨⟨c, (hcalls id c hck).mpr hc, hck, hans⟩, fun hj hjk => h.noOther ((hcalls _ _ hjk).mp hj) hjk,
        hset hinv fun hk => absurd hk hik⟩
  · obtain ⟨hforth, hback⟩ := moves_of_outside he hw
    obtain ⟨c, hc, hck, hans⟩ := h.answered
    obtain ⟨c', hc', hm⟩ := hforth id c hc
    refine ⟨⟨c', hc', hm.key.trans hck, hm.answered hans⟩, fun {j d} hj hjk => ?_, h.follows⟩
    obtain ⟨d₀, hd₀, hm⟩ := hback j d hj
    exact h.noOther hd₀ (hm.key ▸ hjk)

theorem failed_subset_of_step (hs : s.Step e t) : s.failed ⊆ t.failed := by
  rcases step_cases hs with ⟨i, -, rfl⟩ | ⟨n, i, p, ha⟩ | ⟨n, i, f, -, -, -, rfl⟩ | ⟨e', w, -, -, rfl⟩
  · exact fun _ h => h
  · exact ha.failed
  · rw [signed_failed]
    exact fun _ h => h
  · exact fun _ h => h

/-- A new wrapper. -/
def NewWrapper (s : Wrapper) : Prop := Initial s.world ∧ s.invocations = [] ∧ s.failed = []

/-- A step of a run whose steps all meet the condition `ok`. -/
def StepIn (ok : Wrapper → WrapperEvent → Prop) (s t : Wrapper) : Prop := ∃ e, ok s e ∧ s.Step e t

variable {ok : Wrapper → WrapperEvent → Prop}

theorem StepIn.of (hs : s.Step e t) (he : ok s e) :
    StepIn ok s t := ⟨e, he, hs⟩

/-- A run whose steps all meet the condition `ok`. -/
abbrev RunIn (ok : Wrapper → WrapperEvent → Prop) (s t : Wrapper) : Prop := Relation.ReflTransGen (StepIn ok) s t

/-- The wrapper after a run whose steps meet `ok`. -/
abbrev ReachableWrapper (ok : Wrapper → WrapperEvent → Prop) (s : Wrapper) : Prop := Reachable NewWrapper (StepIn ok) s

/-- The run that has come no further. -/
theorem emptyRun (_ : ReachableWrapper ok s) : RunIn ok s s := .refl

theorem sends_of_new (h : NewWrapper s) : Sends k s := by
  obtain ⟨⟨hent, hcalls⟩, -, -⟩ := h
  refine ⟨⟨⟨?_, ?_, ?_⟩, ?_⟩, ?_⟩
  · constructor <;> simp [hent, hcalls]
  · simp [hent]
  · simp [hcalls]
  · simp [hent]
  · simp [hcalls]

theorem sends_of_reachable (hne : k ≠ "") (h : ReachableWrapper ok s) : Sends k s :=
  Reachable.invariant (I := Sends k) (fun _ => sends_of_new) (fun _ _ hinv ⟨_, _, hs⟩ => hinv.step hne hs) h

theorem openStands_of_reachable (hne : k ≠ "") (h : ReachableWrapper Unspent s) : Sends k s ∧ OpenStands k s := by
  refine Reachable.invariant (I := fun s => Sends k s ∧ OpenStands k s) (fun s hs => ⟨sends_of_new hs, ?_⟩)
    (fun s t hinv hs => ?_) h
  · intro id r hr
    obtain ⟨c, hc, -⟩ := hr.answered
    simp [hs.1.2] at hc
  · obtain ⟨e, hu, hs⟩ := hs
    exact ⟨hinv.1.step hne hs, hinv.2.step hinv.1 hne hu hs⟩

/-- Two sends for a key are never in flight at once, in any run. -/
theorem one_send_in_flight (hne : k ≠ "") (h : ReachableWrapper ok s)
    (i j : Nat) (c d : Call SendTransactionResponse) (hi : s.world.calls[i]? = some c)
    (hj : s.world.calls[j]? = some d) (hc : c.key = k) (hd : d.key = k) (hpc : c.isPending = true)
    (hpd : d.isPending = true) : i = j :=
  (sends_of_reachable hne h).guarded.inv.unique hi hj hc hd (Call.isOpen_of_isPending hpc)
    (Call.isOpen_of_isPending hpd)

theorem replayed_of_run (hne : k ≠ "") (h : ReachableWrapper Unspent s)
    (hr : Stands k s id r) (hrun : RunIn Unspent s t) (hnf : r.hash ∉ t.failed) : Replayed k s id r t := by
  induction hrun with
  | refl =>
    refine ⟨hr.answered, fun hj _ => (List.getElem?_eq_some_iff.mp hj).1, fun hi _ hbefore => ?_⟩
    exact follows_of_unsent (hbefore _ hi) id r
  | @tail t u hrun hs ih =>
    obtain ⟨e, hu, hs⟩ := hs
    have hnft : r.hash ∉ t.failed := fun hf => hnf (failed_subset_of_step hs hf)
    have ht := ih hnft
    obtain ⟨hsends, hopen⟩ := openStands_of_reachable hne (Reachable.trans h hrun)
    exact ht.step hsends hopen hne hu hs ⟨ht.answered, hr.accepted, hnft⟩

/-! ## The condition is exact -/

/-- A send for the key was answered, and accepted the transaction. -/
def Accepted (k : String) (w : World SendTransactionResponse) (txHash : String) : Prop :=
  ∃ (id : Nat) (c : Call SendTransactionResponse) (r : SendTransactionResponse), w.calls[id]? = some c ∧ c.key = k ∧
    Answered c r ∧ acceptedBy (.ok r) = some txHash

/-- A send stays, with its answer. -/
theorem send_of_step (h : Sends k s) (hne : k ≠ "") (hs : s.Step e t)
    {c : Call SendTransactionResponse} (hc : s.world.calls[id]? = some c) (hck : c.key = k) :
    ∃ c', t.world.calls[id]? = some c' ∧ c'.key = k ∧ ∀ r, Answered c r → Answered c' r := by
  rcases step_cases hs with ⟨i, -, rfl⟩ | ⟨n, i, p, ha⟩ | ⟨n, i, f, -, -, -, rfl⟩ | ⟨e', w, he, hw, rfl⟩
  · exact ⟨c, hc, hck, fun _ h => h⟩
  · exact ⟨c, by rwa [ha.world], hck, fun _ h => h⟩
  · refine ⟨c, ?_, hck, fun _ h => h⟩
    obtain ⟨-, hcases⟩ := signed_cases h.guarded hne (n := n) (i := i) f
    rcases hcases with ⟨-, _, _, -, -, -, -, hcalls⟩ | ⟨-, -, -, _, -, -, hcalls⟩ | ⟨-, _, -, hcalls⟩
    · rwa [hcalls]
    · rw [hcalls]
      exact (getElem?_concat_iff _ _ _ _).mpr (.inl hc)
    · exact (hcalls id c hck).mpr hc
  · obtain ⟨c', hc', hm⟩ := (moves_of_outside he hw).1 id c hc
    exact ⟨c', hc', hm.key.trans hck, fun _ => hm.answered⟩

/-- What an invocation with the key awaits is a send for it, and what it polls
was accepted by one. -/
structure Told (k : String) (s : Wrapper) : Prop where
  sending {n : Nat} {i : Invocation} {awaited : Awaited} : s.invocations[n]? = some i → i.key = k →
    i.phase = .sending awaited → ∃ id c, awaited = .call id ∧ s.world.calls[id]? = some c ∧ c.key = k
  txHash {n : Nat} {i : Invocation} {txHash : String} : s.invocations[n]? = some i → i.key = k →
    i.phase.txHash = some txHash → Accepted k s.world txHash

theorem Told.accepted (h : Told k s) {n : Nat} (hi : s.invocations[n]? = some i) (hik : i.key = k)
    {txHash : String} (htx : i.acceptedHash s.world = some txHash) : Accepted k s.world txHash := by
  rcases acceptedHash_cases htx with htx | ⟨awaited, result, hp, hr, htx⟩
  · exact h.txHash hi hik htx
  · obtain ⟨id, c, rfl, hc, hck⟩ := h.sending hi hik hp
    obtain ⟨c', hc', hfin⟩ := result_call_iff.mp hr
    obtain rfl : c = c' := Option.some.inj (hc.symm.trans hc')
    cases result with
    | ok r => exact ⟨id, c, r, hc, hck, .inr hfin, htx⟩
    | error e => cases htx

theorem Told.step (h : Told k s) (hsends : Sends k s) (hne : k ≠ "") (hs : s.Step e t) :
    Told k t := by
  have hsent : ∀ {id : Nat} {c : Call SendTransactionResponse}, s.world.calls[id]? = some c → c.key = k →
      ∃ c', t.world.calls[id]? = some c' ∧ c'.key = k := by
    intro id c hc hck
    obtain ⟨c', hc', hck', -⟩ := send_of_step hsends hne hs hc hck
    exact ⟨c', hc', hck'⟩
  have haccepted : ∀ {txHash : String}, Accepted k s.world txHash → Accepted k t.world txHash := by
    rintro txHash ⟨id, c, r, hc, hck, hans, htx⟩
    obtain ⟨c', hc', hck', hkept⟩ := send_of_step hsends hne hs hc hck
    exact ⟨id, c', r, hc', hck', hkept r hans, htx⟩
  -- an invocation that was there
  have hold : ∀ {n : Nat} {i : Invocation}, s.invocations[n]? = some i → i.key = k →
      (∀ awaited, i.phase = .sending awaited →
        ∃ id c, awaited = .call id ∧ t.world.calls[id]? = some c ∧ c.key = k) ∧
      ∀ txHash, i.phase.txHash = some txHash → Accepted k t.world txHash := by
    refine fun hi hik => ⟨fun awaited hp => ?_, fun txHash htx => haccepted (h.txHash hi hik htx)⟩
    obtain ⟨id, c, rfl, hc, hck⟩ := h.sending hi hik hp
    obtain ⟨c', hc', hck'⟩ := hsent hc hck
    exact ⟨id, c', rfl, hc', hck'⟩
  suffices hall : ∀ {n : Nat} {i : Invocation}, t.invocations[n]? = some i → i.key = k →
      (∀ awaited, i.phase = .sending awaited →
        ∃ id c, awaited = .call id ∧ t.world.calls[id]? = some c ∧ c.key = k) ∧
      ∀ txHash, i.phase.txHash = some txHash → Accepted k t.world txHash from
    ⟨fun hi hik hp => (hall hi hik).1 _ hp, fun hi hik htx => (hall hi hik).2 _ htx⟩
  intro m j hj hjk
  rcases step_cases hs with ⟨i, hp, rfl⟩ | ⟨n, i, p, ha⟩ | ⟨n, i, f, rfl, hi, hp, rfl⟩ | ⟨e', w, he, hw, rfl⟩
  · rcases (getElem?_concat_iff _ _ _ _).mp hj with hj | ⟨-, rfl⟩
    · exact hold hj hjk
    · rw [hp]
      exact ⟨by simp, by simp [Phase.txHash]⟩
  · rw [ha.set] at hj
    rcases (getElem?_set_iff ha.get _ m j).mp hj with ⟨rfl, rfl⟩ | ⟨-, hj⟩
    · refine ⟨fun awaited hp => ?_, fun txHash htx => ?_⟩
      · have hns := ha.notSending
        obtain rfl : p = .sending awaited := hp
        cases hns
      · exact haccepted (h.accepted ha.get hjk (ha.txHash.symm.trans htx))
    · exact hold hj hjk
  · obtain ⟨-, hcases⟩ := signed_cases hsends.guarded hne (n := n) (i := i) f
    rcases hcases with ⟨-, id, c, hc, hck, -, hset, -⟩ | ⟨hik, -, hset, c, hck, -, hcalls⟩ | ⟨hik, a, hset, -⟩ <;>
      rw [hset] at hj <;> rcases (getElem?_set_iff hi _ m j).mp hj with ⟨-, rfl⟩ | ⟨-, hj⟩
    · refine ⟨fun awaited hp => ?_, nofun⟩
      obtain ⟨c', hc', hck'⟩ := hsent hc hck
      injection hp with hp
      exact ⟨id, c', hp.symm, hc', hck'⟩
    · exact hold hj hjk
    · refine ⟨fun awaited hp => ?_, nofun⟩
      injection hp with hp
      exact ⟨_, c, hp.symm, by rw [hcalls]; exact (getElem?_concat_iff _ _ _ _).mpr (.inr ⟨rfl, rfl⟩), hck⟩
    · exact hold hj hjk
    · exact absurd hjk hik
    · exact hold hj hjk
  · exact hold hj hjk

theorem told_of_reachable (hne : k ≠ "") (h : ReachableWrapper ok s) : Sends k s ∧ Told k s := by
  refine Reachable.invariant (I := fun s => Sends k s ∧ Told k s) (fun s hs => ⟨sends_of_new hs, ?_⟩)
    (fun s t hinv ⟨_, _, hs⟩ => ⟨hinv.1.step hne hs, hinv.2.step hinv.1 hne hs⟩) h
  constructor <;> simp [hs.2.1]

/-- In any run, a step that does not meet the condition broadcasts a key after
a send for it that stands. -/
theorem unspent_of_submittedOnce (h : ReachableWrapper ok s)
    (hs : s.Step e t) (honce : ∀ k, k ≠ "" → SubmittedOnce (RunIn fun _ _ => True) k s) :
    Unspent s e := by
  cases hs with
  | @signed n i f hi hp =>
    intro j hj hne hnone m hm hmk txHash htx
    obtain rfl : i = j := Option.some.inj (hi.symm.trans hj)
    by_contra hnf
    obtain ⟨hsends, htold⟩ := told_of_reachable hne h
    obtain ⟨l, hl⟩ := List.getElem?_of_mem hm
    obtain ⟨id, c, r, hc, hck, hans, hr⟩ := htold.accepted hl hmk htx
    obtain ⟨hstatus, rfl⟩ : r.status ≠ .ERROR ∧ r.hash = txHash := by
      rw [acceptedBy] at hr
      split at hr
      · cases hr
      · exact ⟨by assumption, Option.some.inj hr⟩
    have hstep : s.Step (.signed n (.ok ()) f) (s.signed n i f) := .signed f hi hp
    obtain ⟨c', hc', hck', hkept⟩ := send_of_step hsends hne hstep hc hck
    have hstands : Stands i.key (s.signed n i f) id r :=
      ⟨⟨c', hc', hck', hkept r hans⟩, hstatus, by rwa [signed_failed]⟩
    have hlast := ((honce i.key hne).replays _ id r (.single (.of hstep trivial)) ⟨⟨c, hc, hck, hans⟩, hstatus, hnf⟩
      hstands).1
    obtain ⟨-, hcases⟩ := signed_cases hsends.guarded hne (n := n) (i := i) f
    rcases hcases with ⟨-, id', d, hd, hdk, hdo, -⟩ | ⟨-, -, -, d, hdk, -, hcalls⟩ | ⟨hik, -⟩
    · rw [hsends.guarded.lookup_of_open hd hdk hdo] at hnone
      cases hnone
    · have hnew : (s.signed n i f).world.calls[s.world.calls.length]? = some d := by
        rw [hcalls]
        exact (getElem?_concat_iff _ _ _ _).mpr (.inr ⟨rfl, rfl⟩)
      exact absurd (hlast _ d hnew hdk) (lt_irrefl _)
    · exact hik rfl
  | _ => trivial

/-! ## One broadcast for a key -/

/-- In the runs in which no invocation with a key is signed after an accepted
send for it that is neither in flight nor known to have failed, the key is
broadcast once. -/
theorem submitted_once (hne : k ≠ "") (h : ReachableWrapper Unspent s) : SubmittedOnce (RunIn Unspent) k s where
  inFlight := one_send_in_flight hne h
  replays _ _ _ hrun hr hr' :=
    have ht := replayed_of_run hne h hr hrun hr'.notFailed
    ⟨fun _ _ => ht.noOther, fun _ _ => ht.follows⟩

/-- A wrapper that has made no call yet. -/
def newWrapper : Wrapper where
  maxPolls := none
  world := { entries := [], defaultTtlMs := 5 * 60 * 1000, calls := [], now := 0 }
  invocations := []
  failed := []

/-- The transaction was accepted. -/
def pending : SendTransactionResponse := { status := .PENDING, hash := "h1", errorResult := "undefined" }

/-- A payment is invoked twice at once; the second invocation is signed when the
first one's send has been answered, and joins it. -/
theorem paid_once :
    ∃ s t, RunIn Unspent s t ∧ Stands "pay" t 0 pending ∧ t.world.calls.length = 1 ∧
      SubmittedOnce (RunIn Unspent) "pay" s := by
  have h₀ : ReachableWrapper Unspent newWrapper := Reachable.start ⟨⟨rfl, rfl⟩, rfl, rfl⟩
  have h₁ := h₀.next (.of (.invoke "deposit" (some "pay")) trivial)
  have h₂ := h₁.next (.of (.invoke "deposit" (some " pay ")) trivial)
  have h₃ := h₂.next (.of (.publicKey (n := 0) (.ok ()) rfl rfl) trivial)
  have h₄ := h₃.next (.of (.publicKey (n := 1) (.ok ()) rfl rfl) trivial)
  have h₅ := h₄.next (.of (.account (n := 0) (.resolved (some ())) (.ok ()) rfl rfl) trivial)
  have h₆ := h₅.next (.of (.account (n := 1) (.resolved (some ())) (.ok ()) rfl rfl) trivial)
  have h₇ := h₆.next (.of (.simulated (n := 0) (.resolved (some .success)) (.ok ()) rfl rfl) trivial)
  have h₈ := h₇.next (.of (.simulated (n := 1) (.resolved (some .success)) (.ok ()) rfl rfl) trivial)
  have h₉ := h₈.next (.of (.signed (n := 0) .promise rfl rfl) fun _ _ _ _ j hj _ txHash htx => by
    rcases List.mem_pair.mp hj with rfl | rfl <;> cases htx)
  have h₁₀ := h₉.next (.of (.outside (e := .settle 0 (.ok pending)) rfl (.settle _ rfl rfl)) trivial)
  have r₀ := emptyRun h₁₀
  have r₁ := r₀.tail (.of (.signed (n := 1) .promise rfl rfl) fun i hi _ hnone => by
    obtain rfl := Option.some.inj hi
    revert hnone
    decide)
  have r₂ := r₁.tail (.of (.outside (e := .cleanup 0) rfl (.cleanup rfl rfl)) trivial)
  have r₃ := r₂.tail (.of (.sent (n := 0) rfl rfl rfl) trivial)
  have r₄ := r₃.tail (.of (.sent (n := 1) rfl rfl rfl) trivial)
  exact ⟨_, _, r₄, ⟨⟨_, rfl, by decide, .inr rfl⟩, nofun, nofun⟩, rfl, submitted_once (by decide) h₁₀⟩

/-- A payment is accepted and goes through; invoked again with its key, it is
broadcast again. -/
theorem paid_twice :
    ∃ s, ReachableWrapper (fun _ _ => True) s ∧ ¬SubmittedOnce (RunIn fun _ _ => True) "pay" s := by
  have h₀ : ReachableWrapper (fun _ _ => True) newWrapper := Reachable.start ⟨⟨rfl, rfl⟩, rfl, rfl⟩
  have h₁ := h₀.next (.of (.invoke "deposit" (some "pay")) trivial)
  have h₂ := h₁.next (.of (.publicKey (n := 0) (.ok ()) rfl rfl) trivial)
  have h₃ := h₂.next (.of (.account (n := 0) (.resolved (some ())) (.ok ()) rfl rfl) trivial)
  have h₄ := h₃.next (.of (.simulated (n := 0) (.resolved (some .success)) (.ok ()) rfl rfl) trivial)
  have h₅ := h₄.next (.of (.signed (n := 0) .promise rfl rfl) trivial)
  have h₆ := h₅.next (.of (.outside (e := .settle 0 (.ok pending)) rfl (.settle _ rfl rfl)) trivial)
  have h₇ := h₆.next (.of (.outside (e := .cleanup 0) rfl (.cleanup rfl rfl)) trivial)
  have r₀ := emptyRun h₇
  have r₁ := r₀.tail (.of (.sent (n := 0) rfl rfl rfl) trivial)
  have r₂ := r₁.tail (.of (.polled (n := 0) (.resolved (some (.SUCCESS none))) rfl rfl) trivial)
  have r₃ := r₂.tail (.of (.invoke "deposit" (some "pay")) trivial)
  have r₄ := r₃.tail (.of (.publicKey (n := 1) (.ok ()) rfl rfl) trivial)
  have r₅ := r₄.tail (.of (.account (n := 1) (.resolved (some ())) (.ok ()) rfl rfl) trivial)
  have r₆ := r₅.tail (.of (.simulated (n := 1) (.resolved (some .success)) (.ok ()) rfl rfl) trivial)
  have r₇ := r₆.tail (.of (.signed (n := 1) .promise rfl rfl) trivial)
  refine ⟨_, h₇, fun h => ?_⟩
  have hlt := (h.replays _ 0 pending r₇ ⟨⟨_, rfl, by decide, .inr rfl⟩, nofun, nofun⟩
    ⟨⟨_, rfl, by decide, .inr rfl⟩, nofun, nofun⟩).1 1 _ rfl (by decide)
  exact absurd hlt (by decide)

end ZkPayroll.Adapters
