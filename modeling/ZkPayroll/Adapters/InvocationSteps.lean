import ZkPayroll.Adapters.BaseContractWrapper

/-!
# Invocations and their sends

What a step does to the invocations of a wrapper (`step_cases`), and what it
keeps: every send for a key is in the registry as long as it is open, and has
an invocation that awaits it or was told of its end (`Sends`).
-/

namespace ZkPayroll.Adapters

open Framework ZkPayroll.Core Core.Idempotency Core.RetryBudget

variable {k : String} {s t : Wrapper}

/-! ## What is read of a send and of an invocation -/

/-- The send was answered. -/
def Answered (c : Call SendTransactionResponse) (r : SendTransactionResponse) : Prop :=
  c.state = .settled (.ok r) ∨ c.state = .finished (.ok r)

/-- The hash that the invocation polls or has polled. -/
def Phase.txHash : Phase → Option String
  | .polling txHash _ _ => some txHash
  | .done txHash _ => txHash
  | _ => none

/-- The invocation has not come to its send. -/
def Phase.unsent : Phase → Bool
  | .gettingPublicKey | .loadingAccount | .simulating | .signing => true
  | _ => false

/-- The invocation awaits its send. -/
def Phase.isSending : Phase → Bool
  | .sending _ => true
  | _ => false

/-- The hash of the transaction that an answer accepts. -/
def acceptedBy : Except SdkError SendTransactionResponse → Option String
  | .ok r => if r.status = .ERROR then none else some r.hash
  | .error _ => none

/-- The hash of the transaction that the invocation knows to be accepted. -/
def Invocation.acceptedHash (w : World SendTransactionResponse) (i : Invocation) : Option String :=
  match i.phase with
  | .sending awaited => (awaited.result w).bind acceptedBy
  | phase => phase.txHash

section AcceptedHash

variable {w : World SendTransactionResponse} {i : Invocation}

theorem acceptedHash_of_sending {awaited : Awaited} (h : i.phase = .sending awaited) :
    i.acceptedHash w = (awaited.result w).bind acceptedBy := by
  rw [Invocation.acceptedHash, h]

theorem acceptedHash_of_txHash {txHash : String} (h : i.phase.txHash = some txHash) :
    i.acceptedHash w = some txHash := by
  rw [Invocation.acceptedHash]
  cases hp : i.phase <;> rw [hp] at h <;> first | exact h | cases h

theorem acceptedHash_of_unsent (h : i.phase.unsent = true) : i.acceptedHash w = none := by
  rw [Invocation.acceptedHash]
  cases hp : i.phase <;> rw [hp] at h <;> first | rfl | cases h

/-- An invocation knows of the transaction that it polls, or was answered. -/
theorem acceptedHash_cases {txHash : String} (h : i.acceptedHash w = some txHash) :
    i.phase.txHash = some txHash ∨
      ∃ awaited result, i.phase = .sending awaited ∧ awaited.result w = some result ∧
        acceptedBy result = some txHash := by
  cases hp : i.phase with
  | sending awaited =>
    rw [acceptedHash_of_sending hp] at h
    obtain ⟨result, hr, htx⟩ := Option.bind_eq_some_iff.mp h
    exact .inr ⟨awaited, result, rfl, hr, htx⟩
  | _ =>
    rw [Invocation.acceptedHash, hp] at h
    exact .inl h

end AcceptedHash

/-! ## Steps -/

variable {result : Except SdkError SendTransactionResponse}

/-- The answer to what an invocation awaits. -/
theorem result_call_iff {w : World SendTransactionResponse} {id : Nat} :
    (Awaited.call id).result w = some result ↔ ∃ c, w.calls[id]? = some c ∧ c.state = .finished result := by
  rcases hc : w.calls[id]? with _ | c
  · simp [Awaited.result, hc]
  · cases hs : c.state <;> simp [Awaited.result, hc, hs]

/-- An invocation goes on without a send. It knows of the hash it knew of, or was
answered. -/
structure Advanced (s t : Wrapper) (n : Nat) (i : Invocation) (p : Phase) : Prop where
  get : s.invocations[n]? = some i
  set : t.invocations = s.invocations.set n { i with phase := p }
  world : t.world = s.world
  failed : s.failed ⊆ t.failed
  txHash : p.txHash = i.acceptedHash s.world
  notSending : p.isSending = false
  answered : ∀ awaited, i.phase = .sending awaited → ∃ result, awaited.result s.world = some result

theorem pollAgain_eq (i : Invocation) (maxPolls now : Int) (txHash : String) (startTime : Int) (attempt : Nat) :
    ∃ p, i.pollAgain maxPolls now txHash startTime attempt = { i with phase := p } ∧ p.txHash = some txHash ∧
      p.isSending = false := by
  unfold Invocation.pollAgain
  split
  · exact ⟨_, rfl, rfl, rfl⟩
  · exact ⟨_, rfl, rfl, rfl⟩

/-- What a step does. -/
theorem step_cases {e : WrapperEvent} (h : s.Step e t) :
    (∃ i, i.phase = .gettingPublicKey ∧ t = { s with invocations := s.invocations ++ [i] }) ∨
    (∃ n i p, Advanced s t n i p) ∨
    (∃ n i f, e = .signed n (.ok ()) f ∧ s.invocations[n]? = some i ∧ i.phase = .signing ∧ t = s.signed n i f) ∨
    ∃ e' w, isOutside e' = true ∧ s.world.Step e' w ∧ t = { s with world := w } := by
  -- before its send, an invocation knows of no transaction
  have hearly : ∀ {n : Nat} {i : Invocation} {p : Phase}, s.invocations[n]? = some i → i.phase.unsent = true →
      p.txHash = none → p.isSending = false →
        Advanced s (s.setInvocation n { i with phase := p }) n i p := by
    intro n i p hi hu hp hns
    refine ⟨hi, rfl, rfl, fun _ h => h, ?_, hns, fun awaited ha => ?_⟩
    · rw [hp, acceptedHash_of_unsent hu]
    · rw [ha] at hu
      cases hu
  cases h with
  | invoke method idempotencyKey => exact .inl ⟨_, rfl, rfl⟩
  | @publicKey n i result hi hp =>
    refine .inr (.inl ?_)
    cases result with
    | ok _ => exact ⟨n, i, _, hearly hi (by rw [hp]; rfl) rfl rfl⟩
    | error e => exact ⟨n, i, _, hearly hi (by rw [hp]; rfl) rfl rfl⟩
  | @account n i account built hi hp =>
    refine .inr (.inl ?_)
    unfold Invocation.accountLoaded
    split <;> exact ⟨n, i, _, hearly hi (by rw [hp]; rfl) rfl rfl⟩
  | @simulated n i simResult assembled hi hp =>
    refine .inr (.inl ?_)
    unfold Invocation.simulated
    split <;> exact ⟨n, i, _, hearly hi (by rw [hp]; rfl) rfl rfl⟩
  | @signed n i f hi hp => exact .inr (.inr (.inl ⟨n, i, f, rfl, hi, hp, rfl⟩))
  | @unsigned n i e f hi hp => exact .inr (.inl ⟨n, i, _, hearly hi (by rw [hp]; rfl) rfl rfl⟩)
  | @sent n i awaited result hi hp hr =>
    refine .inr (.inl ?_)
    have hknown : i.acceptedHash s.world = acceptedBy result := by
      rw [acceptedHash_of_sending hp, hr, Option.bind_some]
    have hanswered : ∀ awaited, i.phase = .sending awaited → ∃ result, awaited.result s.world = some result := by
      intro a ha
      rw [hp] at ha
      injection ha with ha
      exact ⟨result, ha ▸ hr⟩
    unfold Invocation.sent
    cases result with
    | error e => exact ⟨n, i, _, hi, rfl, rfl, fun _ h => h, by rw [hknown]; rfl, rfl, hanswered⟩
    | ok r =>
      rw [acceptedBy] at hknown
      simp only
      split
      · rename_i hs
        exact ⟨n, i, _, hi, rfl, rfl, fun _ h => h, by rw [hknown, if_pos hs]; rfl, rfl, hanswered⟩
      · rename_i hs
        obtain ⟨p, hpoll, htx, hns⟩ := pollAgain_eq i s.polls s.world.now r.hash s.world.now 0
        rw [hpoll]
        exact ⟨n, i, p, hi, rfl, rfl, fun _ h => h, by rw [hknown, if_neg hs, htx], hns, hanswered⟩
  | @polled n i txHash startTime attempt statusResult hi hp =>
    refine .inr (.inl ?_)
    have hknown : i.acceptedHash s.world = some txHash := acceptedHash_of_txHash (by rw [hp]; rfl)
    have hanswered : ∀ awaited, i.phase = .sending awaited → ∃ result, awaited.result s.world = some result := by
      intro a ha
      rw [hp] at ha
      cases ha
    have hmono : s.failed ⊆ s.failed ++ newlyFailed txHash statusResult := List.subset_append_left _ _
    obtain ⟨p, hpoll, htx, hns⟩ := pollAgain_eq i s.polls s.world.now txHash startTime (attempt + 1)
    unfold Invocation.polled
    split
    case h_5 =>
      rw [hpoll]
      exact ⟨n, i, p, hi, rfl, rfl, hmono, by rw [hknown, htx], hns, hanswered⟩
    all_goals exact ⟨n, i, _, hi, rfl, rfl, hmono, by rw [hknown]; rfl, rfl, hanswered⟩
  | outside he hw => exact .inr (.inr (.inr ⟨_, _, he, hw, rfl⟩))

/-- What becomes of a send outside of the wrapper. -/
structure Moves (c c' : Call SendTransactionResponse) : Prop where
  key : c'.key = c.key
  isOpen : c'.isOpen = true → c.isOpen = true
  answered {r : SendTransactionResponse} : Answered c r → Answered c' r
  answeredOrOpen {r : SendTransactionResponse} : Answered c' r → Answered c r ∨ c.isOpen = true
  finished {result : Except SdkError SendTransactionResponse} : c.state = .finished result → c' = c

theorem Moves.refl (c : Call SendTransactionResponse) : Moves c c := ⟨rfl, id, id, .inl, fun _ => rfl⟩

variable {c : Call SendTransactionResponse}

theorem moves_settle (hc : c.state = .pending)
    (result : Except SdkError SendTransactionResponse) : Moves c { c with state := .settled result } where
  key := rfl
  isOpen _ := by simp [Call.isOpen, hc]
  answered h := by simp [Answered, hc] at h
  answeredOrOpen _ := .inr (by simp [Call.isOpen, hc])
  finished h := by simp [hc] at h

theorem moves_cleanup (hc : c.state = .settled result) : Moves c { c with state := .finished result } where
  key := rfl
  isOpen h := by simp [Call.isOpen] at h
  answered h := by simp_all [Answered]
  answeredOrOpen h := .inl (by simp_all [Answered])
  finished h := by simp [hc] at h

/-- No send begins or ends to exist outside of the wrapper. -/
theorem moves_of_outside {w w' : World SendTransactionResponse} {e : Event SendTransactionResponse}
    (he : isOutside e = true) (hs : w.Step e w') :
    (∀ (id : Nat) (c : Call SendTransactionResponse), w.calls[id]? = some c →
      ∃ c', w'.calls[id]? = some c' ∧ Moves c c') ∧
    ∀ (id : Nat) (c' : Call SendTransactionResponse), w'.calls[id]? = some c' →
      ∃ c, w.calls[id]? = some c ∧ Moves c c' := by
  have hset : ∀ {n : Nat} {c c' : Call SendTransactionResponse}, w.calls[n]? = some c → Moves c c' →
      (∀ (id : Nat) (d : Call SendTransactionResponse), w.calls[id]? = some d →
        ∃ d', (w.calls.set n c')[id]? = some d' ∧ Moves d d') ∧
      ∀ (id : Nat) (d' : Call SendTransactionResponse), (w.calls.set n c')[id]? = some d' →
        ∃ d, w.calls[id]? = some d ∧ Moves d d' := by
    intro n c c' hn hm
    have hget := getElem?_set_iff hn c'
    refine ⟨fun id d hd => ?_, fun id d' hd' => ?_⟩
    · by_cases hid : id = n
      · subst hid
        obtain rfl : c = d := Option.some.inj (hn.symm.trans hd)
        exact ⟨c', (hget _ _).mpr (.inl ⟨rfl, rfl⟩), hm⟩
      · exact ⟨d, (hget _ _).mpr (.inr ⟨hid, hd⟩), .refl d⟩
    · rcases (hget id d').mp hd' with ⟨rfl, rfl⟩ | ⟨-, hd'⟩
      · exact ⟨c, hn, hm⟩
      · exact ⟨d', hd', .refl d'⟩
  cases hs with
  | settle result hid hc => exact hset hid (moves_settle hc result)
  | cleanup hid hc => exact hset hid (moves_cleanup hc)
  | tick ms => exact ⟨fun _ c hc => ⟨c, hc, .refl c⟩, fun _ c hc => ⟨c, hc, .refl c⟩⟩
  | execute _ _ | returned _ _ | threw _ _ _ => cases he

/-! ## What holds in every run -/

/-- The invocation awaits the send, or has been told of its end. -/
def Invocation.Tracks (i : Invocation) (id : Nat) (c : Call SendTransactionResponse) : Prop :=
  i.phase = .sending (.call id) ∨
    ∃ result, c.state = .finished result ∧ ∀ txHash, acceptedBy result = some txHash → i.phase.txHash = some txHash

/-- The sends for the key are in the registry, and each has an invocation. -/
structure Sends (k : String) (s : Wrapper) : Prop where
  guarded : Guarded k s.world
  tracked {id : Nat} {c : Call SendTransactionResponse} : s.world.calls[id]? = some c → c.key = k →
    ∃ (n : Nat) (i : Invocation), s.invocations[n]? = some i ∧ i.key = k ∧ i.Tracks id c

/-- What an invocation knows when it goes on it knew, or was answered. -/
theorem Advanced.tracks {n : Nat} {i : Invocation} {p : Phase} (h : Advanced s t n i p) {id : Nat}
    (hc : s.world.calls[id]? = some c) (ht : i.Tracks id c) :
    ({ i with phase := p } : Invocation).Tracks id c := by
  right
  rcases ht with hp | ⟨result, hfin, hknown⟩
  · obtain ⟨result, hr⟩ := h.answered _ hp
    obtain ⟨c', hc', hfin⟩ := result_call_iff.mp hr
    obtain rfl : c = c' := Option.some.inj (hc.symm.trans hc')
    refine ⟨result, hfin, fun txHash htx => ?_⟩
    exact h.txHash.trans (by rw [acceptedHash_of_sending hp, hr, Option.bind_some, htx])
  · refine ⟨result, hfin, fun txHash htx => ?_⟩
    exact h.txHash.trans (acceptedHash_of_txHash (hknown txHash htx))

section Signed

variable (s : Wrapper) (n : Nat) (i : Invocation) (f : FnCall)

theorem signed_world : (s.signed n i f).world = (submitTransaction s.world i.idempotencyKey f).2 := by
  rw [Wrapper.signed]

theorem signed_invocations : (s.signed n i f).invocations =
    s.invocations.set n { i with phase := .sending (submitTransaction s.world i.idempotencyKey f).1 } := by
  rw [Wrapper.signed, Wrapper.setInvocation]

theorem signed_failed : (s.signed n i f).failed = s.failed := by
  rw [Wrapper.signed, Wrapper.setInvocation]

end Signed

/-- Nothing happens to the sends for the key when a transaction is sent, except
that one may be started. -/
theorem signed_cases (hg : Guarded k s.world) (hne : k ≠ "") {n : Nat} {i : Invocation} (f : FnCall) :
    Guarded k (s.signed n i f).world ∧
      ((i.key = k ∧ ∃ id c, s.world.calls[id]? = some c ∧ c.key = k ∧ c.isOpen = true ∧
          (s.signed n i f).invocations = s.invocations.set n { i with phase := .sending (.call id) } ∧
          (s.signed n i f).world.calls = s.world.calls) ∨
        (i.key = k ∧ s.world.entries.lookup k = none ∧
          (s.signed n i f).invocations =
            s.invocations.set n { i with phase := .sending (.call s.world.calls.length) } ∧
          ∃ c : Call SendTransactionResponse, c.key = k ∧ c.state = f.state ∧
            (s.signed n i f).world.calls = s.world.calls ++ [c]) ∨
        (i.key ≠ k ∧ ∃ awaited,
          (s.signed n i f).invocations = s.invocations.set n { i with phase := .sending awaited } ∧
          ∀ (id : Nat) (c : Call SendTransactionResponse), c.key = k →
            ((s.signed n i f).world.calls[id]? = some c ↔ s.world.calls[id]? = some c))) := by
  rw [signed_world, signed_invocations, submitTransaction]
  by_cases hik : i.key = k
  · have hik' : normalizeIdempotencyKey (i.idempotencyKey.getD "") = k := hik
    rw [if_neg (hik' ▸ hne)]
    refine ⟨hg.execute hik' hne f, ?_⟩
    rcases hg.submit_cases hik' hne f with ⟨id, c, hc, hck, ho, he⟩ | ⟨hnone, hid, hcalls⟩
    · rw [he]
      exact .inl ⟨hik, id, c, hc, hck, ho, rfl, rfl⟩
    · rw [hid]
      exact .inr (.inl ⟨hik, hnone, rfl, _, hik', rfl, hcalls⟩)
  · have hik' : normalizeIdempotencyKey (i.idempotencyKey.getD "") ≠ k := hik
    by_cases hblank : normalizeIdempotencyKey (i.idempotencyKey.getD "") = ""
    · rw [if_pos hblank]
      refine ⟨hg.callDirectly hne f, .inr (.inr ⟨hik, _, rfl, fun id c hck => ?_⟩)⟩
      refine (getElem?_concat_iff _ _ _ _).trans (or_iff_left fun hnew => hne ?_)
      rw [← hck, hnew.2]
    · rw [if_neg hblank]
      refine ⟨hg.executeOther hik' hblank f, .inr (.inr ⟨hik, _, rfl, fun id c hck => ?_⟩)⟩
      rcases executeAttempt_cases rfl hblank s.world f with ⟨e, -, he⟩ | ⟨-, -, -, -, hcalls⟩
      · rw [he]
      · rw [hcalls]
        refine (getElem?_concat_iff _ _ _ _).trans (or_iff_left fun hnew => hik' ?_)
        rw [← hck, hnew.2]
        rfl

theorem Sends.step (h : Sends k s) (hne : k ≠ "") {e : WrapperEvent} (hs : s.Step e t) : Sends k t := by
  rcases step_cases hs with ⟨i, -, rfl⟩ | ⟨n, i, p, ha⟩ | ⟨n, i, f, rfl, hi, hp, rfl⟩ | ⟨e', w, he, hw, rfl⟩
  · refine ⟨h.guarded, fun hc hck => ?_⟩
    obtain ⟨m, j, hj, hjk, htrack⟩ := h.tracked hc hck
    exact ⟨m, j, (getElem?_concat_iff _ _ _ _).mpr (.inl hj), hjk, htrack⟩
  · refine ⟨ha.world ▸ h.guarded, fun {id c} hc hck => ?_⟩
    rw [ha.world] at hc
    obtain ⟨m, j, hj, hjk, htrack⟩ := h.tracked hc hck
    have hget := getElem?_set_iff ha.get { i with phase := p } m
    by_cases hmn : m = n
    · subst hmn
      obtain rfl : i = j := Option.some.inj (ha.get.symm.trans hj)
      exact ⟨m, { i with phase := p }, by rw [ha.set]; exact (hget _).mpr (.inl ⟨rfl, rfl⟩), hjk, ha.tracks hc htrack⟩
    · exact ⟨m, j, by rw [ha.set]; exact (hget _).mpr (.inr ⟨hmn, hj⟩), hjk, htrack⟩
  · obtain ⟨hguarded, hcases⟩ := signed_cases h.guarded hne (n := n) (i := i) f
    refine ⟨hguarded, fun {id c} hc hck => ?_⟩
    -- the invocation tracks no send but one that has come to nothing
    have hold : ∀ {awaited : Awaited}, (s.signed n i f).invocations =
        s.invocations.set n { i with phase := .sending awaited } → s.world.calls[id]? = some c →
          ∃ (m : Nat) (j : Invocation), (s.signed n i f).invocations[m]? = some j ∧ j.key = k ∧ j.Tracks id c := by
      intro awaited hset hc
      obtain ⟨m, j, hj, hjk, htrack⟩ := h.tracked hc hck
      have hget := getElem?_set_iff hi { i with phase := .sending awaited } m
      by_cases hmn : m = n
      · subst hmn
        obtain rfl : i = j := Option.some.inj (hi.symm.trans hj)
        refine ⟨m, { i with phase := .sending awaited }, by rw [hset]; exact (hget _).mpr (.inl ⟨rfl, rfl⟩), hjk,
              .inr ?_⟩
        rcases htrack with hsend | ⟨result, hfin, hknown⟩
        · rw [hp] at hsend
          cases hsend
        · refine ⟨result, hfin, fun txHash htx => ?_⟩
          have hnone := hknown txHash htx
          rw [hp] at hnone
          cases hnone
      · exact ⟨m, j, by rw [hset]; exact (hget _).mpr (.inr ⟨hmn, hj⟩), hjk, htrack⟩
    rcases hcases with ⟨-, id', c', -, -, -, hset, hcalls⟩ | ⟨hik, -, hset, c', -, -, hcalls⟩ | ⟨-, a, hset, hcalls⟩
    · exact hold hset (hcalls ▸ hc)
    · rw [hcalls] at hc
      rcases (getElem?_concat_iff _ _ _ _).mp hc with hc | ⟨rfl, rfl⟩
      · exact hold hset hc
      · have hget := getElem?_set_iff hi { i with phase := .sending (.call s.world.calls.length) } n
        exact ⟨n, { i with phase := .sending (.call s.world.calls.length) },
              by rw [hset]; exact (hget _).mpr (.inl ⟨rfl, rfl⟩), hik, .inl rfl⟩
    · exact hold hset ((hcalls id c hck).mp hc)
  · refine ⟨h.guarded.step (by cases e' <;> first | exact id | cases he) hw, fun {id c'} hc' hck => ?_⟩
    obtain ⟨c, hc, hm⟩ := (moves_of_outside he hw).2 id c' hc'
    obtain ⟨n, i, hi, hik, htrack⟩ := h.tracked hc (hm.key ▸ hck)
    refine ⟨n, i, hi, hik, htrack.imp_right fun ⟨result, hfin, hknown⟩ => ⟨result, ?_, hknown⟩⟩
    rw [hm.finished hfin]
    exact hfin

end ZkPayroll.Adapters
