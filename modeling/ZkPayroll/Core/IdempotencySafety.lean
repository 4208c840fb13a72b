import ZkPayroll.Core.Idempotency
import ZkPayroll.Framework.Transition

/-!
# What the idempotency registry guarantees

The entry of a call is pruned at a deadline that was fixed when the call
started, and deleted by its key when the call ends. As long as no function is
started for a key while an earlier call for it is overdue and still open
(`InTime`), an open call keeps its entry, and so does a successful one until its
deadline (`Inv`): the registry then never starts a function while another for
the key is pending, or a successful result for it is kept
(`no_duplicate_start`).

The time to live of every call is 0: an entry has no deadline, and is deleted
when its call ends. The registry then holds entries of open calls only
(`InFlight`), and the first part of `execute` joins such a call or starts one
(`InFlight.execute_cases`).
-/

namespace ZkPayroll.Core.Idempotency

open Framework

section

variable {T : Type} {k : String}

/-- The link between the entry of a key and the calls that were started for
it. -/
structure Inv (k : String) (w : World T) : Prop where
  keys : (w.entries.map Prod.fst).Nodup
  deadline {i : Nat} {c : Call T} {t : Int} : w.calls[i]? = some c → c.key = k → c.expiresAt = some t →
    0 < c.ttlMs
  starting {i : Nat} {c : Call T} : w.calls[i]? = some c → c.key = k → c.isStarting = true →
    w.entries.lookup k = none
  held {i : Nat} {c : Call T} : w.calls[i]? = some c → c.key = k → c.isOpen = true → c.isStarting = false →
    w.entries.lookup k = some ⟨i, c.expiresAt⟩ ∨ c.overdue w.now = true ∧ w.entries.lookup k = none
  unique {i j : Nat} {c d : Call T} : w.calls[i]? = some c → w.calls[j]? = some d → c.key = k → d.key = k →
    c.isOpen = true → d.isOpen = true → i = j
  kept {i : Nat} {c : Call T} {t : Int} : w.calls[i]? = some c → c.key = k → c.succeeded = true →
    c.expiresAt = some t → w.now < t → w.entries.lookup k = some ⟨i, some t⟩

/-! ## One step -/

variable {w w' : World T}

/-- A step that leaves the entry of the key and its calls as they are. -/
theorem Inv.frame (h : Inv k w) (hkeys : (w'.entries.map Prod.fst).Nodup)
    (hnow : w'.now = w.now) (hentry : w'.entries.lookup k = w.entries.lookup k)
    (hcalls : ∀ (i : Nat) (c : Call T), w'.calls[i]? = some c → c.key = k → w.calls[i]? = some c) : Inv k w' where
  keys := hkeys
  deadline hi hk := h.deadline (hcalls _ _ hi hk) hk
  starting hi hk := hentry ▸ h.starting (hcalls _ _ hi hk) hk
  held hi hk := hentry ▸ hnow ▸ h.held (hcalls _ _ hi hk) hk
  unique hi hj hk hk' := h.unique (hcalls _ _ hi hk) (hcalls _ _ hj hk') hk hk'
  kept hi hk := hentry ▸ hnow ▸ h.kept (hcalls _ _ hi hk) hk

variable {w : World T}

theorem lookup_pruneExpired (h : Inv k w) (j : String) :
    (pruneExpired w.now w.entries).lookup j = (w.entries.lookup j).filter (IdempotencyEntry.live w.now) :=
  lookup_filter j h.keys

/-- Pruning takes away only entries that are past their deadline. -/
theorem Inv.prune (h : Inv k w) :
    Inv k { w with entries := pruneExpired w.now w.entries } where
  keys := h.keys.sublist (List.filter_sublist.map _)
  deadline := h.deadline
  starting hi hk hs := by
    change (pruneExpired w.now w.entries).lookup _ = none
    rw [lookup_pruneExpired h, h.starting hi hk hs]
    rfl
  held {i c} hi hk ho hs := by
    change (pruneExpired w.now w.entries).lookup _ = _ ∨ _ ∧ (pruneExpired w.now w.entries).lookup _ = _
    rw [lookup_pruneExpired h]
    rcases h.held hi hk ho hs with he | ⟨hd, he⟩
    · rw [he, Option.filter_some]
      by_cases hlive : IdempotencyEntry.live w.now ⟨i, c.expiresAt⟩ = true
      · exact .inl (if_pos hlive)
      · refine .inr ⟨?_, if_neg hlive⟩
        simp only [IdempotencyEntry.live] at hlive
        simp only [Call.overdue]
        split at hlive <;> simp_all
    · exact .inr ⟨hd, by rw [he]; rfl⟩
  unique := h.unique
  kept {i c t} hi hk hs ht hn := by
    change (pruneExpired w.now w.entries).lookup _ = _
    rw [lookup_pruneExpired h, h.kept hi hk hs ht hn, Option.filter_some_pos]
    simpa [IdempotencyEntry.live] using hn

/-- A new call for the key, when it has no entry and no open call. -/
theorem Inv.start (h : Inv k w) {call : Call T} (hstate : call.state = .starting)
    (hexp : call.expiresAt = none) (hnone : w.entries.lookup k = none)
    (hopen : ∀ (i : Nat) (c : Call T), w.calls[i]? = some c → c.key = k → c.isOpen = false) :
    Inv k { w with calls := w.calls ++ [call] } := by
  have hget := getElem?_concat_iff w.calls call
  constructor
  case keys => exact h.keys
  case deadline =>
    intro i c t hi hk ht
    rcases (hget i c).mp hi with hi | ⟨-, rfl⟩
    · exact h.deadline hi hk ht
    · rw [hexp] at ht
      cases ht
  case starting => exact fun _ _ _ => hnone
  case held =>
    intro i c hi hk ho hs
    rcases (hget i c).mp hi with hi | ⟨-, rfl⟩
    · exact h.held hi hk ho hs
    · simp [Call.isStarting, hstate] at hs
  case unique =>
    intro i j c d hi hj hk hk' hc hd
    rcases (hget i c).mp hi with hi₁ | ⟨hi₁, rfl⟩ <;> rcases (hget j d).mp hj with hj₁ | ⟨hj₁, rfl⟩
    · exact h.unique hi₁ hj₁ hk hk' hc hd
    · rw [hopen _ _ hi₁ hk] at hc
      cases hc
    · rw [hopen _ _ hj₁ hk'] at hd
      cases hd
    · rw [hi₁, hj₁]
  case kept =>
    intro i c t hi hk hs ht hn
    rcases (hget i c).mp hi with hi | ⟨-, rfl⟩
    · exact h.kept hi hk hs ht hn
    · rw [hexp] at ht
      cases ht

variable {c : Call T} {id : Nat}

/-- The function of a call returned its promise. -/
theorem Inv.returned (h : Inv k w) (hid : w.calls[id]? = some c)
    (hc : c.state = .starting) : Inv k (w.returned id c) := by
  have hget := getElem?_set_iff hid
    { c with expiresAt := if c.ttlMs > 0 then some (w.now + c.ttlMs) else none, state := .pending }
  by_cases hck : c.key = k
  · have hopen : c.isOpen = true := by simp [Call.isOpen, hc]
    have hnone : w.entries.lookup k = none := h.starting hid hck (by simp [Call.isStarting, hc])
    have hset : ∀ e, (setKey c.key e w.entries).lookup k = some e := by simp [hck]
    -- no other call of the key is open, nor is a result kept for it
    have hother : ∀ {i : Nat} {d : Call T}, i ≠ id → w.calls[i]? = some d → d.key = k → d.isOpen = false :=
      fun hi hd hk => by
        by_contra ho
        exact hi (h.unique hd hid hk hck (by simpa using ho) hopen)
    constructor
    case keys => exact nodup_setKey h.keys
    case deadline =>
      intro i d t hi hk ht
      rcases (hget i d).mp hi with ⟨rfl, rfl⟩ | ⟨-, hi⟩
      · simp only at ht ⊢
        split at ht
        · assumption
        · cases ht
      · exact h.deadline hi hk ht
    case starting =>
      intro i d hi hk hs
      rcases (hget i d).mp hi with ⟨rfl, rfl⟩ | ⟨hne, hi⟩
      · simp [Call.isStarting] at hs
      · have := hother hne hi hk
        rw [Call.isOpen_of_isStarting hs] at this
        cases this
    case held =>
      intro i d hi hk ho hs
      rcases (hget i d).mp hi with ⟨rfl, rfl⟩ | ⟨hne, hi⟩
      · exact .inl (hset _)
      · rw [hother hne hi hk] at ho
        cases ho
    case unique =>
      intro i j d e hi hj hk hk' ho ho'
      rcases (hget i d).mp hi with ⟨hi₁, rfl⟩ | ⟨hne, hi₁⟩ <;>
        rcases (hget j e).mp hj with ⟨hj₁, rfl⟩ | ⟨hne', hj₁⟩
      · rw [hi₁, hj₁]
      · rw [hother hne' hj₁ hk'] at ho'
        cases ho'
      · rw [hother hne hi₁ hk] at ho
        cases ho
      · exact h.unique hi₁ hj₁ hk hk' ho ho'
    case kept =>
      intro i d t hi hk hs ht hn
      rcases (hget i d).mp hi with ⟨rfl, rfl⟩ | ⟨hne, hi⟩
      · simp [Call.succeeded] at hs
      · have hkept := h.kept hi hk hs ht hn
        rw [hnone] at hkept
        cases hkept
  · refine h.frame (nodup_setKey h.keys) rfl ?_ fun i d hi hk => ?_
    · change (setKey _ _ w.entries).lookup k = _
      rw [lookup_setKey, if_neg (Ne.symm hck)]
    · rcases (hget i d).mp hi with ⟨-, rfl⟩ | ⟨-, hi⟩
      · exact absurd hk hck
      · exact hi

/-- A call moves on, and is open or successful no more than it was, or by its
deadline. -/
theorem Inv.setState (h : Inv k w) (hid : w.calls[id]? = some c)
    {state : CallState T} (hs : ({ c with state := state } : Call T).isStarting = false)
    (hopen : ({ c with state := state } : Call T).isOpen = true → c.isOpen = true ∧ c.isStarting = false)
    (hsucc : ({ c with state := state } : Call T).succeeded = true → c.key = k →
      ∀ t, c.expiresAt = some t → w.now < t → w.entries.lookup k = some ⟨id, some t⟩) :
    Inv k (w.setState id c state) := by
  have hget := getElem?_set_iff hid { c with state := state }
  constructor
  case keys => exact h.keys
  case deadline =>
    intro i d t hi hk ht
    rcases (hget i d).mp hi with ⟨rfl, rfl⟩ | ⟨-, hi⟩
    · exact h.deadline (c := c) hid hk ht
    · exact h.deadline hi hk ht
  case starting =>
    intro i d hi hk hd
    rcases (hget i d).mp hi with ⟨rfl, rfl⟩ | ⟨-, hi⟩
    · rw [hs] at hd
      cases hd
    · exact h.starting hi hk hd
  case held =>
    intro i d hi hk ho hd
    rcases (hget i d).mp hi with ⟨rfl, rfl⟩ | ⟨-, hi⟩
    · obtain ⟨ho', hs'⟩ := hopen ho
      exact h.held (c := c) hid hk ho' hs'
    · exact h.held hi hk ho hd
  case unique =>
    intro i j d e hi hj hk hk' ho ho'
    rcases (hget i d).mp hi with ⟨hi₁, rfl⟩ | ⟨-, hi₁⟩ <;> rcases (hget j e).mp hj with ⟨hj₁, rfl⟩ | ⟨-, hj₁⟩
    · rw [hi₁, hj₁]
    · rw [hi₁]
      exact h.unique (c := c) hid hj₁ hk hk' (hopen ho).1 ho'
    · rw [hj₁]
      exact h.unique (d := c) hi₁ hid hk hk' ho (hopen ho').1
    · exact h.unique hi₁ hj₁ hk hk' ho ho'
  case kept =>
    intro i d t hi hk hd ht hn
    rcases (hget i d).mp hi with ⟨rfl, rfl⟩ | ⟨-, hi⟩
    · exact hsucc hd hk t ht hn
    · exact h.kept hi hk hd ht hn

/-- An entry is deleted, of another key or one that no call needs. -/
theorem Inv.erase (h : Inv k w) (key : String)
    (hopen : key = k → ∀ (i : Nat) (c : Call T), w.calls[i]? = some c → c.key = k → c.isOpen = false)
    (hkept : key = k → ∀ (i : Nat) (c : Call T) (t : Int), w.calls[i]? = some c → c.key = k →
      c.succeeded = true → c.expiresAt = some t → t ≤ w.now) :
    Inv k { w with entries := eraseKey key w.entries } := by
  by_cases hkey : key = k
  · exact
      { keys := nodup_eraseKey h.keys
        deadline := h.deadline
        starting := fun hi hk hs => by
          have := hopen hkey _ _ hi hk
          rw [Call.isOpen_of_isStarting hs] at this
          cases this
        held := fun hi hk ho _ => by
          rw [hopen hkey _ _ hi hk] at ho
          cases ho
        unique := h.unique
        kept := fun hi hk hs ht hn => absurd hn (not_lt.mpr (hkept hkey _ _ _ hi hk hs ht)) }
  · refine h.frame (nodup_eraseKey h.keys) rfl ?_ fun _ _ hi _ => hi
    change (eraseKey _ w.entries).lookup k = _
    rw [lookup_eraseKey, if_neg (Ne.symm hkey)]

/-- The last part of `execute` deletes no entry but its own. -/
theorem Inv.cleanup (h : Inv k w) (hid : w.calls[id]? = some c)
    {result : Except SdkError T} (hc : c.state = .settled result) : Inv k (w.cleanup id c result) := by
  have hsame : ({ c with state := .finished result } : Call T).succeeded = c.succeeded := by
    cases result <;> simp [Call.succeeded, hc]
  have hfin : Inv k (w.setState id c (.finished result)) :=
    h.setState hid rfl (fun ho => by simp [Call.isOpen] at ho)
      fun hs hk t ht hn => h.kept hid hk (hsame ▸ hs) ht hn
  by_cases hdel : c.deletes result = true
  · have hopen : c.isOpen = true := by simp [Call.isOpen, hc, hdel]
    have hstart : c.isStarting = false := by simp [Call.isStarting, hc]
    have hget := getElem?_set_iff hid { c with state := .finished result }
    rw [World.cleanup, if_pos hdel]
    refine hfin.erase c.key (fun hck i d hi hk => ?_) fun hck i d t hi hk hs ht => ?_
    · rcases (hget i d).mp hi with ⟨rfl, rfl⟩ | ⟨hne, hi⟩
      · rfl
      · by_contra ho
        exact hne (h.unique hi hid hk hck (by simpa using ho) hopen)
    · rcases (hget i d).mp hi with ⟨rfl, rfl⟩ | ⟨hne, hi⟩
      · -- a call that succeeded deletes its entry only if it was never to be kept
        have hpos := h.deadline (c := c) hid hk ht
        cases result with
        | error e => simp [Call.succeeded] at hs
        | ok v => simp only [Call.deletes, Bool.false_or, beq_iff_eq] at hdel; omega
      · by_contra hn
        have hkept := h.kept hi hk hs ht (lt_of_not_ge hn)
        rcases h.held hid hck hopen hstart with he | ⟨-, he⟩ <;> rw [he] at hkept
        · exact hne (by injection hkept with hkept; injection hkept with hid'; exact hid'.symm)
        · cases hkept
  · rw [World.cleanup, if_neg hdel]
    exact hfin

theorem Inv.tick (h : Inv k w) (ms : Nat) : Inv k { w with now := w.now + ms } where
  keys := h.keys
  deadline := h.deadline
  starting := h.starting
  held hi hk ho hs := by
    rcases h.held hi hk ho hs with he | ⟨hd, he⟩
    · exact .inl he
    · refine .inr ⟨?_, he⟩
      unfold Call.overdue at hd ⊢
      split at hd
      · cases hd
      · simp only [decide_eq_true_eq] at hd ⊢
        omega
  unique := h.unique
  kept {_ _ t} hi hk hs ht hn := by
    change w.now + ms < t at hn
    exact h.kept hi hk hs ht (by omega)

/-! ## Runs -/

/-- When a function may be started for the key: no earlier one is still being
started, and none is both overdue and open. -/
def InTime (k : String) (w : World T) : Event T → Prop
  | .execute key _ => normalizeIdempotencyKey key = k → ∀ (i : Nat) (c : Call T), w.calls[i]? = some c →
      c.key = k → c.isStarting = false ∧ (c.overdue w.now = true → c.isOpen = false)
  | _ => True

variable {options : IdempotencyExecuteOptions}

theorem Inv.execute (h : Inv k w) {key : String}
    (ht : InTime k w (.execute key options)) : Inv k (w.execute key options).2 := by
  unfold World.execute
  simp only
  split
  · exact h
  · have hp := h.prune
    split
    · exact hp
    · rename_i hnone
      by_cases hkey : normalizeIdempotencyKey key = k
      · rw [hkey] at hnone
        refine hp.start rfl rfl hnone fun i c hi hk => ?_
        obtain ⟨hs, hover⟩ := ht hkey i c hi hk
        by_contra ho
        have ho : c.isOpen = true := by simpa using ho
        -- an open call has its entry, or has lost it by being overdue
        rcases hp.held hi hk ho hs with he | ⟨hd, -⟩
        · rw [hnone] at he
          cases he
        · rw [hover hd] at ho
          cases ho
      · refine hp.frame hp.keys rfl rfl fun i c hi hk => ?_
        rcases (getElem?_concat_iff w.calls _ i c).mp hi with hi | ⟨-, rfl⟩
        · exact hi
        · exact absurd hk hkey

theorem Inv.step {e : Event T} (h : Inv k w) (ht : InTime k w e) (hs : w.Step e w') : Inv k w' := by
  cases hs with
  | execute key options => exact h.execute ht
  | returned hid hc => exact h.returned hid hc
  | threw e hid hc =>
    exact h.setState hid rfl (fun ho => by simp [Call.isOpen] at ho) fun hs => by simp [Call.succeeded] at hs
  | settle result hid hc =>
    refine h.setState hid rfl (fun _ => by simp [Call.isOpen, Call.isStarting, hc]) fun _ hk t hexp hn => ?_
    rcases h.held hid hk (by simp [Call.isOpen, hc]) (by simp [Call.isStarting, hc]) with he | ⟨hd, -⟩
    · rw [he, hexp]
    · simp only [Call.overdue, hexp, decide_eq_true_eq] at hd
      omega
  | cleanup hid hc => exact h.cleanup hid hc
  | tick ms => exact h.tick ms

/-- A new registry. -/
def Initial (w : World T) : Prop := w.entries = [] ∧ w.calls = []

/-- The worlds that runs reach whose steps all meet the condition `ok`. -/
abbrev ReachableWorld (ok : World T → Event T → Prop) (w : World T) : Prop :=
  Reachable Initial (fun w w' => ∃ e, ok w e ∧ w.Step e w') w

theorem ReachableWorld.next {ok : World T → Event T → Prop} {e : Event T}
    (h : ReachableWorld ok w) (ht : ok w e) (hs : w.Step e w') : ReachableWorld ok w' :=
  Reachable.next h ⟨e, ht, hs⟩

theorem inv_of_reachable (h : ReachableWorld (fun w e => ∀ k, InTime k w e) w) (k : String) :
    Inv k w := by
  refine Reachable.invariant (I := Inv k) (fun w hw => ?_) (fun w w' hw hs => ?_) h
  · constructor <;> simp [hw.1, hw.2]
  · obtain ⟨e, ht, hs⟩ := hs
    exact hw.step (ht k) hs

/-- Where the registry starts a function for the key, no successful result for
it is within its time. -/
theorem Inv.not_kept_of_started (h : Inv k w) {key : String}
    (hstart : (w.execute key options).1 = .started id) (hkey : normalizeIdempotencyKey key = k)
    {i : Nat} {t : Int} (hi : w.calls[i]? = some c) (hk : c.key = k) (hs : c.succeeded = true)
    (ht : c.expiresAt = some t) : t ≤ w.now := by
  by_contra hn
  have hkept := h.prune.kept hi hk hs ht (lt_of_not_ge hn)
  change (pruneExpired w.now w.entries).lookup _ = _ at hkept
  unfold World.execute at hstart
  simp only at hstart
  split at hstart
  · cases hstart
  · rw [hkey, hkept] at hstart
    cases hstart

/-- At most one function for a key is pending, and none is started while a
successful result is within its time. -/
theorem no_duplicate_start {w : World T} (h : ReachableWorld (fun w e => ∀ k, InTime k w e) w) :
    (∀ (i j : Nat) (c d : Call T), w.calls[i]? = some c → w.calls[j]? = some d → c.key = d.key →
      c.isPending = true → d.isPending = true → i = j) ∧
    (∀ (key : String) (options : IdempotencyExecuteOptions) (id : Nat),
      (w.execute key options).1 = .started id → ∀ (i : Nat) (c : Call T) (t : Int), w.calls[i]? = some c →
        c.key = normalizeIdempotencyKey key → c.succeeded = true → c.expiresAt = some t → t ≤ w.now) := by
  constructor
  · intro i j c d hi hj hk hc hd
    exact (inv_of_reachable h d.key).unique hi hj hk rfl (Call.isOpen_of_isPending hc)
      (Call.isOpen_of_isPending hd)
  · intro key options id hstart i c t hi hk hs ht
    exact (inv_of_reachable h _).not_kept_of_started hstart rfl hi hk hs ht

/-- A new registry, with the time to live of its default. -/
def newRegistry : World Unit where
  entries := []
  defaultTtlMs := 5 * 60 * 1000
  calls := []
  now := 0

/-- A payment goes through; its key is used again after five minutes. -/
theorem paid_again_in_time :
    ∃ w : World Unit, w.calls.length = 2 ∧
      ∀ (i j : Nat) (c d : Call Unit), w.calls[i]? = some c → w.calls[j]? = some d → c.key = d.key →
        c.isPending = true → d.isPending = true → i = j := by
  have h₀ : ReachableWorld (fun w e => ∀ k, InTime k w e) newRegistry := Reachable.start ⟨rfl, rfl⟩
  have h₁ := h₀.next (e := .execute "pay" {}) (fun k _ i c hi => by cases hi) (.execute "pay" {})
  have h₂ := h₁.next (e := .returned 0) (fun _ => trivial) (.returned rfl rfl)
  have h₃ := h₂.next (e := .settle 0 (.ok ())) (fun _ => trivial) (.settle _ rfl rfl)
  have h₄ := h₃.next (e := .cleanup 0) (fun _ => trivial) (.cleanup rfl rfl)
  have h₅ := h₄.next (e := .tick 300000) (fun _ => trivial) (.tick _)
  have h₆ := h₅.next (e := .execute "pay" {}) (fun k _ i c hi _ => by
    match i, hi with
    | 0, hi =>
      obtain rfl := Option.some.inj hi
      decide) (.execute "pay" {})
  exact ⟨_, rfl, (no_duplicate_start h₆).1⟩

/-- A payment is pending for five minutes: its key, used again, starts a second
payment. -/
theorem slow_payment_started_twice :
    ∃ w : World Unit, ReachableWorld (fun _ _ => True) w ∧
      ¬ ∀ (i j : Nat) (c d : Call Unit), w.calls[i]? = some c → w.calls[j]? = some d → c.key = d.key →
        c.isPending = true → d.isPending = true → i = j := by
  have h₀ : ReachableWorld (fun _ _ => True) newRegistry := Reachable.start ⟨rfl, rfl⟩
  have h₁ := h₀.next (e := .execute "pay" {}) trivial (.execute "pay" {})
  have h₂ := h₁.next (e := .returned 0) trivial (.returned rfl rfl)
  have h₃ := h₂.next (e := .tick 300000) trivial (.tick _)
  have h₄ := h₃.next (e := .execute "pay" {}) trivial (.execute "pay" {})
  refine ⟨_, h₄, fun h => ?_⟩
  have hij : 0 = 1 := h 0 1 _ _ rfl rfl (by decide) rfl rfl
  cases hij

end

section

variable {T : Type} {w : World T}

/-- Every entry is that of an open call for its key. -/
structure InFlight (w : World T) : Prop where
  default : w.defaultTtlMs = 0
  ttl {c : Call T} : c ∈ w.calls → c.ttlMs = 0
  keys : (w.entries.map Prod.fst).Nodup
  entries {k : String} {e : IdempotencyEntry} : (k, e) ∈ w.entries → e.expiresAt = none ∧
    ∃ c, w.calls[e.call]? = some c ∧ c.key = k ∧ c.isOpen = true

/-- A call as `execute` makes it where the time to live is 0. -/
def newCall (key : String) : Call T where
  key := key
  ttlMs := 0
  cacheErrors := false

theorem InFlight.pruneExpired_eq (h : InFlight w) : pruneExpired w.now w.entries = w.entries := by
  refine List.filter_eq_self.mpr fun e he => ?_
  rw [IdempotencyEntry.live, (h.entries he).1]

theorem InFlight.execute_cases (h : InFlight w) {key : String} (hkey : normalizeIdempotencyKey key ≠ "") :
    (∃ (e : IdempotencyEntry) (c : Call T), w.entries.lookup (normalizeIdempotencyKey key) = some e ∧
      w.execute key {} = (.existing e.call, w) ∧ w.calls[e.call]? = some c ∧
      c.key = normalizeIdempotencyKey key) ∨
    w.entries.lookup (normalizeIdempotencyKey key) = none ∧
      w.execute key {} = (.started w.calls.length,
        { w with calls := w.calls ++ [newCall (normalizeIdempotencyKey key)] }) := by
  unfold World.execute
  simp only [if_neg hkey, h.pruneExpired_eq]
  cases he : w.entries.lookup (normalizeIdempotencyKey key) with
  | some e =>
    obtain ⟨-, c, hc, hck, -⟩ := h.entries (lookup_mem he)
    exact .inl ⟨e, c, rfl, rfl, hc, hck⟩
  | none =>
    refine .inr ⟨rfl, ?_⟩
    simp [newCall, h.default]

/-! ## Steps -/

/-- The function of a call that was just started returned its promise. -/
theorem InFlight.started (h : InFlight w) (k : String) :
    InFlight (World.returned { w with calls := w.calls ++ [newCall k] } w.calls.length (newCall k)) where
  default := h.default
  ttl hc := by
    rcases List.mem_or_eq_of_mem_set hc with hc | rfl
    · rcases List.mem_append.mp hc with hc | hc
      · exact h.ttl hc
      · rw [List.mem_singleton.mp hc]
        rfl
    · rfl
  keys := nodup_setKey h.keys
  entries {j e} he := by
    have hlast : (w.calls ++ [newCall k])[w.calls.length]? = some (newCall k) := by simp
    have hset := getElem?_set_iff hlast { newCall (T := T) k with state := .pending }
    rcases (mem_setKey h.keys).mp he with he | ⟨he, -⟩
    · obtain ⟨rfl, rfl⟩ := Prod.mk.inj he
      exact ⟨rfl, _, (hset _ _).mpr (.inl ⟨rfl, rfl⟩), rfl, rfl⟩
    · obtain ⟨hexp, c, hc, hck, ho⟩ := h.entries he
      have hne : e.call ≠ w.calls.length := (List.getElem?_eq_some_iff.mp hc).1.ne
      exact ⟨hexp, c, (hset _ _).mpr (.inr ⟨hne, (getElem?_concat_iff _ _ _ _).mpr (.inl hc)⟩), hck, ho⟩

/-- A call moves on, and remains open unless it has no entry any more. -/
theorem InFlight.setState (h : InFlight w) {id : Nat} {c : Call T} (hid : w.calls[id]? = some c)
    {state : CallState T} (ho : ({ c with state := state } : Call T).isOpen = true ∨ ∀ e ∈ w.entries, e.2.call ≠ id) :
    InFlight (w.setState id c state) where
  default := h.default
  ttl hc := by
    rcases List.mem_or_eq_of_mem_set hc with hc | rfl
    · exact h.ttl hc
    · exact h.ttl (c := c) (List.mem_of_getElem? hid)
  keys := h.keys
  entries {k e} he := by
    obtain ⟨hexp, d, hd, hdk, hopen⟩ := h.entries he
    refine ⟨hexp, ?_⟩
    by_cases hi : e.call = id
    · rw [hi, hid] at hd
      obtain rfl := Option.some.inj hd
      exact ⟨_, (getElem?_set_iff hid _ _ _).mpr (.inl ⟨hi, rfl⟩), hdk, ho.resolve_right fun hno => hno _ he hi⟩
    · exact ⟨d, (getElem?_set_iff hid _ _ _).mpr (.inr ⟨hi, hd⟩), hdk, hopen⟩

theorem InFlight.settled (h : InFlight w) {id : Nat} {c : Call T} (hid : w.calls[id]? = some c)
    (result : Except SdkError T) : InFlight (w.setState id c (.settled result)) := by
  refine h.setState hid (.inl ?_)
  simp [Call.isOpen, Call.deletes, h.ttl (List.mem_of_getElem? hid)]

/-- Entries are deleted. -/
theorem InFlight.sublist (h : InFlight w) {entries : List (String × IdempotencyEntry)}
    (hs : entries.Sublist w.entries) : InFlight { w with entries := entries } where
  default := h.default
  ttl := h.ttl
  keys := h.keys.sublist (hs.map _)
  entries he := h.entries (hs.subset he)

/-- The end of a call deletes the entry of its key. -/
theorem InFlight.cleanup (h : InFlight w) {id : Nat} {c : Call T} (hid : w.calls[id]? = some c)
    (result : Except SdkError T) : InFlight (w.cleanup id c result) := by
  have hdel : c.deletes result = true := by simp [Call.deletes, h.ttl (List.mem_of_getElem? hid)]
  rw [World.cleanup, if_pos hdel]
  have herased : InFlight { w with entries := eraseKey c.key w.entries } := h.sublist List.filter_sublist
  refine herased.setState hid (.inr fun e he hcall => ?_)
  obtain ⟨he, hne⟩ := List.mem_filter.mp he
  obtain ⟨-, d, hd, hdk, -⟩ := h.entries he
  rw [hcall, hid] at hd
  obtain rfl := Option.some.inj hd
  simp [hdk] at hne

theorem InFlight.clear (h : InFlight w) : InFlight w.clear := h.sublist (List.nil_sublist _)

theorem InFlight.tick (h : InFlight w) (now : Int) : InFlight { w with now := now } :=
  ⟨h.default, h.ttl, h.keys, h.entries⟩

end

end ZkPayroll.Core.Idempotency
