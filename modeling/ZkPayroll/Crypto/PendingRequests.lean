import ZkPayroll.Core.IdempotencySafety
import ZkPayroll.Crypto.WorkerProofGenerator

/-!
# The table of pending requests

Two invariants of a generator whose requests are all posted: the table has
exactly the requests that have not settled, and their timers run (`Table`); and
every call of `generateProof` that was not rejected awaits a request for its
witness key (`Joined`).
-/

namespace ZkPayroll.Crypto

open Framework ZkPayroll.Core Core.Idempotency

variable {ν P : Type} [NumberFormat ν]

/-- The request with the number `n` is one for a proof with the witness key. -/
def WorkerProofGenerator.Proves (g : WorkerProofGenerator ν P) (key : String) (n : Nat) : Prop :=
  ∃ r, g.requests[n]? = some r ∧ r.message.key = some key

/-! ## The table -/

/-- The link between the requests, their timers and the table. -/
structure Table (g : WorkerProofGenerator ν P) : Prop where
  seq : g.seq = g.requests.length
  ids {n : Nat} {r : Request ν P} : g.requests[n]? = some r → r.message.id = toString n
  keys : (g.pending.map Prod.fst).Nodup
  pending {id : String} {n : Nat} : (id, n) ∈ g.pending ↔
    ∃ r, g.requests[n]? = some r ∧ r.message.id = id ∧ r.settlements = []
  once {n : Nat} {r : Request ν P} : g.requests[n]? = some r → r.settlements.length ≤ 1
  timer {n : Nat} {r : Request ν P} : g.requests[n]? = some r → (r.timer = true ↔ r.settlements = [])
  answered {n : Nat} {r : Request ν P} {v : Option P} {k : String} : g.requests[n]? = some r →
    r.outcome = some (.ok v) → r.message.key = some k →
    ∃ payload, v = some payload ∧ .proofResult r.message.id payload ∈ g.received

variable {g g' : WorkerProofGenerator ν P}

/-- A change of what the table has nothing to do with. -/
theorem Table.congr (h : Table g) (hs : g'.seq = g.seq) (hr : g'.requests = g.requests) (hp : g'.pending = g.pending)
    (hm : ∀ msg ∈ g.received, msg ∈ g'.received) : Table g' where
  seq := by rw [hs, hr, h.seq]
  ids hn := h.ids (hr ▸ hn)
  keys := hp ▸ h.keys
  pending := by
    rw [hp, hr]
    exact h.pending
  once hn := h.once (hr ▸ hn)
  timer hn := h.timer (hr ▸ hn)
  answered hn ho hk := by
    obtain ⟨payload, hv, hmem⟩ := h.answered (hr ▸ hn) ho hk
    exact ⟨payload, hv, hm _ hmem⟩

variable {n : Nat}

theorem Table.lt_length (h : Table g) {id : String} (hp : (id, n) ∈ g.pending) : n < g.requests.length := by
  obtain ⟨r, hr, -, -⟩ := h.pending.mp hp
  exact (List.getElem?_eq_some_iff.mp hr).1

theorem Table.id_eq (h : Table g) {id : String} (hp : (id, n) ∈ g.pending) : id = toString n := by
  obtain ⟨r, hr, rfl, -⟩ := h.pending.mp hp
  exact h.ids hr

/-- A request is dispatched, with the next id. -/
theorem Table.dispatch (h : Table g) {req : WorkerRequest ν} (hid : req.id = toString g.seq) :
    Table (g.nextId.2.dispatch req none) := by
  have hget := getElem?_concat_iff g.requests { message := req }
  have hnew : req.id = toString g.requests.length := by rw [hid, h.seq]
  have hne : ∀ {id : String} {n : Nat}, (id, n) ∈ g.pending → id ≠ req.id := by
    intro id n hp he
    have hn : n = g.requests.length := toString_injective (by rw [← h.id_eq hp, he, hnew])
    exact (h.lt_length hp).ne hn
  constructor
  case seq => simp [WorkerProofGenerator.nextId, WorkerProofGenerator.dispatch, h.seq]
  case ids =>
    intro n r hn
    rcases (hget n r).mp hn with hn | ⟨rfl, rfl⟩
    · exact h.ids hn
    · exact hnew
  case keys => exact nodup_setKey h.keys
  case pending =>
    intro id n
    refine (mem_setKey h.keys).trans ?_
    constructor
    · intro hm
      rcases hm with he | ⟨hp, -⟩
      · obtain ⟨rfl, rfl⟩ := Prod.mk.inj he
        exact ⟨_, (hget _ _).mpr (.inr ⟨rfl, rfl⟩), rfl, rfl⟩
      · obtain ⟨r, hr, hri, hs⟩ := h.pending.mp hp
        exact ⟨r, (hget _ _).mpr (.inl hr), hri, hs⟩
    · intro hm
      obtain ⟨r, hr, hri, hs⟩ := hm
      rcases (hget n r).mp hr with hr | ⟨rfl, rfl⟩
      · have hp := h.pending.mpr ⟨r, hr, hri, hs⟩
        exact .inr ⟨hp, hne hp⟩
      · exact .inl (by rw [← hri]; rfl)
  case once =>
    intro n r hn
    rcases (hget n r).mp hn with hn | ⟨rfl, rfl⟩
    · exact h.once hn
    · exact Nat.zero_le 1
  case timer =>
    intro n r hn
    rcases (hget n r).mp hn with hn | ⟨rfl, rfl⟩
    · exact h.timer hn
    · simp
  case answered =>
    intro n r v k hn ho hk
    rcases (hget n r).mp hn with hn | ⟨rfl, rfl⟩
    · exact h.answered hn ho hk
    · cases ho

/-- A pending request is settled. -/
theorem Table.settle (h : Table g) {r : Request ν P} (hr : g.requests[n]? = some r) (hs : r.settlements = [])
    {result : Except SdkError (Option P)}
    (hres : ∀ v k, result = .ok v → r.message.key = some k →
      ∃ payload, v = some payload ∧ .proofResult r.message.id payload ∈ g.received) :
    Table (g.settle r.message.id n result) := by
  have hget : ∀ {m : Nat} {q : Request ν P}, (g.requests.modify n (Request.settle result))[m]? = some q ↔
      m = n ∧ q = r.settle result ∨ m ≠ n ∧ g.requests[m]? = some q := by
    intro m q
    rw [List.getElem?_modify]
    by_cases hm : n = m
    · subst hm
      simp [hr, eq_comm]
    · simp [hm, Ne.symm hm]
  have hid := h.ids hr
  constructor
  case seq => simp [WorkerProofGenerator.settle, h.seq]
  case ids =>
    intro m q hq
    rcases hget.mp hq with ⟨rfl, rfl⟩ | ⟨-, hq⟩
    · exact hid
    · exact h.ids hq
  case keys => exact nodup_eraseKey h.keys
  case pending =>
    intro id m
    refine List.mem_filter.trans ?_
    constructor
    · intro hm
      obtain ⟨hp, hne⟩ := hm
      obtain ⟨q, hq, hqi, hqs⟩ := h.pending.mp hp
      refine ⟨q, hget.mpr (.inr ⟨?_, hq⟩), hqi, hqs⟩
      rintro rfl
      simp [hid, h.id_eq hp] at hne
    · intro hm
      obtain ⟨q, hq, hqi, hqs⟩ := hm
      rcases hget.mp hq with ⟨rfl, rfl⟩ | ⟨hne, hq⟩
      · simp [Request.settle] at hqs
      · have hp := h.pending.mpr ⟨q, hq, hqi, hqs⟩
        refine ⟨hp, ?_⟩
        have hids : toString m ≠ toString n := fun he => hne (toString_injective he)
        simpa [hid, h.id_eq hp] using hids
  case once =>
    intro m q hq
    rcases hget.mp hq with ⟨rfl, rfl⟩ | ⟨-, hq⟩
    · simp [Request.settle, hs]
    · exact h.once hq
  case timer =>
    intro m q hq
    rcases hget.mp hq with ⟨rfl, rfl⟩ | ⟨-, hq⟩
    · simp [Request.settle]
    · exact h.timer hq
  case answered =>
    intro m q v k hq ho hk
    rcases hget.mp hq with ⟨rfl, rfl⟩ | ⟨-, hq⟩
    · refine hres v k ?_ hk
      simpa [Request.outcome, Request.settle, hs] using ho
    · exact h.answered hq ho hk

theorem getElem?_foldl_modify {α : Type} (f : α → α) (n : Nat) : ∀ {m : List (String × Nat)} (l : List α),
    (m.map Prod.snd).Nodup → (m.foldl (fun l p => l.modify p.2 f) l)[n]? =
      l[n]?.map fun a => if n ∈ m.map Prod.snd then f a else a
  | [], l, _ => by simp
  | p :: m, l, h => by
    obtain ⟨hp, hm⟩ := List.nodup_cons.mp h
    rw [List.foldl_cons, getElem?_foldl_modify f n _ hm, List.getElem?_modify]
    by_cases hn : p.2 = n
    · subst hn
      simp [hp, Function.comp_def]
    · have hmem : n ∈ (p :: m).map Prod.snd ↔ n ∈ m.map Prod.snd := by
        rw [List.map_cons, List.mem_cons, or_iff_right (Ne.symm hn)]
      simp only [hn, hmem, if_false, Option.map_eq_map, Option.map_id']

/-- All pending requests are settled, and no other. -/
theorem Table.getElem?_rejectAll (h : Table g) (err : SdkError) (n : Nat) :
    (g.rejectAll err).requests[n]? =
      g.requests[n]?.map fun r => if r.settlements = [] then r.settle (.error err) else r := by
  have hids : g.pending.map Prod.fst = (g.pending.map Prod.snd).map toString := by
    rw [List.map_map]
    exact List.map_congr_left fun p hp => h.id_eq hp
  have hnums : (g.pending.map Prod.snd).Nodup := List.Nodup.of_map _ (hids ▸ h.keys)
  rw [WorkerProofGenerator.rejectAll, getElem?_foldl_modify _ _ _ hnums]
  refine Option.map_congr fun r hr => ?_
  have hmem : n ∈ g.pending.map Prod.snd ↔ r.settlements = [] := by
    constructor
    · intro hn
      obtain ⟨p, hp, rfl⟩ := List.mem_map.mp hn
      obtain ⟨q, hq, -, hs⟩ := h.pending.mp hp
      rw [hr] at hq
      exact Option.some.inj hq ▸ hs
    · exact fun hs => List.mem_map.mpr ⟨_, h.pending.mpr ⟨r, hr, rfl, hs⟩, rfl⟩
  simp only [hmem]

theorem Table.settled_of_rejectAll (h : Table g) {err : SdkError} {r : Request ν P}
    (hr : (g.rejectAll err).requests[n]? = some r) :
    r.settlements ≠ [] ∧ ∃ q, g.requests[n]? = some q ∧ r.message = q.message ∧
      (r = q ∨ q.settlements = [] ∧ r = q.settle (.error err)) := by
  rw [h.getElem?_rejectAll, Option.map_eq_some_iff] at hr
  obtain ⟨q, hq, rfl⟩ := hr
  split
  · rename_i hs
    exact ⟨by simp [Request.settle], q, hq, rfl, .inr ⟨hs, rfl⟩⟩
  · rename_i hs
    exact ⟨hs, q, hq, rfl, .inl rfl⟩

theorem Table.rejectAll (h : Table g) (err : SdkError) : Table (g.rejectAll err) := by
  have hlen : ∀ m : List (String × Nat), ∀ l : List (Request ν P),
      (m.foldl (fun l p => l.modify p.2 (Request.settle (.error err))) l).length = l.length := by
    intro m
    induction m with
    | nil => exact fun _ => rfl
    | cons p m ih => exact fun l => (ih _).trans (List.length_modify _ _ _)
  constructor
  case seq => exact h.seq.trans (hlen _ _).symm
  case ids =>
    intro n r hr
    obtain ⟨-, q, hq, hm, -⟩ := h.settled_of_rejectAll hr
    rw [hm]
    exact h.ids hq
  case keys => exact List.nodup_nil
  case pending =>
    intro id n
    refine iff_of_false (List.not_mem_nil) fun he => ?_
    obtain ⟨r, hr, -, hs⟩ := he
    exact (h.settled_of_rejectAll hr).1 hs
  case once =>
    intro n r hr
    obtain ⟨-, q, hq, -, rfl | ⟨hs, rfl⟩⟩ := h.settled_of_rejectAll hr
    · exact h.once hq
    · simp [Request.settle, hs]
  case timer =>
    intro n r hr
    obtain ⟨-, q, hq, -, rfl | ⟨hs, rfl⟩⟩ := h.settled_of_rejectAll hr
    · exact h.timer hq
    · simp [Request.settle]
  case answered =>
    intro n r v k hr ho hk
    obtain ⟨-, q, hq, -, rfl | ⟨hs, rfl⟩⟩ := h.settled_of_rejectAll hr
    · exact h.answered hq ho hk
    · simp [Request.outcome, Request.settle, hs] at ho

/-! ## Joined requests -/

/-- The link between the proofs, the registry in front of `dispatch` and the
requests. -/
structure Joined (g : WorkerProofGenerator ν P) : Prop where
  registry : InFlight g.dedup
  length : g.dispatched.length = g.dedup.calls.length
  linked {c : Nat} {call : Call (Option P)} : g.dedup.calls[c]? = some call →
    ∃ n, g.dispatched[c]? = some n ∧ g.Proves call.key n
  proofs {p : ProofCall} : p ∈ g.proofs → (∃ e, p.promise = .rejected e) ∨
    ∃ n, g.request p.promise = some n ∧ g.Proves p.key n

omit [NumberFormat ν] in
theorem request_mono (h : ∀ {c n : Nat}, g.dispatched[c]? = some n → g'.dispatched[c]? = some n)
    {promise : ProofPromise} (hn : g.request promise = some n) : g'.request promise = some n := by
  cases promise with
  | call c => exact h hn
  | _ => exact hn

/-- The requests keep what they are for. -/
theorem Joined.mono (h : Joined g) (hd : g'.dedup = g.dedup) (hc : g'.dispatched = g.dispatched)
    (hp : g'.proofs = g.proofs) (hr : ∀ {key : String} {n : Nat}, g.Proves key n → g'.Proves key n) : Joined g' where
  registry := hd ▸ h.registry
  length := by rw [hd, hc, h.length]
  linked hcall := by
    obtain ⟨n, hn, hprove⟩ := h.linked (hd ▸ hcall)
    exact ⟨n, hc ▸ hn, hr hprove⟩
  proofs hmem := by
    refine (h.proofs (hp ▸ hmem)).imp_right fun hn => ?_
    obtain ⟨n, hn, hprove⟩ := hn
    exact ⟨n, request_mono (fun hd => hc ▸ hd) hn, hr hprove⟩

/-- The registry goes on, with the calls that it has. -/
theorem Joined.withDedup (h : Joined g) {w : World (Option P)} (hw : InFlight w)
    (hlen : w.calls.length = g.dedup.calls.length)
    (hcalls : ∀ {c : Nat} {call : Call (Option P)}, w.calls[c]? = some call →
      ∃ call', g.dedup.calls[c]? = some call' ∧ call'.key = call.key) : Joined { g with dedup := w } where
  registry := hw
  length := h.length.trans hlen.symm
  linked hc := by
    obtain ⟨call, hcall, hkey⟩ := hcalls hc
    rw [← hkey]
    exact h.linked hcall
  proofs := h.proofs

theorem Joined.setCall (h : Joined g) {c : Nat} {call : Call (Option P)} (hc : g.dedup.calls[c]? = some call)
    {state : CallState (Option P)} {w : World (Option P)} (hw : InFlight w)
    (hcalls : w.calls = g.dedup.calls.set c { call with state := state }) : Joined { g with dedup := w } := by
  refine h.withDedup hw (by rw [hcalls, List.length_set]) fun {d call'} hd => ?_
  rw [hcalls] at hd
  rcases (getElem?_set_iff hc _ _ _).mp hd with ⟨rfl, rfl⟩ | ⟨-, hd⟩
  · exact ⟨call, hc, rfl⟩
  · exact ⟨call', hd, rfl⟩

/-- A call of the registry for the key, which dispatched the request with the
number `n`. -/
def WorkerProofGenerator.register (g : WorkerProofGenerator ν P) (key : String) (n : Nat) :
    WorkerProofGenerator ν P :=
  { g with
    dedup := World.returned { g.dedup with calls := g.dedup.calls ++ [newCall key] } g.dedup.calls.length (newCall key)
    dispatched := g.dispatched ++ [n] }

theorem Joined.register (h : Joined g) {key : String} (hn : g.Proves key n) :
    Joined (g.register key n) where
  registry := h.registry.started key
  length := by simp [WorkerProofGenerator.register, World.returned, h.length]
  linked {c call} hc := by
    have hlast : (g.dedup.calls ++ [newCall key])[g.dedup.calls.length]? = some (newCall key) := by simp
    rcases (getElem?_set_iff hlast _ _ _).mp hc with ⟨rfl, rfl⟩ | ⟨hne, hc⟩
    · refine ⟨n, ?_, hn⟩
      simp [WorkerProofGenerator.register, ← h.length]
    · have hold := ((getElem?_concat_iff _ _ _ _).mp hc).resolve_right fun he => hne he.1
      obtain ⟨m, hm, hprove⟩ := h.linked hold
      exact ⟨m, (getElem?_concat_iff _ _ _ _).mpr (.inl hm), hprove⟩
  proofs hmem := by
    refine (h.proofs hmem).imp_right fun hm => ?_
    obtain ⟨m, hm, hprove⟩ := hm
    exact ⟨m, request_mono (fun hc => (getElem?_concat_iff _ _ _ _).mpr (.inl hc)) hm, hprove⟩

theorem Joined.withProof (h : Joined g) {key : String} {promise : ProofPromise}
    (hp : ∃ n, g.request promise = some n ∧ g.Proves key n) : Joined (g.withProof key promise) where
  registry := h.registry
  length := h.length
  linked := h.linked
  proofs hmem := by
    rcases List.mem_append.mp hmem with hmem | hmem
    · exact h.proofs hmem
    · rw [List.mem_singleton.mp hmem]
      exact .inr hp

theorem proves_dispatch {req : WorkerRequest ν} {thrown : Option SdkError} {key : String}
    (h : g.Proves key n) : (g.nextId.2.dispatch req thrown).Proves key n := by
  obtain ⟨r, hr, hk⟩ := h
  exact ⟨r, (getElem?_concat_iff _ _ _ _).mpr (.inl hr), hk⟩

theorem Joined.dispatch (h : Joined g) (req : WorkerRequest ν) (thrown : Option SdkError) :
    Joined (g.nextId.2.dispatch req thrown) :=
  h.mono rfl rfl rfl proves_dispatch

theorem Joined.settle (h : Joined g) (id : String) (n : Nat) (result : Except SdkError (Option P)) :
    Joined (g.settle id n result) := by
  refine h.mono rfl rfl rfl fun {key m} hm => ?_
  obtain ⟨r, hr, hk⟩ := hm
  refine ⟨if n = m then r.settle result else r, ?_, ?_⟩
  · simp [WorkerProofGenerator.settle, List.getElem?_modify, hr]
  · split
    · exact hk
    · exact hk

theorem Joined.rejectAll (h : Joined g) (ht : Table g) (err : SdkError) : Joined (g.rejectAll err) := by
  refine h.mono rfl rfl rfl fun {key m} hm => ?_
  obtain ⟨r, hr, hk⟩ := hm
  refine ⟨if r.settlements = [] then r.settle (.error err) else r, ?_, ?_⟩
  · rw [ht.getElem?_rejectAll, hr, Option.map_some]
  · split
    · exact hk
    · exact hk

end ZkPayroll.Crypto
