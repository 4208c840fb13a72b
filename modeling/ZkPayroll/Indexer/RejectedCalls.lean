import ZkPayroll.Indexer.IndexRuns

/-!
# Calls of the indexer that reject

A call of `index` rejects when the reader does. Before that it may have read
collections to their end, and whole companies, and has written so into the
checkpoints of companies that are the caller's (`leave`).
-/

namespace ZkPayroll.Indexer

open Framework ZkPayroll.Core

variable {α β : Type} {reader : ContractStateReader} {limit fuel : Nat} {s : IndexState}
  {cs : List (String × CompanyIndexingCheckpoint)}

/-! ## Methods that reject -/

/-- The method rejects, and leaves the caller's checkpoints of companies so. -/
def Rejects (m : Method IndexFailure IndexState α) (s : IndexState)
    (cs : List (String × CompanyIndexingCheckpoint)) : Prop :=
  ∃ e s', m s = .error (.rejected e) s' ∧ s'.callerCursors = cs

section Bind

variable {m : Method IndexFailure IndexState α} {f : α → Method IndexFailure IndexState β}

theorem rejects_bind_of_ok {a : α} {s' : IndexState} (h : m s = .ok a s') :
    Rejects (m >>= f) s cs ↔ Rejects (f a) s' cs := by
  unfold Rejects
  rw [Method.bind_of_ok h]

theorem rejects_bind_of_error {e : SdkError} {s' : IndexState} (h : m s = .error (.rejected e) s') :
    Rejects (m >>= f) s cs ↔ cs = s'.callerCursors := by
  unfold Rejects
  rw [Method.bind_of_error h]
  constructor
  · rintro ⟨e', s'', heq, rfl⟩
    cases heq
    rfl
  · rintro rfl
    exact ⟨e, s', rfl, rfl⟩

end Bind

theorem not_rejects_pure (a : α) : ¬ Rejects (pure a) s cs := by
  rintro ⟨e, s', h, -⟩
  cases h

/-- A method that does not reject once the budget is spent. -/
def NeedsBudget (m : Method IndexFailure IndexState α) : Prop :=
  ∀ s cs, Rejects m s cs → isBudgetExhausted s.remainingPages = false

theorem needsBudget_pure (a : α) : NeedsBudget (pure a) := fun _ _ h => absurd h (not_rejects_pure a)

theorem needsBudget_modify_bind {g : IndexState → IndexState} {m : Method IndexFailure IndexState α}
    (hg : ∀ s, (g s).remainingPages = s.remainingPages) (hm : NeedsBudget m) :
    NeedsBudget ((modify g : Method IndexFailure IndexState PUnit) >>= fun _ => m) := by
  intro s cs h
  have hrest : Rejects m (g s) cs := h
  rw [← hg s]
  exact hm (g s) cs hrest

/-! ## Pages -/

/-- Reading a collection by its cursors. -/
def pageAt (read : ContractStatePageRequest → Except SdkError (Page α)) (limit : Nat) (c : Option String) :
    Except SdkError (Page α) :=
  read { cursor := c, limit := limit }

section Pages

variable {read : ContractStatePageRequest → Except SdkError (Page α)} {c : Option String}
  {f : ReadPagesResult α → Method IndexFailure IndexState β}

theorem needsBudget_readPages_bind (hf : ∀ r, NeedsBudget (f r)) : NeedsBudget (readPages read limit fuel c >>= f) := by
  intro s cs h
  by_contra hex
  rw [Bool.not_eq_false] at hex
  cases fuel with
  | zero =>
    obtain ⟨e, s', h, -⟩ := h
    cases h
  | succ fuel =>
    rw [rejects_bind_of_ok (readPages_exhausted hex c)] at h
    have := hf _ _ _ h
    rw [hex] at this
    cases this

theorem canRead_one {b : Option Nat} (h : isBudgetExhausted b = false) : CanRead b 1 := by
  intro n hn
  rw [Option.mem_def] at hn
  rw [hn] at h
  simp only [isBudgetExhausted, Option.any_some, beq_eq_false_iff_ne] at h
  omega

theorem CanRead.spent {b : Option Nat} {n m : Nat} (h : CanRead (b.map (· - n)) m) (hm : 0 < m) :
    CanRead b (n + m) := by
  intro k hk
  have := h (k - n) (by rw [Option.mem_def.mp hk]; rfl)
  omega

theorem exhausted_spend (h : isBudgetExhausted s.remainingPages = true) (n : Nat) :
    isBudgetExhausted (s.spend n).remainingPages = true := by
  cases hb : s.remainingPages with
  | none =>
    rw [hb] at h
    cases h
  | some b =>
    rw [hb] at h
    simp only [isBudgetExhausted, Option.any_some, beq_iff_eq] at h
    simp [isBudgetExhausted, IndexState.spend, hb, h]

section First

variable (hex : isBudgetExhausted s.remainingPages = false)
include hex

theorem rejects_readPages_refused {e : SdkError} (hread : pageAt read limit c = .error e) :
    Rejects (readPages read limit (fuel + 1) c >>= f) s cs ↔ cs = s.callerCursors := by
  have herror : readPages read limit (fuel + 1) c s = .error (.rejected e) s := by
    rw [pageAt] at hread
    rw [readPages, Method.get_bind, if_neg (by simp [hex]), readPage, hread]
    rfl
  exact rejects_bind_of_error herror

theorem rejects_readPages_last {items : List α} (hread : pageAt read limit c = .ok { items := items }) :
    Rejects (readPages read limit (fuel + 1) c >>= f) s cs ↔ Rejects (f { items := items }) (s.spend 1) cs :=
  rejects_bind_of_ok (readPages_succ hex hread)

theorem rejects_readPages_more {next : String} {items : List α}
    (hread : pageAt read limit c = .ok { items := items, nextCursor := some next }) :
    Rejects (readPages read limit (fuel + 1) c >>= f) s cs ↔
      Rejects (readPages read limit fuel (some next) >>= fun rest => f { rest with items := items ++ rest.items })
        (s.spend 1) cs := by
  have hpage : readPages read limit (fuel + 1) c s = _ := readPages_succ hex hread
  have heq : (readPages read limit (fuel + 1) c >>= f) s =
      ((readPages read limit fuel (some next) >>= fun rest =>
        pure { rest with items := items ++ rest.items }) >>= f : Method _ _ _) (s.spend 1) := by
    show EStateM.bind _ _ _ = EStateM.bind _ _ _
    simp only [EStateM.bind, hpage]
  unfold Rejects
  rw [heq, bind_assoc]
  simp only [pure_bind]

end First

/-- Pages are read until one is refused, or to the end. -/
theorem rejects_readPages_bind (hf : ∀ r, NeedsBudget (f r)) :
    Rejects (readPages read limit fuel c >>= f) s cs ↔
      (∃ n, PagesUntil (pageAt read limit) c n ∧ n < fuel ∧ CanRead s.remainingPages (n + 1) ∧ cs = s.callerCursors) ∨
        ∃ ps, Pages (pageAt read limit) c ps ∧ ps.length ≤ fuel ∧
          Rejects (f { items := ps.flatten }) (s.spend ps.length) cs := by
  induction fuel generalizing c s f with
  | zero =>
    refine iff_of_false ?_ ?_
    · rintro ⟨e, s', h, -⟩
      cases h
    · rintro (⟨n, -, hn, -⟩ | ⟨ps, hps, hlen, -⟩)
      · omega
      · have := hps.length_pos
        omega
  | succ fuel ih =>
    cases hex : isBudgetExhausted s.remainingPages with
    | true =>
      -- nothing is read, and what follows does not reject
      refine iff_of_false (fun h => ?_) ?_
      · exact absurd (needsBudget_readPages_bind hf _ _ h) (by simp [hex])
      · rintro (⟨n, -, -, hb, -⟩ | ⟨ps, -, -, h⟩)
        · exact absurd (hb.not_exhausted (by omega)) (by simp [hex])
        · exact absurd (hf _ _ _ h) (by simp [exhausted_spend hex])
    | false =>
      cases hread : pageAt read limit c with
      | error e =>
        have hone := canRead_one hex
        simp only [rejects_readPages_refused hex hread, pagesUntil_of_error hread, not_pages_of_error hread, false_and,
          exists_false, or_false, exists_eq_left]
        exact ⟨fun h => ⟨by omega, hone, h⟩, fun h => h.2.2⟩
      | ok page =>
        obtain ⟨items, next⟩ := page
        cases next with
        | none =>
          simp only [rejects_readPages_last hex hread, not_pagesUntil_of_last hread, pages_of_last hread, false_and,
            exists_false, false_or, exists_eq_left]
          simp
        | some next =>
          rw [rejects_readPages_more hex hread, ih fun r => hf _]
          simp only [pagesUntil_of_more hread, pages_of_more hread]
          constructor
          · rintro (⟨n, hn, hlt, hb, rfl⟩ | ⟨ps, hps, hlen, h⟩)
            · exact .inl ⟨n + 1, ⟨n, rfl, hn⟩, by omega, by simpa [Nat.add_comm] using hb.spent (by omega), rfl⟩
            · refine .inr ⟨items :: ps, ⟨ps, rfl, hps⟩, by rw [List.length_cons]; omega, ?_⟩
              rwa [spend_spend, Nat.add_comm] at h
          · rintro (⟨_, ⟨n, rfl, hn⟩, hlt, hb, rfl⟩ | ⟨_, ⟨ps, rfl, hps⟩, hlen, h⟩)
            · exact .inl ⟨n, hn, by omega, CanRead.rest (by rwa [Nat.add_comm] at hb), rfl⟩
            · rw [List.length_cons] at hlen h
              refine .inr ⟨ps, hps, by omega, ?_⟩
              rwa [spend_spend, Nat.add_comm]

end Pages

/-! ## Checkpoints of companies -/

/-- What becomes of the caller's checkpoint of a company. -/
def leave (id : String) (g : CompanyIndexingCheckpoint → CompanyIndexingCheckpoint)
    (cs : List (String × CompanyIndexingCheckpoint)) : List (String × CompanyIndexingCheckpoint) :=
  match cs.lookup id with
  | some c => setKey id (g c) cs
  | none => cs

section Leave

variable {id : String} {g h : CompanyIndexingCheckpoint → CompanyIndexingCheckpoint}

theorem lookup_leave (j : String) :
    (leave id g cs).lookup j = if j = id then (cs.lookup id).map g else cs.lookup j := by
  unfold leave
  cases hc : cs.lookup id with
  | none =>
    by_cases hj : j = id
    · rw [if_pos hj, hj, hc, Option.map_none]
    · rw [if_neg hj]
  | some c => rw [lookup_setKey, Option.map_some]

theorem leave_leave : leave id h (leave id g cs) = leave id (h ∘ g) cs := by
  cases hc : cs.lookup id with
  | none => simp only [leave, hc]
  | some c =>
    have hleft : (leave id g cs).lookup id = some (g c) := by rw [lookup_leave, if_pos rfl, hc, Option.map_some]
    rw [leave, hleft]
    simp only [leave, hc, setKey_setKey, Function.comp_apply]

theorem leave_eq_self_iff : leave id g cs = cs ↔ ∀ c, cs.lookup id = some c → g c = c := by
  constructor
  · intro heq c hc
    have hlookup : (leave id g cs).lookup id = if id = id then (cs.lookup id).map g else cs.lookup id := lookup_leave id
    rw [heq, if_pos rfl, hc, Option.map_some] at hlookup
    exact (Option.some.inj hlookup).symm
  · intro hsame
    unfold leave
    cases hc : cs.lookup id with
    | none => rfl
    | some c =>
      show setKey id (g c) cs = cs
      rw [hsame c hc, setKey_lookup hc]

end Leave

/-- Where the caller has or inherits a checkpoint of the company, it is the one
that the call writes to. -/
def Shares (id : String) (s : IndexState) : Prop :=
  ∀ c, s.callerCursors.lookup id = some c → s.entry id = some c

variable {id : String}

theorem Shares.companyCheckpoint (hs : Shares id s) {c : CompanyIndexingCheckpoint}
    (hc : s.callerCursors.lookup id = some c) : s.companyCheckpoint id = c := by
  rw [IndexState.companyCheckpoint, hs c hc, Option.getD_some]

/-- The state with the checkpoint of a company changed. -/
theorem callerCursors_write (hs : Shares id s)
    (g : CompanyIndexingCheckpoint → CompanyIndexingCheckpoint) :
    (s.writeCompanyCheckpoint id (g (s.companyCheckpoint id))).callerCursors = leave id g s.callerCursors := by
  show (if (s.callerCursors.lookup id).isSome then _ else _) = _
  unfold leave
  cases hc : s.callerCursors.lookup id with
  | none => rfl
  | some c =>
    show setKey id (g (s.companyCheckpoint id)) s.callerCursors = _
    rw [hs.companyCheckpoint hc]

theorem shares_write (id : String) (c : CompanyIndexingCheckpoint) : Shares id (s.writeCompanyCheckpoint id c) := by
  intro c' hc'
  have hcaller : (s.writeCompanyCheckpoint id c).callerCursors =
      if (s.callerCursors.lookup id).isSome then setKey id c s.callerCursors else s.callerCursors := rfl
  have hcopy : (s.writeCompanyCheckpoint id c).entry id = some c := by
    show ((setKey id c s.checkpoint.companyCursors).lookup id).or _ = some c
    rw [lookup_setKey, if_pos rfl, Option.some_or]
  rw [hcaller] at hc'
  cases hl : s.callerCursors.lookup id with
  | none => simp [hl] at hc'
  | some d =>
    rw [hl, Option.isSome_some, if_pos rfl, lookup_setKey, if_pos rfl] at hc'
    rw [hcopy, hc']

/-- What has become of a state: the checkpoint of a company is changed, and some
pages are read. -/
structure After (id : String) (g : CompanyIndexingCheckpoint → CompanyIndexingCheckpoint) (n : Nat)
    (s s' : IndexState) : Prop extends Frame id s s' where
  own : s'.companyCheckpoint id = g (s.companyCheckpoint id)
  caller : s'.callerCursors = leave id g s.callerCursors
  budget : s'.remainingPages = s.remainingPages.map (· - n)
  shares : Shares id s'

theorem After.trans {g h : CompanyIndexingCheckpoint → CompanyIndexingCheckpoint} {n m : Nat}
    {s s₁ s₂ : IndexState} (h₁ : After id g n s s₁) (h₂ : After id h m s₁ s₂) : After id (h ∘ g) (n + m) s s₂ where
  toFrame := h₁.toFrame.trans h₂.toFrame
  own := by rw [h₂.own, h₁.own, Function.comp_apply]
  caller := by rw [h₂.caller, h₁.caller, leave_leave]
  budget := by
    rw [h₂.budget, h₁.budget, Option.map_map]
    exact congrArg (fun f => Option.map f s.remainingPages) (funext fun b => Nat.sub_sub b n m)
  shares := h₂.shares

/-! ## Collections of a company -/

namespace RecordStream

variable (stream : RecordStream α)

/-- The state when a collection was read to its end. -/
def readTo (id : String) (ps : List (List α)) (s : IndexState) : IndexState :=
  { s.spend ps.length with domain := stream.push s.domain ps.flatten }.writeCompanyCheckpoint id
    (stream.setCursor (s.companyCheckpoint id) none)

theorem after_readTo {id : String} (hs : Shares id s) (ps : List (List α)) :
    After id (stream.setCursor · none) ps.length s (stream.readTo id ps s) where
  toFrame := by
    rw [readTo]
    exact frame_write (by rfl) id _
  own := by rw [readTo, companyCheckpoint_write]
  caller :=
    callerCursors_write (s := { s.spend ps.length with domain := stream.push s.domain ps.flatten }) hs
      (stream.setCursor · none)
  budget := rfl
  shares := shares_write id _

end RecordStream

section Streams

variable {stream : RecordStream α} {id : String} {f : Option String → Method IndexFailure IndexState β}

/-- What `readStream` does with the pages, and what follows it. -/
def noteRead (stream : RecordStream α) (id : String) (f : Option String → Method IndexFailure IndexState β)
    (read : ReadPagesResult α) : Method IndexFailure IndexState β := do
  modify fun s =>
    { s with domain := stream.push s.domain read.items }.writeCompanyCheckpoint id
      (stream.setCursor (s.companyCheckpoint id) read.nextCursor)
  f read.nextCursor

theorem rejects_readStream : Rejects (readStream reader limit fuel stream id >>= f) s cs ↔
    Rejects (readPages (stream.list reader id) limit fuel (stream.cursor (s.companyCheckpoint id)) >>=
      noteRead stream id f) s cs := by
  have heq : (readStream reader limit fuel stream id >>= f) s =
      (readPages (stream.list reader id) limit fuel (stream.cursor (s.companyCheckpoint id)) >>=
        noteRead stream id f) s := by
    rw [readStream, bind_assoc, Method.get_bind]
    simp only [bind_assoc, pure_bind]
    rfl
  unfold Rejects
  rw [heq]

theorem needsBudget_noteRead (hf : ∀ next, NeedsBudget (f next)) (r : ReadPagesResult α) :
    NeedsBudget (noteRead stream id f r) :=
  needsBudget_modify_bind (fun _ => rfl) (hf r.nextCursor)

theorem needsBudget_readStream_bind (hf : ∀ next, NeedsBudget (f next)) :
    NeedsBudget (readStream reader limit fuel stream id >>= f) := by
  intro s cs h
  rw [rejects_readStream] at h
  exact needsBudget_readPages_bind (needsBudget_noteRead hf) s cs h

/-- A collection is read until a page is refused, or to its end. -/
theorem rejects_readStream_bind (hf : ∀ next, NeedsBudget (f next)) :
    Rejects (readStream reader limit fuel stream id >>= f) s cs ↔
      (∃ n, PagesUntil (pageAt (stream.list reader id) limit) (stream.cursor (s.companyCheckpoint id)) n ∧ n < fuel ∧
          CanRead s.remainingPages (n + 1) ∧ cs = s.callerCursors) ∨
        ∃ ps, Pages (pageAt (stream.list reader id) limit) (stream.cursor (s.companyCheckpoint id)) ps ∧
          ps.length ≤ fuel ∧ Rejects (f none) (stream.readTo id ps s) cs := by
  rw [rejects_readStream, rejects_readPages_bind (needsBudget_noteRead hf)]
  exact Iff.rfl

end Streams

/-! ## What a rejected call has read -/

/-- Reading a collection from its cursor. -/
structure Reading where
  /-- The collection ends after so many pages. -/
  ends : Nat → Prop
  /-- A page is refused after so many. -/
  refused : Nat → Prop

/-- The reading of the pages of a stream. -/
def RecordStream.reading (stream : RecordStream α) (reader : ContractStateReader) (limit fuel : Nat) (id : String)
    (c : CompanyIndexingCheckpoint) : Reading where
  ends n := ∃ ps, Pages (pageAt (stream.list reader id) limit) (stream.cursor c) ps ∧ ps.length ≤ fuel ∧ ps.length = n
  refused n := PagesUntil (pageAt (stream.list reader id) limit) (stream.cursor c) n ∧ n < fuel

/-- After `k` collections that are read to their ends a page is refused, which
the budget allows to be read. -/
def FailsAt : List Reading → Option Nat → Nat → Prop
  | [], _, _ => False
  | r :: _, b, 0 => ∃ n, r.refused n ∧ CanRead b (n + 1)
  | r :: rs, b, k + 1 => ∃ n, r.ends n ∧ FailsAt rs (b.map (· - n)) k

/-- All collections are read to their ends, `n` pages. -/
def EndsAfter : List Reading → Nat → Prop
  | [], n => n = 0
  | r :: rs, n => ∃ a b, r.ends a ∧ EndsAfter rs b ∧ n = a + b

/-! ## One company -/

/-- The collections of a company, in their order. -/
def collections : List ((α : Type) × RecordStream α) :=
  [⟨_, employees⟩, ⟨_, payrollRuns⟩, ⟨_, events⟩, ⟨_, commitments⟩, ⟨_, auditPermissions⟩]

/-- The cursors of the collections are gone. -/
def clear (streams : List ((α : Type) × RecordStream α)) (c : CompanyIndexingCheckpoint) : CompanyIndexingCheckpoint :=
  streams.foldl (fun c stream => stream.2.setCursor c none) c

/-- The collections of a company, as they are read. -/
def readings (reader : ContractStateReader) (limit fuel : Nat) (id : String) (c : CompanyIndexingCheckpoint)
    (streams : List ((α : Type) × RecordStream α)) : List Reading :=
  streams.map fun stream => stream.2.reading reader limit fuel id c

/-- Writing one cursor leaves the other. -/
def Apart (stream stream' : (α : Type) × RecordStream α) : Prop :=
  ∀ c x, stream'.2.cursor (stream.2.setCursor c x) = stream'.2.cursor c

theorem collections_apart : collections.Pairwise Apart := by
  unfold collections
  simp only [List.pairwise_cons, List.forall_mem_cons]
  exact ⟨⟨fun _ _ => rfl, fun _ _ => rfl, fun _ _ => rfl, fun _ _ => rfl, List.forall_mem_nil _⟩,
    ⟨fun _ _ => rfl, fun _ _ => rfl, fun _ _ => rfl, List.forall_mem_nil _⟩,
    ⟨fun _ _ => rfl, fun _ _ => rfl, List.forall_mem_nil _⟩,
      ⟨fun _ _ => rfl, List.forall_mem_nil _⟩, List.forall_mem_nil _, .nil⟩

/-- The collections are read one after the other, unless one is not read to its
end. -/
def readThen (reader : ContractStateReader) (limit fuel : Nat) (id : String)
    (stop last : Method IndexFailure IndexState β) :
    List ((α : Type) × RecordStream α) → Method IndexFailure IndexState β
  | [] => last
  | ⟨_, stream⟩ :: streams => do
    let next ← readStream reader limit fuel stream id
    if isTruthy next then stop else readThen reader limit fuel id stop last streams

section ReadThen

variable {id : String} {stop last : Method IndexFailure IndexState β}

theorem needsBudget_readThen (hstop : NeedsBudget stop) (hlast : NeedsBudget last) :
    ∀ streams, NeedsBudget (readThen reader limit fuel id stop last streams)
  | [] => hlast
  | ⟨_, stream⟩ :: streams => by
    rw [readThen]
    refine needsBudget_readStream_bind fun next => ?_
    split
    · exact hstop
    · exact needsBudget_readThen hstop hlast streams

theorem needsBudget_next (hstop : NeedsBudget stop) (hlast : NeedsBudget last)
    (streams : List ((α : Type) × RecordStream α)) (next : Option String) :
    NeedsBudget (if isTruthy next then stop else readThen reader limit fuel id stop last streams) := by
  split
  · exact hstop
  · exact needsBudget_readThen hstop hlast streams

/-- What follows the last collection does not ask where it ended: where it
rejects, that was at its end. -/
theorem rejects_readThen_concat {stream : RecordStream α} {g : Option String → Method IndexFailure IndexState β}
    (hstop : NeedsBudget stop) (hg : ∀ next, NeedsBudget (g next)) :
    ∀ (streams : List ((α : Type) × RecordStream α)) (s : IndexState),
      Rejects (readThen reader limit fuel id stop (readStream reader limit fuel stream id >>= g) streams) s cs ↔
        Rejects (readThen reader limit fuel id stop (g none) (streams ++ [⟨α, stream⟩])) s cs
  | [], s => by
    have hlast : ∀ next, NeedsBudget (if isTruthy next then stop else g none) := by
      intro next
      split
      · exact hstop
      · exact hg none
    show Rejects (readStream reader limit fuel stream id >>= g) s cs ↔
      Rejects (readStream reader limit fuel stream id >>= fun next => if isTruthy next then stop else g none) s cs
    rw [rejects_readStream_bind hg, rejects_readStream_bind hlast]
    exact Iff.rfl
  | ⟨_, stream'⟩ :: streams, s => by
    rw [List.cons_append, readThen, readThen,
      rejects_readStream_bind (needsBudget_next hstop (needsBudget_readStream_bind hg) streams),
      rejects_readStream_bind (needsBudget_next hstop (hg none) _)]
    simp only [isTruthy, Option.any_none, Bool.false_eq_true, if_false, rejects_readThen_concat hstop hg streams]

theorem readings_setCursor {stream : RecordStream α} {streams : List ((α : Type) × RecordStream α)}
    (h : ∀ t ∈ streams, Apart ⟨α, stream⟩ t) (c : CompanyIndexingCheckpoint) (x : Option String) :
    readings reader limit fuel id (stream.setCursor c x) streams = readings reader limit fuel id c streams := by
  refine List.map_congr_left fun t ht => ?_
  have hcursor : t.2.cursor (stream.setCursor c x) = t.2.cursor c := h t ht c x
  rw [RecordStream.reading, RecordStream.reading, hcursor]

theorem After.refl (hs : Shares id s) : After id (clear []) 0 s s where
  companyCursor := rfl
  completed := rfl
  others _ := rfl
  own := rfl
  caller := (leave_eq_self_iff.mpr fun _ _ => rfl).symm
  budget := by simp
  shares := hs

/-- Where collections that are read reject, one of them does, or what follows. -/
theorem of_rejects_readThen (hstop : NeedsBudget stop) (hlast : NeedsBudget last) :
    ∀ (streams : List ((α : Type) × RecordStream α)) (s : IndexState), streams.Pairwise Apart → Shares id s →
      Rejects (readThen reader limit fuel id stop last streams) s cs →
        (∃ k, FailsAt (readings reader limit fuel id (s.companyCheckpoint id) streams) s.remainingPages k ∧
            cs = leave id (clear (streams.take k)) s.callerCursors) ∨
          ∃ n s', EndsAfter (readings reader limit fuel id (s.companyCheckpoint id) streams) n ∧
            After id (clear streams) n s s' ∧ Rejects last s' cs
  | [], s, _, hs, h => .inr ⟨0, s, rfl, .refl hs, h⟩
  | ⟨_, stream⟩ :: streams, s, hp, hs, h => by
    obtain ⟨hapart, hp⟩ := List.pairwise_cons.mp hp
    rw [readThen, rejects_readStream_bind (needsBudget_next hstop hlast streams)] at h
    rcases h with ⟨n, hn, hlt, hb, rfl⟩ | ⟨ps, hps, hlen, hrest⟩
    · refine .inl ⟨0, ⟨n, ⟨hn, hlt⟩, hb⟩, ?_⟩
      exact (leave_eq_self_iff.mpr fun _ _ => rfl).symm
    · have hafter := stream.after_readTo hs ps
      have hsame : readings reader limit fuel id ((stream.readTo id ps s).companyCheckpoint id) streams =
          readings reader limit fuel id (s.companyCheckpoint id) streams := by
        rw [hafter.own, readings_setCursor hapart]
      rcases of_rejects_readThen hstop hlast streams _ hp hafter.shares hrest with
        ⟨k, hk, rfl⟩ | ⟨n, s', hn, hafter', hlast'⟩
      · rw [hsame, hafter.budget] at hk
        refine .inl ⟨k + 1, ⟨ps.length, ⟨ps, hps, hlen, rfl⟩, hk⟩, ?_⟩
        rw [hafter.caller, leave_leave]
        rfl
      · rw [hsame] at hn
        exact .inr ⟨ps.length + n, s', ⟨ps.length, n, ⟨ps, hps, hlen, rfl⟩, hn, rfl⟩, hafter.trans hafter', hlast'⟩

/-- A collection that fails makes the call reject. -/
theorem rejects_readThen_of_failsAt (hstop : NeedsBudget stop) (hlast : NeedsBudget last) :
    ∀ (streams : List ((α : Type) × RecordStream α)) (s : IndexState) (k : Nat), streams.Pairwise Apart → Shares id s →
      FailsAt (readings reader limit fuel id (s.companyCheckpoint id) streams) s.remainingPages k →
        Rejects (readThen reader limit fuel id stop last streams) s (leave id (clear (streams.take k)) s.callerCursors)
  | ⟨_, stream⟩ :: streams, s, k, hp, hs, h => by
    obtain ⟨hapart, hp⟩ := List.pairwise_cons.mp hp
    rw [readThen, rejects_readStream_bind (needsBudget_next hstop hlast streams)]
    cases k with
    | zero =>
      obtain ⟨n, ⟨hn, hlt⟩, hb⟩ := h
      exact .inl ⟨n, hn, hlt, hb, leave_eq_self_iff.mpr fun _ _ => rfl⟩
    | succ k =>
      obtain ⟨_, ⟨ps, hps, hlen, rfl⟩, hk⟩ := h
      have hafter := stream.after_readTo hs ps
      have hrest := rejects_readThen_of_failsAt hstop hlast streams (stream.readTo id ps s) k hp hafter.shares
        (by rw [hafter.own, readings_setCursor hapart, hafter.budget]; exact hk)
      rw [hafter.caller, leave_leave] at hrest
      exact .inr ⟨ps, hps, hlen, hrest⟩

/-- After all collections comes what follows. -/
theorem rejects_readThen_of_endsAfter (hstop : NeedsBudget stop) (hlast : NeedsBudget last) :
    ∀ (streams : List ((α : Type) × RecordStream α)) (s : IndexState) (n : Nat), streams.Pairwise Apart → Shares id s →
      EndsAfter (readings reader limit fuel id (s.companyCheckpoint id) streams) n →
      (∀ s', After id (clear streams) n s s' → Rejects last s' cs) →
        Rejects (readThen reader limit fuel id stop last streams) s cs
  | [], s, n, _, hs, h, hrest => by
    obtain rfl : n = 0 := h
    exact hrest s (.refl hs)
  | ⟨_, stream⟩ :: streams, s, n, hp, hs, h, hrest => by
    obtain ⟨hapart, hp⟩ := List.pairwise_cons.mp hp
    obtain ⟨_, m, ⟨ps, hps, hlen, rfl⟩, hm, rfl⟩ := h
    have hafter := stream.after_readTo hs ps
    rw [readThen, rejects_readStream_bind (needsBudget_next hstop hlast streams)]
    refine .inr ⟨ps, hps, hlen, ?_⟩
    refine rejects_readThen_of_endsAfter hstop hlast streams _ m hp hafter.shares ?_ fun s' hafter' => ?_
    · rw [hafter.own, readings_setCursor hapart]
      exact hm
    · exact hrest s' (hafter.trans hafter')

end ReadThen

/-- What becomes of the caller's checkpoint of a company, `k` collections of
which were read to their ends. -/
def finished (k : Nat) (c : CompanyIndexingCheckpoint) : CompanyIndexingCheckpoint :=
  if k = 5 then { clear collections c with complete := some true } else clear (collections.take k) c

theorem lt_length_of_failsAt : ∀ {rs : List Reading} {b : Option Nat} {k : Nat}, FailsAt rs b k → k < rs.length
  | [], _, _, h => h.elim
  | _ :: rs, _, 0, _ => by simp
  | _ :: rs, _, k + 1, h => by
    obtain ⟨n, -, h⟩ := h
    have := lt_length_of_failsAt h
    rw [List.length_cons]
    omega

theorem finished_of_failsAt {c : CompanyIndexingCheckpoint} {b : Option Nat} {k : Nat}
    (hk : FailsAt (readings reader limit fuel id c collections) b k) : finished k = clear (collections.take k) := by
  have hlt := lt_length_of_failsAt hk
  rw [readings, List.length_map] at hlt
  exact funext fun c => if_neg (Nat.ne_of_lt hlt)

theorem After.write (hs : Shares id s) (g : CompanyIndexingCheckpoint → CompanyIndexingCheckpoint) :
    After id g 0 s (s.writeCompanyCheckpoint id (g (s.companyCheckpoint id))) where
  toFrame := frame_write rfl id _
  own := companyCheckpoint_write s id _
  caller := callerCursors_write hs g
  budget := by
    show s.remainingPages = _
    simp
  shares := shares_write id _

section Company

variable {company : IndexedCompany} {f : Bool → Method IndexFailure IndexState β}

/-- The company is complete, and what follows. -/
def thenComplete (id : String) (f : Bool → Method IndexFailure IndexState β) (next : Option String) :
    Method IndexFailure IndexState β := do
  modify fun s => s.writeCompanyCheckpoint id { s.companyCheckpoint id with complete := some next.isNone }
  f next.isNone

section

variable (hf : ∀ b, NeedsBudget (f b))
include hf

theorem needsBudget_thenComplete {id : String} (next : Option String) :
    NeedsBudget (thenComplete id f next) :=
  needsBudget_modify_bind (fun _ => rfl) (hf next.isNone)

/-- Indexing a company is reading its collections. -/
theorem rejects_indexCompany_bind : Rejects (indexCompany reader limit fuel company >>= f) s cs ↔
      Rejects (readThen reader limit fuel company.id (f false) (thenComplete company.id f none) collections)
        (s.writeCompanyCheckpoint company.id (s.companyCheckpoint company.id)) cs := by
  have heq : (indexCompany reader limit fuel company >>= f) s =
      readThen reader limit fuel company.id (f false)
        (readStream reader limit fuel auditPermissions company.id >>= thenComplete company.id f)
        [⟨_, employees⟩, ⟨_, payrollRuns⟩, ⟨_, events⟩, ⟨_, commitments⟩]
        (s.writeCompanyCheckpoint company.id (s.companyCheckpoint company.id)) := by
    have hite : ∀ (next : Option String) (m : Method IndexFailure IndexState Bool),
        (if isTruthy next then pure false else m) >>= f = if isTruthy next then f false else m >>= f := by
      intro next m
      split
      · rw [pure_bind]
      · rfl
    rw [indexCompany, bind_assoc, Method.modify_bind]
    simp only [bind_assoc, hite, pure_bind]
    rfl
  have hrejects : Rejects (indexCompany reader limit fuel company >>= f) s cs ↔
      Rejects (readThen reader limit fuel company.id (f false)
        (readStream reader limit fuel auditPermissions company.id >>= thenComplete company.id f)
        [⟨_, employees⟩, ⟨_, payrollRuns⟩, ⟨_, events⟩, ⟨_, commitments⟩])
        (s.writeCompanyCheckpoint company.id (s.companyCheckpoint company.id)) cs := by
    unfold Rejects
    rw [heq]
  rw [hrejects, rejects_readThen_concat (hf false) (needsBudget_thenComplete hf)]
  rfl

/-- Where the indexing of a company and what follows reject, one of its
collections does, or what follows when it is complete. -/
theorem of_rejects_indexCompany_bind (hs : Shares company.id s)
    (h : Rejects (indexCompany reader limit fuel company >>= f) s cs) :
    (∃ k, FailsAt (readings reader limit fuel company.id (s.companyCheckpoint company.id) collections)
        s.remainingPages k ∧ cs = leave company.id (finished k) s.callerCursors) ∨
      ∃ n s', EndsAfter (readings reader limit fuel company.id (s.companyCheckpoint company.id) collections) n ∧
        After company.id (finished 5) n s s' ∧ Rejects (f true) s' cs := by
  have hbegun := After.write hs id
  rw [rejects_indexCompany_bind hf] at h
  rcases of_rejects_readThen (hf false) (needsBudget_thenComplete hf none) collections _ collections_apart hbegun.shares
    h with ⟨k, hk, rfl⟩ | ⟨n, s', hn, hafter, hlast⟩
  · rw [companyCheckpoint_write] at hk
    refine .inl ⟨k, hk, ?_⟩
    rw [finished_of_failsAt hk]
    exact (congrArg _ hbegun.caller).trans leave_leave
  · rw [companyCheckpoint_write] at hn
    have hdone := After.write hafter.shares fun c => { c with complete := some true }
    have hall := (hbegun.trans hafter).trans hdone
    rw [Nat.add_zero, Nat.zero_add] at hall
    exact .inr ⟨n, _, hn, hall, hlast⟩

theorem rejects_indexCompany_of_failsAt (hs : Shares company.id s) {k : Nat}
    (hk : FailsAt (readings reader limit fuel company.id (s.companyCheckpoint company.id) collections)
      s.remainingPages k) :
    Rejects (indexCompany reader limit fuel company >>= f) s (leave company.id (finished k) s.callerCursors) := by
  have hbegun := After.write hs id
  have hleft : leave company.id (clear (collections.take k))
      (s.writeCompanyCheckpoint company.id (s.companyCheckpoint company.id)).callerCursors =
        leave company.id (clear (collections.take k)) s.callerCursors :=
    (congrArg _ hbegun.caller).trans leave_leave
  rw [rejects_indexCompany_bind hf, finished_of_failsAt hk, ← hleft]
  apply rejects_readThen_of_failsAt (hf false) (needsBudget_thenComplete hf none) collections _ k collections_apart
    hbegun.shares
  rw [companyCheckpoint_write]
  exact hk

theorem rejects_indexCompany_of_endsAfter (hs : Shares company.id s) {n : Nat}
    (hn : EndsAfter (readings reader limit fuel company.id (s.companyCheckpoint company.id) collections) n)
    (hrest : ∀ s', After company.id (finished 5) n s s' → Rejects (f true) s' cs) :
    Rejects (indexCompany reader limit fuel company >>= f) s cs := by
  have hbegun := After.write hs id
  rw [rejects_indexCompany_bind hf]
  refine rejects_readThen_of_endsAfter (hf false) (needsBudget_thenComplete hf none) collections _ n collections_apart
    hbegun.shares (by rw [companyCheckpoint_write]; exact hn) fun s' hafter => ?_
  have hdone := After.write hafter.shares fun c => { c with complete := some true }
  have hall := (hbegun.trans hafter).trans hdone
  rw [Nat.add_zero, Nat.zero_add] at hall
  exact hrest _ hall

end

end Company

end ZkPayroll.Indexer
