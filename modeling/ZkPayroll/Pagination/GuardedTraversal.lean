import ZkPayroll.Pagination.Guardrails

/-!
# What the guardrails promise

A traversal makes no more calls and yields no more records than it is allowed
to, never calls with a cursor again, and yields the records of the pages in
order (`Guarded`): one page keeps it (`Guarded.last`, `Guarded.next`), so the
loop has it (`guarded_traverse`). It ends normally exactly when the pages of the
source come to an end within the budgets and without a repeated cursor
(`Exhausts`, `keepsGuardrails_iterateGuardedPages`).
-/

namespace ZkPayroll.Pagination

open Framework ZkPayroll.Core

variable {ν T : Type}

/-! ## The items of a page -/

theorem yieldItems_of_le {maxRecords : Nat} : ∀ {items : List T} {n : Nat}, n + items.length ≤ maxRecords →
    yieldItems maxRecords n items = (items, .ok (n + items.length))
  | [], _, _ => rfl
  | item :: items, n, h => by
    rw [List.length_cons] at h
    rw [yieldItems, if_neg (by omega), yieldItems_of_le (by omega), List.length_cons]
    simp only [Nat.add_assoc, Nat.add_comm 1]

theorem yieldItems_of_lt {maxRecords : Nat} : ∀ {items : List T} {n : Nat}, n ≤ maxRecords →
    maxRecords < n + items.length →
    yieldItems maxRecords n items = (items.take (maxRecords - n), .error recordLimitError)
  | [], n, hn, h => by
    rw [List.length_nil] at h
    omega
  | item :: items, n, hn, h => by
    rw [List.length_cons] at h
    rcases Nat.lt_or_ge n maxRecords with hlt | hge
    · have hroom : maxRecords - n = maxRecords - (n + 1) + 1 := by omega
      rw [yieldItems, if_neg (by omega), yieldItems_of_lt (by omega) (by omega), hroom, List.take_succ_cons]
    · rw [yieldItems, if_pos hge, Nat.sub_eq_zero_of_le hge, List.take_zero]

/-! ## The pages of a source -/

/-- The value of `nextCursor` of a valid page. -/
def cursorValue : Option String → CursorValue
  | none => .undefined
  | some cursor => .string cursor

section Source

variable {source : PageSource ν T} {n : Nat} {result : FetchResult T} {page : Page T}

theorem of_receive_eq_ok (h : source.receive n result = .ok page) :
    source.abortedAfter n = false ∧ result = .page page.items (cursorValue page.nextCursor) ∧
      ∀ cursor ∈ page.nextCursor, cursor.length ≠ 0 := by
  have hassert (hne : ∀ e, result ≠ .rejected e) :
      source.abortedAfter n = false ∧ assertGuardedPage result = .ok page := by
    cases habort : source.abortedAfter n <;> cases result <;> simp_all [PageSource.receive]
  cases result with
  | rejected e => cases h
  | notAPage => cases (hassert (by simp)).2
  | page items cursor =>
    obtain ⟨habort, hpage⟩ := hassert (by simp)
    cases cursor with
    | undefined =>
      cases hpage
      exact ⟨habort, rfl, fun _ h => absurd h (Option.not_mem_none _)⟩
    | other => cases hpage
    | string cursor =>
      rw [assertGuardedPage] at hpage
      split at hpage
      · cases hpage
      · rename_i hne
        cases hpage
        refine ⟨habort, rfl, fun c hc => ?_⟩
        obtain rfl := Option.some.inj hc
        exact hne

theorem receive_page (habort : source.abortedAfter n = false) {items : List T} {next : Option String}
    (hnext : ∀ cursor ∈ next, cursor.length ≠ 0) :
    source.receive n (.page items (cursorValue next)) = .ok { items := items, nextCursor := next } := by
  have hassert : source.receive n (.page items (cursorValue next)) =
      assertGuardedPage (.page items (cursorValue next)) := by
    simp [PageSource.receive, habort]
  rw [hassert]
  cases next with
  | none => rfl
  | some cursor => exact if_neg (hnext cursor rfl)

end Source

variable (source : PageSource ν T) (limit : JsNumber ν)

/-- From call `n` on, the source comes to an end after these calls. -/
inductive Exhausts : Nat → Option String → List (Fetch T) → Prop
  | last {n : Nat} {cursor : Option String} {items : List T} (hbefore : source.abortedBefore n = false)
      (hresult : source.fetchPage n { cursor := cursor, limit := limit } = .page items .undefined)
      (hafter : source.abortedAfter n = false) :
      Exhausts n cursor [{ cursor := cursor, result := .page items .undefined }]
  | more {n : Nat} {cursor : Option String} {items : List T} {next : String} {fetches : List (Fetch T)}
      (hbefore : source.abortedBefore n = false)
      (hresult : source.fetchPage n { cursor := cursor, limit := limit } = .page items (.string next))
      (hafter : source.abortedAfter n = false) (hnext : next.length ≠ 0)
      (hrest : Exhausts (n + 1) (some next) fetches) :
      Exhausts n cursor ({ cursor := cursor, result := .page items (.string next) } :: fetches)

variable {source limit} in
/-- The first of the calls is with the cursor they start with. -/
theorem Exhausts.cursors {n : Nat} {cursor : Option String} {fetches : List (Fetch T)}
    (h : Exhausts source limit n cursor fetches) : ∃ cs, fetches.map Fetch.cursor = cursor :: cs := by
  cases h with
  | last => exact ⟨_, rfl⟩
  | more => exact ⟨_, rfl⟩

/-! ## Fresh cursors -/

/-- A cursor that was not called with before `cursor`, nor is it `cursor`. -/
def Unvisited (cursor : Option String) (seenCursors : List String) (c : Option String) : Prop :=
  ∃ s, c = some s ∧ some s ≠ cursor ∧ s ∉ seenCursors

/-- The calls start with `cursor`, and go on with other cursors. -/
def FreshFrom (cursor : Option String) (seenCursors : List String) : List (Option String) → Prop
  | [] => True
  | c :: cs => c = cursor ∧ cs.Nodup ∧ ∀ d ∈ cs, Unvisited cursor seenCursors d

variable {cursor : Option String} {seenCursors : List String} {cs : List (Option String)}

theorem FreshFrom.nodup (h : FreshFrom cursor seenCursors cs) : cs.Nodup := by
  cases cs with
  | nil => exact List.nodup_nil
  | cons c cs =>
    obtain ⟨rfl, hnodup, hunvisited⟩ := h
    refine List.nodup_cons.mpr ⟨fun hc => ?_, hnodup⟩
    obtain ⟨s, rfl, hne, -⟩ := hunvisited c hc
    exact hne rfl

/-- A cursor that is not repeated comes before the cursors that follow it. -/
theorem FreshFrom.next {next : String} (hnext : ¬(some next = cursor ∨ next ∈ seenCursors))
    (h : FreshFrom (some next) (cursor.toList ++ seenCursors) cs) :
    FreshFrom cursor seenCursors (cursor :: cs) := by
  rw [not_or] at hnext
  refine ⟨rfl, h.nodup, fun d hd => ?_⟩
  cases cs with
  | nil => cases hd
  | cons c cs =>
    obtain ⟨rfl, -, hunvisited⟩ := h
    rcases List.mem_cons.mp hd with rfl | hd
    · exact ⟨next, rfl, hnext⟩
    · obtain ⟨s, rfl, -, hs⟩ := hunvisited d hd
      rw [List.mem_append, not_or, Option.mem_toList] at hs
      exact ⟨s, rfl, fun h => hs.1 h.symm, hs.2⟩

/-- The cursors that follow one that is fresh. -/
theorem FreshFrom.tail {next : String} (h : FreshFrom cursor seenCursors (cursor :: some next :: cs)) :
    ¬(some next = cursor ∨ next ∈ seenCursors) ∧
      FreshFrom (some next) (cursor.toList ++ seenCursors) (some next :: cs) := by
  obtain ⟨-, hnodup, hunvisited⟩ := h
  obtain ⟨s, hs, hne, hseen⟩ := hunvisited (some next) List.mem_cons_self
  obtain rfl := Option.some.inj hs
  rw [List.nodup_cons] at hnodup
  refine ⟨not_or.mpr ⟨hne, hseen⟩, rfl, hnodup.2, fun d hd => ?_⟩
  obtain ⟨s, rfl, hs, hs'⟩ := hunvisited d (List.mem_cons_of_mem _ hd)
  refine ⟨s, rfl, fun h => hnodup.1 (h ▸ hd), ?_⟩
  rw [List.mem_append, not_or, Option.mem_toList]
  exact ⟨fun h => hs h.symm, hs'⟩

/-- At the start, the cursors are fresh if they are distinct. -/
theorem freshFrom_none (h : (none :: cs).Nodup) : FreshFrom none [] (none :: cs) := by
  rw [List.nodup_cons] at h
  refine ⟨rfl, h.2, fun d hd => ?_⟩
  obtain ⟨s, rfl⟩ := Option.ne_none_iff_exists'.mp fun hnone => h.1 (hnone ▸ hd)
  exact ⟨s, rfl, nofun, List.not_mem_nil⟩

/-! ## The loop -/

/-- What the guardrails promise of a traversal that starts with call `n`, may
make `remaining` calls and may yield `room` records. -/
structure Guarded (remaining room n : Nat) (cursor : Option String) (seenCursors : List String)
    (t : Traversal T) : Prop where
  fetches_le : t.fetches.length ≤ remaining
  yielded_le : t.yielded.length ≤ room
  fresh : FreshFrom cursor seenCursors (t.fetches.map Fetch.cursor)
  asked : ∀ i fetch, t.fetches[i]? = some fetch →
    fetch.result = source.fetchPage (n + i) { cursor := fetch.cursor, limit := limit }
  yielded_prefix : t.yielded <+: t.fetches.flatMap Fetch.items
  ended : t.outcome = .ok () → Exhausts source limit n cursor t.fetches ∧ t.yielded = t.fetches.flatMap Fetch.items

variable {source limit} {remaining room n : Nat}

theorem guarded_of_error (e : SdkError) :
    Guarded source limit remaining room n cursor seenCursors ({ outcome := .error e } : Traversal T) where
  fetches_le := Nat.zero_le _
  yielded_le := Nat.zero_le _
  fresh := trivial
  asked _ _ h := nomatch h
  yielded_prefix := List.nil_prefix
  ended h := nomatch h

/-- A page after which the traversal ends. -/
theorem Guarded.last {items : List T} {outcome : Except SdkError Unit}
    (hroom : items.length ≤ room) (hinitial : items <+: (source.fetchPage n { cursor := cursor, limit := limit }).items)
    (hended : outcome = .ok () → source.abortedBefore n = false ∧ source.abortedAfter n = false ∧
      source.fetchPage n { cursor := cursor, limit := limit } = .page items .undefined) :
    Guarded source limit (remaining + 1) room n cursor seenCursors
      (({ outcome := outcome } : Traversal T).after
        { cursor := cursor, result := source.fetchPage n { cursor := cursor, limit := limit } } items) where
  fetches_le := Nat.le_add_left 1 remaining
  yielded_le := by simpa [Traversal.after] using hroom
  fresh := ⟨rfl, List.nodup_nil, nofun⟩
  asked i fetch h := by
    cases i with
    | zero =>
      obtain rfl := Option.some.inj h
      rfl
    | succ i => cases h
  yielded_prefix := by simpa [Traversal.after, Fetch.items] using hinitial
  ended h := by
    obtain ⟨hbefore, hafter, hresult⟩ := hended h
    rw [Traversal.after, hresult]
    exact ⟨.last hbefore hresult hafter, by simp [Fetch.items, FetchResult.items]⟩

/-- A page after which the traversal goes on. -/
theorem Guarded.next {items : List T} {next : String} {t : Traversal T} (hbefore : source.abortedBefore n = false)
    (hafter : source.abortedAfter n = false)
    (hresult : source.fetchPage n { cursor := cursor, limit := limit } = .page items (.string next))
    (hne : next.length ≠ 0) (hroom : items.length ≤ room) (hnext : ¬(some next = cursor ∨ next ∈ seenCursors))
    (h : Guarded source limit remaining (room - items.length) (n + 1) (some next) (cursor.toList ++ seenCursors) t) :
    Guarded source limit (remaining + 1) room n cursor seenCursors
      (t.after { cursor := cursor, result := source.fetchPage n { cursor := cursor, limit := limit } } items) where
  fetches_le := Nat.succ_le_succ h.fetches_le
  yielded_le := by
    have hle := h.yielded_le
    rw [Traversal.after, List.length_append]
    omega
  fresh := h.fresh.next hnext
  asked i fetch hi := by
    cases i with
    | zero =>
      obtain rfl := Option.some.inj hi
      rfl
    | succ i =>
      rw [← Nat.add_assoc, Nat.add_right_comm]
      exact h.asked i fetch hi
  yielded_prefix := by
    rw [Traversal.after, List.flatMap_cons, Fetch.items, hresult]
    exact List.prefix_append_right_inj _ |>.mpr h.yielded_prefix
  ended hok := by
    obtain ⟨hrest, hall⟩ := h.ended hok
    rw [Traversal.after, hresult]
    exact ⟨.more hbefore hresult hafter hne hrest, by rw [hall]; rfl⟩

section Loop

variable {maxRecords yieldedRecords : Nat} {page : Page T} {fetched : FetchResult T}

/-- The loop after a page whose items are all yielded. -/
theorem traverse_page (hbefore : source.abortedBefore n = false)
    (hresult : source.fetchPage n { cursor := cursor, limit := limit } = fetched)
    (hreceive : source.receive n fetched = .ok page)
    (hle : yieldedRecords + page.items.length ≤ maxRecords) :
    traverse source limit maxRecords (remaining + 1) n cursor seenCursors yieldedRecords =
      match page.nextCursor with
      | none => ({ outcome := .ok () } : Traversal T).after { cursor := cursor, result := fetched } page.items
      | some next =>
        if some next = cursor ∨ next ∈ seenCursors then
          ({ outcome := .error repeatedCursorError } : Traversal T).after
            { cursor := cursor, result := fetched } page.items
        else
          (traverse source limit maxRecords remaining (n + 1) (some next) (cursor.toList ++ seenCursors)
            (yieldedRecords + page.items.length)).after { cursor := cursor, result := fetched } page.items := by
  cases hnext : page.nextCursor with
  | none => simp only [traverse, hbefore, hresult, hreceive, hnext, yieldItems_of_le hle, Bool.false_eq_true, if_false]
  | some next =>
    simp only [traverse, hbefore, hresult, hreceive, hnext, yieldItems_of_le hle, Bool.false_eq_true, if_false]

/-- The loop ends in a page that is too large. -/
theorem traverse_tooLarge (hbefore : source.abortedBefore n = false)
    (hreceive : source.receive n (source.fetchPage n { cursor := cursor, limit := limit }) = .ok page)
    (hcount : yieldedRecords ≤ maxRecords) (hlt : maxRecords < yieldedRecords + page.items.length) :
    traverse source limit maxRecords (remaining + 1) n cursor seenCursors yieldedRecords =
      ({ outcome := .error recordLimitError } : Traversal T).after
        { cursor := cursor, result := source.fetchPage n { cursor := cursor, limit := limit } }
        (page.items.take (maxRecords - yieldedRecords)) := by
  simp only [traverse, hbefore, hreceive, yieldItems_of_lt hcount hlt, Bool.false_eq_true, if_false]

/-- The loop ends with a call that fails. -/
theorem traverse_failed {e : SdkError} (hbefore : source.abortedBefore n = false)
    (hreceive : source.receive n (source.fetchPage n { cursor := cursor, limit := limit }) = .error e) :
    traverse source limit maxRecords (remaining + 1) n cursor seenCursors yieldedRecords =
      ({ outcome := .error e } : Traversal T).after
        { cursor := cursor, result := source.fetchPage n { cursor := cursor, limit := limit } } [] := by
  simp only [traverse, hbefore, hreceive, Bool.false_eq_true, if_false]

theorem traverse_aborted (hbefore : source.abortedBefore n = true) :
    traverse source limit maxRecords (remaining + 1) n cursor seenCursors yieldedRecords =
      { outcome := .error abortError } := by
  simp only [traverse, hbefore, if_true]

/-- Every page keeps the guardrails, so the loop has them. -/
theorem guarded_traverse (remaining n : Nat) (cursor : Option String) (seenCursors : List String)
    (hcount : yieldedRecords ≤ maxRecords) :
    Guarded source limit remaining (maxRecords - yieldedRecords) n cursor seenCursors
      (traverse source limit maxRecords remaining n cursor seenCursors yieldedRecords) := by
  induction remaining generalizing n cursor seenCursors yieldedRecords with
  | zero => exact guarded_of_error _
  | succ remaining ih =>
    cases hbefore : source.abortedBefore n with
    | true =>
      rw [traverse_aborted hbefore]
      exact guarded_of_error _
    | false =>
      cases hreceive : source.receive n (source.fetchPage n { cursor := cursor, limit := limit }) with
      | error e =>
        rw [traverse_failed hbefore hreceive]
        exact .last (Nat.zero_le _) List.nil_prefix fun h => nomatch h
      | ok page =>
        obtain ⟨items, next⟩ := page
        obtain ⟨hafter, hresult, hvalid⟩ := of_receive_eq_ok hreceive
        have hitems : items <+: (source.fetchPage n { cursor := cursor, limit := limit }).items := by
          rw [hresult]
          exact List.prefix_refl _
        rcases Nat.lt_or_ge maxRecords (yieldedRecords + items.length) with hlt | hle
        · rw [traverse_tooLarge hbefore hreceive hcount hlt]
          have hlen : (items.take (maxRecords - yieldedRecords)).length ≤ maxRecords - yieldedRecords :=
            List.length_take_le _ _
          exact .last hlen ((List.take_prefix _ _).trans hitems) fun h => nomatch h
        · have hroom : items.length ≤ maxRecords - yieldedRecords := by omega
          rw [traverse_page hbefore rfl hreceive hle]
          cases next with
          | none => exact .last hroom hitems fun _ => ⟨hbefore, hafter, hresult⟩
          | some next =>
            simp only
            split
            · exact .last hroom hitems fun h => nomatch h
            · rename_i hnext
              refine .next hbefore hafter hresult (hvalid next rfl) hroom hnext ?_
              rw [Nat.sub_sub]
              exact ih (n + 1) (some next) (cursor.toList ++ seenCursors) hle

/-- Where a call is made, one was allowed. -/
theorem exists_succ_of_cons_le {fetch : Fetch T} {fetches : List (Fetch T)} (h : (fetch :: fetches).length ≤ remaining) :
    ∃ k, remaining = k + 1 ∧ fetches.length ≤ k := by
  rw [List.length_cons] at h
  exact ⟨remaining - 1, by omega, by omega⟩

/-- A source that comes to an end within the budgets is traversed to its end. -/
theorem traverse_of_exhausts {fetches : List (Fetch T)} (h : Exhausts source limit n cursor fetches)
    (hpages : fetches.length ≤ remaining)
    (hrecords : yieldedRecords + (fetches.flatMap Fetch.items).length ≤ maxRecords)
    (hfresh : FreshFrom cursor seenCursors (fetches.map Fetch.cursor)) :
    traverse source limit maxRecords remaining n cursor seenCursors yieldedRecords =
      { fetches := fetches, yielded := fetches.flatMap Fetch.items, outcome := .ok () } := by
  induction h generalizing remaining seenCursors yieldedRecords with
  | @last n cursor items hbefore hresult hafter =>
    obtain ⟨remaining, rfl, -⟩ := exists_succ_of_cons_le hpages
    have hle : yieldedRecords + items.length ≤ maxRecords := by
      simpa [Fetch.items, FetchResult.items] using hrecords
    have hreceive : source.receive n (.page items (cursorValue none)) = .ok { items := items } :=
      receive_page hafter nofun
    rw [traverse_page hbefore hresult hreceive hle]
    simp [Traversal.after, Fetch.items, FetchResult.items]
  | @more n cursor items next fetches hbefore hresult hafter hnext hrest ih =>
    obtain ⟨remaining, rfl, hpages'⟩ := exists_succ_of_cons_le hpages
    have hvalid : ∀ c ∈ some next, c.length ≠ 0 := by
      rintro c hc
      obtain rfl := Option.some.inj hc
      exact hnext
    have hrecords' : yieldedRecords + items.length + (fetches.flatMap Fetch.items).length ≤ maxRecords := by
      simpa [Fetch.items, FetchResult.items, Nat.add_assoc] using hrecords
    obtain ⟨cs, hcs⟩ := hrest.cursors
    rw [List.map_cons, hcs] at hfresh
    obtain ⟨hnot, htail⟩ := hfresh.tail
    have hreceive : source.receive n (.page items (cursorValue (some next))) =
        .ok { items := items, nextCursor := some next } := receive_page hafter hvalid
    rw [traverse_page hbefore hresult hreceive (Nat.le_trans (Nat.le_add_right _ _) hrecords')]
    simp only
    rw [if_neg hnot, ih hpages' hrecords' (hcs ▸ htail)]
    rfl

end Loop

/-! ## The guardrails -/

/-- What a traversal under guardrails keeps to. -/
structure KeepsGuardrails (source : PageSource ν T) (guardrails : ResolvedPaginationGuardrails ν)
    (t : Traversal T) : Prop where
  fetches_le : t.fetches.length ≤ guardrails.maxPages
  yielded_le : t.yielded.length ≤ guardrails.maxRecords
  cursors_nodup : (t.fetches.map Fetch.cursor).Nodup
  /-- The calls are those of the source, in order. -/
  asked : ∀ i fetch, t.fetches[i]? = some fetch →
    fetch.result = source.fetchPage (1 + i) { cursor := fetch.cursor, limit := guardrails.maxPageSize }
  yielded_prefix : t.yielded <+: t.fetches.flatMap Fetch.items
  /-- It ends normally only at the end of the source, with all records. -/
  ended : t.outcome = .ok () →
    Exhausts source guardrails.maxPageSize 1 none t.fetches ∧ t.yielded = t.fetches.flatMap Fetch.items
  ended_iff : t.outcome = .ok () ↔ ∃ fetches, Exhausts source guardrails.maxPageSize 1 none fetches ∧
    fetches.length ≤ guardrails.maxPages ∧ (fetches.flatMap Fetch.items).length ≤ guardrails.maxRecords ∧
    (fetches.map Fetch.cursor).Nodup

theorem keepsGuardrails_traverse (source : PageSource ν T) (guardrails : ResolvedPaginationGuardrails ν) :
    KeepsGuardrails source guardrails
      (traverse source guardrails.maxPageSize guardrails.maxRecords guardrails.maxPages 1 none [] 0) := by
  have h : Guarded source guardrails.maxPageSize guardrails.maxPages guardrails.maxRecords 1 none []
      (traverse source guardrails.maxPageSize guardrails.maxRecords guardrails.maxPages 1 none [] 0) :=
    guarded_traverse guardrails.maxPages 1 none [] (Nat.zero_le _)
  refine ⟨h.fetches_le, h.yielded_le, h.fresh.nodup, h.asked, h.yielded_prefix, h.ended, fun hok => ?_, ?_⟩
  · obtain ⟨hexhausts, hall⟩ := h.ended hok
    exact ⟨_, hexhausts, h.fetches_le, hall ▸ h.yielded_le, h.fresh.nodup⟩
  · rintro ⟨fetches, hexhausts, hpages, hrecords, hnodup⟩
    obtain ⟨cs, hcs⟩ := hexhausts.cursors
    rw [hcs] at hnodup
    rw [traverse_of_exhausts hexhausts hpages (by omega) (hcs ▸ freshFrom_none hnodup)]

/-- Whatever the source answers, the traversal keeps to its guardrails; with
options that are refused, nothing is fetched. -/
theorem keepsGuardrails_iterateGuardedPages [CommRing ν] [LinearOrder ν] [FloorRing ν] (source : PageSource ν T)
    (options : PaginationGuardrailOptions ν) :
    match resolvePaginationGuardrails options with
    | .error e => iterateGuardedPages (some source) options = { outcome := .error e }
    | .ok guardrails => KeepsGuardrails source guardrails (iterateGuardedPages (some source) options) := by
  cases h : resolvePaginationGuardrails options with
  | error e => simp only [iterateGuardedPages, h]
  | ok guardrails =>
    simp only [iterateGuardedPages, h]
    exact keepsGuardrails_traverse source guardrails

end ZkPayroll.Pagination
