import ZkPayroll.Pagination.GuardedTraversal

/-!
# Iterating payroll periods

`iteratePayrollPeriods` of `periodPagination.ts`. A loop that starts at
`options.cursor` remembers the cursors that it is given (`seen`), but not the
one it starts with. A source that leads back there is called with it a second
time (`ComesBack`), and otherwise with no cursor twice
(`visitsOnce_iteratePayrollPeriods_iff`).

The cursors that follow the first are distinct, but one of them may be the first
(`Follows`). The loop has that (`visits_periodPages`), so a cursor that is called
with twice is the one the loop starts with, and the pages in between lead back
to it (`Leads`, `Visits.nodup_or_back`). Where they do, the loop goes along
(`cursors_of_leads`).
-/

namespace ZkPayroll.Payroll

open Framework ZkPayroll.Core Pagination

variable {ν T : Type}

/-! ## Options -/

structure PayrollPeriodPaginationOptions (ν : Type) where
  pageSize : Option (JsNumber ν) := none
  maxPages : Option (JsNumber ν) := none
  cursor : Option String := none

/-- The options that `resolveOptions` returns. -/
structure ResolvedPeriodPagination where
  pageSize : Nat
  maxPages : Nat
  pageSize_pos : 0 < pageSize
  pageSize_le : pageSize ≤ 100
  maxPages_pos : 0 < maxPages

section Ranges

variable {pageSize maxPages : Int}

theorem pageSize_pos_of_range (h : ¬(pageSize < 1 ∨ pageSize > 100)) : 0 < pageSize.toNat := by
  omega

theorem pageSize_le_of_range (h : ¬(pageSize < 1 ∨ pageSize > 100)) : pageSize.toNat ≤ 100 := by
  omega

theorem maxPages_pos_of_range (h : ¬maxPages < 1) : 0 < maxPages.toNat := by
  omega

end Ranges

def resolveOptions [Ring ν] [LinearOrder ν] [FloorRing ν] (options : PayrollPeriodPaginationOptions ν) :
    Except SdkError ResolvedPeriodPagination :=
  match (options.pageSize.getD (.finite ((50 : Nat) : ν))).toInteger with
  | none => .error (rangeError "Payroll period pageSize must be an integer between 1 and 100.")
  | some pageSize =>
    if hsize : pageSize < 1 ∨ pageSize > 100 then
      .error (rangeError "Payroll period pageSize must be an integer between 1 and 100.")
    else
      match (options.maxPages.getD (.finite ((100 : Nat) : ν))).toInteger with
      | none => .error (rangeError "Payroll period maxPages must be a positive integer.")
      | some maxPages =>
        if hpages : maxPages < 1 then .error (rangeError "Payroll period maxPages must be a positive integer.")
        else
          .ok {
            pageSize := pageSize.toNat
            maxPages := maxPages.toNat
            pageSize_pos := pageSize_pos_of_range hsize
            pageSize_le := pageSize_le_of_range hsize
            maxPages_pos := maxPages_pos_of_range hpages }

/-- The page size, as a number. -/
def ResolvedPeriodPagination.limit [NatCast ν] (options : ResolvedPeriodPagination) : JsNumber ν :=
  .finite (options.pageSize : ν)

/-! ## Pages -/

def assertPage : FetchResult T → Except SdkError (Page T)
  | .rejected e => .error e
  | .notAPage => .error (typeError "Payroll period fetcher returned an invalid page.")
  | .page items .undefined => .ok { items := items }
  | .page items (.string cursor) =>
    if cursor.length = 0 then .error (typeError "Payroll period fetcher returned an invalid next cursor.")
    else .ok { items := items, nextCursor := some cursor }
  | .page _ .other => .error (typeError "Payroll period fetcher returned an invalid next cursor.")

/-- What a call comes to for the loop, which asks for an abort before it looks
at the page. -/
def receivePage (source : PageSource ν T) (page : Nat) : FetchResult T → Except SdkError (Page T)
  | .rejected e => .error e
  | result => if source.abortedAfter page then .error abortError else assertPage result

/-! ## The loop -/

def periodRepeatedCursorError : SdkError := genericError "Payroll period pagination returned a repeated cursor."

def periodPageLimitError : SdkError :=
  genericError "Payroll period pagination exceeded the configured page limit."

section Loop

variable (source : PageSource ν T) (limit : JsNumber ν)

/-- The loop, with the number of pages that may still be fetched. -/
def periodPages : Nat → Nat → Option String → List String → Traversal T
  | 0, _, _, _ => { outcome := .error periodPageLimitError }
  | remaining + 1, page, cursor, seen =>
    if source.abortedBefore page then { outcome := .error abortError }
    else
      let result := source.fetchPage page { cursor := cursor, limit := limit }
      let fetch := { cursor := cursor, result := result }
      match receivePage source page result with
      | .error e => ({ outcome := .error e } : Traversal T).after fetch []
      | .ok { items, nextCursor := none } => ({ outcome := .ok () } : Traversal T).after fetch items
      | .ok { items, nextCursor := some next } =>
        if some next = cursor ∨ next ∈ seen then
          ({ outcome := .error periodRepeatedCursorError } : Traversal T).after fetch items
        else (periodPages remaining (page + 1) (some next) (next :: seen)).after fetch items

end Loop

/-- What a consumer that reads to the end sees. -/
def iteratePayrollPeriods [Ring ν] [LinearOrder ν] [FloorRing ν] (source : PageSource ν T)
    (options : PayrollPeriodPaginationOptions ν) : Traversal T :=
  match resolveOptions options with
  | .error e => { outcome := .error e }
  | .ok resolved => periodPages source resolved.limit resolved.maxPages 0 options.cursor []

/-! ## Pages that are taken -/

section Source

variable {source : PageSource ν T} {n : Nat} {result : FetchResult T} {page : Page T}

/-- The loop takes the pages that a guarded traversal takes. -/
theorem receivePage_eq_ok_iff : receivePage source n result = .ok page ↔ source.receive n result = .ok page := by
  cases result with
  | rejected e => rfl
  | notAPage =>
    cases habort : source.abortedAfter n with
    | true => simp [receivePage, PageSource.receive, habort]
    | false => simp [receivePage, PageSource.receive, habort, assertPage, assertGuardedPage]
  | page items cursor =>
    cases habort : source.abortedAfter n with
    | true => simp [receivePage, PageSource.receive, habort]
    | false =>
      simp only [receivePage, PageSource.receive, habort, Bool.false_eq_true, if_false]
      cases cursor with
      | undefined => rfl
      | other => simp [assertPage, assertGuardedPage]
      | string cursor =>
        rw [assertPage, assertGuardedPage]
        split
        · simp
        · rfl

theorem receivePage_next {items : List T} {next : String} (hafter : source.abortedAfter n = false)
    (hne : next.length ≠ 0) :
    receivePage source n (.page items (.string next)) = .ok { items := items, nextCursor := some next } := by
  have hreceive : source.receive n (.page items (cursorValue (some next))) =
      .ok { items := items, nextCursor := some next } := by
    refine receive_page hafter fun c hc => ?_
    obtain rfl := Option.some.inj hc
    exact hne
  exact receivePage_eq_ok_iff.mpr hreceive

end Source

variable (source : PageSource ν T) (limit : JsNumber ν)

/-- The periods of the pages that are taken, call by call. -/
def takenItems : Nat → List (Fetch T) → List T
  | _, [] => []
  | n, fetch :: fetches =>
    match receivePage source n fetch.result with
    | .error _ => takenItems (n + 1) fetches
    | .ok page => page.items ++ takenItems (n + 1) fetches

/-- The calls with the cursors `cs`, from call `n` on, are answered with pages
that lead on to `next`. -/
inductive Leads : Nat → Option String → List (Option String) → String → Prop
  | last {n : Nat} {cursor : Option String} {items : List T} {next : String} (hbefore : source.abortedBefore n = false)
      (hresult : source.fetchPage n { cursor := cursor, limit := limit } = .page items (.string next))
      (hafter : source.abortedAfter n = false) (hnext : next.length ≠ 0) : Leads n cursor [cursor] next
  | more {n : Nat} {cursor : Option String} {items : List T} {c next : String} {cs : List (Option String)}
      (hbefore : source.abortedBefore n = false)
      (hresult : source.fetchPage n { cursor := cursor, limit := limit } = .page items (.string c))
      (hafter : source.abortedAfter n = false) (hc : c.length ≠ 0) (hrest : Leads (n + 1) (some c) cs next) :
      Leads n cursor (cursor :: cs) next

variable {source limit} in
/-- The first of the calls is with the cursor they start with. -/
theorem Leads.cursors {n : Nat} {cursor : Option String} {cs : List (Option String)} {next : String}
    (h : Leads source limit n cursor cs next) : ∃ ds, cs = cursor :: ds := by
  cases h with
  | last => exact ⟨_, rfl⟩
  | more => exact ⟨_, rfl⟩

/-! ## Distinct but for the first -/

/-- The calls start with `cursor`, and the cursors that follow are distinct and
not seen before. -/
def Follows (cursor : Option String) (seen : List String) : List (Option String) → Prop
  | [] => True
  | c :: cs => c = cursor ∧ cs.Nodup ∧ (∀ d ∈ cs, ∃ s, d = some s ∧ s ∉ seen) ∧ cs.head? ≠ some cursor

variable {cursor : Option String} {seen : List String} {cs : List (Option String)}

theorem Follows.next {next : String} (hnext : ¬(some next = cursor ∨ next ∈ seen))
    (h : Follows (some next) (next :: seen) cs) : Follows cursor seen (cursor :: cs) := by
  rw [not_or] at hnext
  cases cs with
  | nil => exact ⟨rfl, List.nodup_nil, nofun, nofun⟩
  | cons c cs =>
    obtain ⟨rfl, hnodup, hunseen, -⟩ := h
    have hfirst : some next ∉ cs := by
      intro hmem
      obtain ⟨s, hs, hnot⟩ := hunseen _ hmem
      obtain rfl := Option.some.inj hs
      exact hnot List.mem_cons_self
    refine ⟨rfl, List.nodup_cons.mpr ⟨hfirst, hnodup⟩, fun d hd => ?_, fun hhead => hnext.1 (Option.some.inj hhead)⟩
    rcases List.mem_cons.mp hd with rfl | hd
    · exact ⟨next, rfl, hnext.2⟩
    · obtain ⟨s, hs, hnot⟩ := hunseen d hd
      exact ⟨s, hs, fun hmem => hnot (List.mem_cons_of_mem _ hmem)⟩

/-- Cursors of which one occurs twice begin with distinct ones between the first
and a second occurrence of it. -/
theorem Follows.nodup_or_back (h : Follows cursor seen cs) :
    cs.Nodup ∨ ∃ between post, cs = cursor :: between ++ cursor :: post ∧ between ≠ [] ∧ (cursor :: between).Nodup := by
  cases cs with
  | nil => exact .inl List.nodup_nil
  | cons c cs =>
    obtain ⟨rfl, hnodup, -, hhead⟩ := h
    by_cases hmem : c ∈ cs
    · right
      obtain ⟨between, post, rfl⟩ := List.append_of_mem hmem
      rw [List.nodup_append] at hnodup
      refine ⟨between, post, rfl, ?_, List.nodup_cons.mpr ⟨fun hc => ?_, hnodup.1⟩⟩
      · rintro rfl
        exact hhead rfl
      · exact hnodup.2.2 c hc c List.mem_cons_self rfl
    · exact .inl (List.nodup_cons.mpr ⟨hmem, hnodup⟩)

/-! ## The loop -/

/-- What holds of a loop that starts with call `n`. -/
structure Visits (remaining n : Nat) (cursor : Option String) (seen : List String) (t : Traversal T) : Prop where
  fetches_le : t.fetches.length ≤ remaining
  follows : Follows cursor seen (t.fetches.map Fetch.cursor)
  leads : ∀ pre d post, t.fetches.map Fetch.cursor = pre ++ d :: post → pre ≠ [] →
    source.abortedBefore (n + pre.length) = false ∧ ∃ s, d = some s ∧ Leads source limit n cursor pre s
  asked : ∀ i fetch, t.fetches[i]? = some fetch →
    fetch.result = source.fetchPage (n + i) { cursor := fetch.cursor, limit := limit }
  yielded_eq : t.yielded = takenItems source n t.fetches
  ended : t.outcome = .ok () → Exhausts source limit n cursor t.fetches

variable {source limit} {remaining n : Nat}

theorem visits_of_error (e : SdkError) :
    Visits source limit remaining n cursor seen ({ outcome := .error e } : Traversal T) where
  fetches_le := Nat.zero_le _
  follows := trivial
  leads pre d post h _ := by
    exact absurd h (List.append_ne_nil_of_right_ne_nil pre (List.cons_ne_nil d post)).symm
  asked _ _ h := nomatch h
  yielded_eq := rfl
  ended h := nomatch h

/-- The calls of a page that is not taken, or after which the loop ends. -/
theorem Visits.last {items : List T} {outcome : Except SdkError Unit}
    (htaken : takenItems source n
      [{ cursor := cursor, result := source.fetchPage n { cursor := cursor, limit := limit } }] = items)
    (hended : outcome = .ok () → source.abortedBefore n = false ∧ source.abortedAfter n = false ∧
      source.fetchPage n { cursor := cursor, limit := limit } = .page items .undefined) :
    Visits source limit (remaining + 1) n cursor seen
      (({ outcome := outcome } : Traversal T).after
        { cursor := cursor, result := source.fetchPage n { cursor := cursor, limit := limit } } items) where
  fetches_le := Nat.le_add_left 1 remaining
  follows := ⟨rfl, List.nodup_nil, nofun, nofun⟩
  leads pre d post h hpre := by
    have hlen := congrArg List.length h
    have hpos := List.length_pos_of_ne_nil hpre
    simp only [Traversal.after, List.map_cons, List.map_nil, List.length_cons, List.length_nil,
      List.length_append] at hlen
    omega
  asked i fetch h := by
    cases i with
    | zero =>
      obtain rfl := Option.some.inj h
      rfl
    | succ i => cases h
  yielded_eq := by
    show items ++ [] = _
    rw [List.append_nil, ← htaken]
    rfl
  ended h := by
    obtain ⟨hbefore, hafter, hresult⟩ := hended h
    rw [Traversal.after, hresult]
    exact .last hbefore hresult hafter

/-- A page after which the loop goes on. -/
theorem Visits.next {items : List T} {next : String} {t : Traversal T} (hbefore : source.abortedBefore n = false)
    (hafter : source.abortedAfter n = false)
    (hresult : source.fetchPage n { cursor := cursor, limit := limit } = .page items (.string next))
    (hne : next.length ≠ 0) (hnext : ¬(some next = cursor ∨ next ∈ seen))
    (hstart : t.fetches ≠ [] → source.abortedBefore (n + 1) = false)
    (h : Visits source limit remaining (n + 1) (some next) (next :: seen) t) :
    Visits source limit (remaining + 1) n cursor seen
      (t.after { cursor := cursor, result := source.fetchPage n { cursor := cursor, limit := limit } } items) where
  fetches_le := Nat.succ_le_succ h.fetches_le
  follows := h.follows.next hnext
  leads pre d post heq hpre := by
    obtain ⟨c, pre, rfl⟩ := List.exists_cons_of_ne_nil hpre
    rw [Traversal.after, List.map_cons, List.cons_append, List.cons.injEq] at heq
    obtain ⟨rfl, heq⟩ := heq
    cases pre with
    | nil =>
      have hfirst := h.follows
      rw [heq, List.nil_append] at hfirst
      have hsome : t.fetches ≠ [] := by
        intro hnil
        rw [hnil] at heq
        cases heq
      exact ⟨hstart hsome, next, hfirst.1, .last hbefore hresult hafter hne⟩
    | cons c pre =>
      obtain ⟨hrest, s, hs, hleads⟩ := h.leads (c :: pre) d post heq (List.cons_ne_nil c pre)
      rw [Nat.add_assoc, Nat.add_comm 1] at hrest
      exact ⟨hrest, s, hs, .more hbefore hresult hafter hne hleads⟩
  asked i fetch hi := by
    cases i with
    | zero =>
      obtain rfl := Option.some.inj hi
      rfl
    | succ i =>
      rw [← Nat.add_assoc, Nat.add_right_comm]
      exact h.asked i fetch hi
  yielded_eq := by
    rw [Traversal.after, takenItems, hresult, receivePage_next hafter hne, h.yielded_eq]
  ended hok := by
    rw [Traversal.after, hresult]
    exact .more hbefore hresult hafter hne (h.ended hok)

section Loop

variable {page : Page T}

theorem periodPages_aborted (hbefore : source.abortedBefore n = true) :
    periodPages source limit (remaining + 1) n cursor seen = { outcome := .error abortError } := by
  simp only [periodPages, hbefore, if_true]

/-- The loop ends with a call whose page is not taken. -/
theorem periodPages_failed {e : SdkError} (hbefore : source.abortedBefore n = false)
    (hreceive : receivePage source n (source.fetchPage n { cursor := cursor, limit := limit }) = .error e) :
    periodPages source limit (remaining + 1) n cursor seen =
      ({ outcome := .error e } : Traversal T).after
        { cursor := cursor, result := source.fetchPage n { cursor := cursor, limit := limit } } [] := by
  simp only [periodPages, hbefore, hreceive, Bool.false_eq_true, if_false]

theorem periodPages_page {items : List T} {next : Option String} (hbefore : source.abortedBefore n = false)
    (hreceive : receivePage source n (source.fetchPage n { cursor := cursor, limit := limit }) =
      .ok { items := items, nextCursor := next }) :
    periodPages source limit (remaining + 1) n cursor seen =
      match next with
      | none =>
        ({ outcome := .ok () } : Traversal T).after
          { cursor := cursor, result := source.fetchPage n { cursor := cursor, limit := limit } } items
      | some next =>
        if some next = cursor ∨ next ∈ seen then
          ({ outcome := .error periodRepeatedCursorError } : Traversal T).after
            { cursor := cursor, result := source.fetchPage n { cursor := cursor, limit := limit } } items
        else
          (periodPages source limit remaining (n + 1) (some next) (next :: seen)).after
            { cursor := cursor, result := source.fetchPage n { cursor := cursor, limit := limit } } items := by
  cases next with
  | none => simp only [periodPages, hbefore, hreceive, Bool.false_eq_true, if_false]
  | some next => simp only [periodPages, hbefore, hreceive, Bool.false_eq_true, if_false]

/-- A loop that makes a call was not aborted before it. -/
theorem abortedBefore_of_fetches (h : (periodPages source limit remaining n cursor seen).fetches ≠ []) :
    source.abortedBefore n = false := by
  cases remaining with
  | zero => exact absurd rfl h
  | succ remaining =>
    cases hbefore : source.abortedBefore n with
    | false => rfl
    | true =>
      rw [periodPages_aborted hbefore] at h
      exact absurd rfl h

/-- Every page keeps it, so the loop has it. -/
theorem visits_periodPages (remaining n : Nat) (cursor : Option String) (seen : List String) :
    Visits source limit remaining n cursor seen (periodPages source limit remaining n cursor seen) := by
  induction remaining generalizing n cursor seen with
  | zero => exact visits_of_error _
  | succ remaining ih =>
    cases hbefore : source.abortedBefore n with
    | true =>
      rw [periodPages_aborted hbefore]
      exact visits_of_error _
    | false =>
      cases hreceive : receivePage source n (source.fetchPage n { cursor := cursor, limit := limit }) with
      | error e =>
        rw [periodPages_failed hbefore hreceive]
        refine .last ?_ fun h => nomatch h
        simp only [takenItems, hreceive]
      | ok page =>
        obtain ⟨items, next⟩ := page
        obtain ⟨hafter, hresult, hvalid⟩ := of_receive_eq_ok (receivePage_eq_ok_iff.mp hreceive)
        have htaken : takenItems source n
            [{ cursor := cursor, result := source.fetchPage n { cursor := cursor, limit := limit } }] = items := by
          simp only [takenItems, hreceive, List.append_nil]
        rw [periodPages_page hbefore hreceive]
        cases next with
        | none => exact .last htaken fun _ => ⟨hbefore, hafter, hresult⟩
        | some next =>
          simp only
          split
          · exact .last htaken fun h => nomatch h
          · rename_i hnext
            exact .next hbefore hafter hresult (hvalid next rfl) hnext abortedBefore_of_fetches
              (ih (n + 1) (some next) (next :: seen))

/-- A loop that goes on begins with its cursor. -/
theorem cursors_periodPages (hbefore : source.abortedBefore n = false) :
    ∃ post, (periodPages source limit (remaining + 1) n cursor seen).fetches.map Fetch.cursor = cursor :: post := by
  cases hreceive : receivePage source n (source.fetchPage n { cursor := cursor, limit := limit }) with
  | error e =>
    rw [periodPages_failed hbefore hreceive]
    exact ⟨[], rfl⟩
  | ok page =>
    obtain ⟨items, next⟩ := page
    rw [periodPages_page hbefore hreceive]
    cases next with
    | none => exact ⟨[], rfl⟩
    | some next =>
      simp only
      split
      · exact ⟨[], rfl⟩
      · exact ⟨_, rfl⟩

/-- The loop after a page that leads on to a cursor that it does not stop at. -/
theorem cursors_periodPages_next {items : List T} {next : String} (hbefore : source.abortedBefore n = false)
    (hresult : source.fetchPage n { cursor := cursor, limit := limit } = .page items (.string next))
    (hafter : source.abortedAfter n = false) (hne : next.length ≠ 0) (hnext : ¬(some next = cursor ∨ next ∈ seen)) :
    (periodPages source limit (remaining + 1) n cursor seen).fetches.map Fetch.cursor =
      cursor :: (periodPages source limit remaining (n + 1) (some next) (next :: seen)).fetches.map Fetch.cursor := by
  have hreceive : receivePage source n (.page items (.string next)) =
      .ok { items := items, nextCursor := some next } := receivePage_next hafter hne
  rw [← hresult] at hreceive
  rw [periodPages_page hbefore hreceive]
  simp only
  rw [if_neg hnext]
  rfl

/-- The loop goes along distinct cursors that it has not seen, and calls with
the one that they lead to. -/
theorem cursors_of_leads {next : String} (h : Leads source limit n cursor cs next) (hnodup : cs.Nodup)
    (hunseen : ∀ s ∈ seen, some s ∉ cs.tail) (hnext : next ∉ seen) (htail : some next ∉ cs.tail)
    (hlast : cs.getLast? ≠ some (some next)) (hbefore : source.abortedBefore (n + cs.length) = false)
    (hlen : cs.length < remaining) :
    ∃ post, (periodPages source limit remaining n cursor seen).fetches.map Fetch.cursor = cs ++ some next :: post := by
  induction h generalizing remaining seen with
  | @last n cursor items next hcall hresult hafter hne =>
    obtain ⟨k, rfl⟩ : ∃ k, remaining = k + 2 := ⟨remaining - 2, by rw [List.length_singleton] at hlen; omega⟩
    have hfresh : ¬(some next = cursor ∨ next ∈ seen) := by
      rw [not_or]
      refine ⟨fun heq => hlast ?_, hnext⟩
      rw [heq]
      rfl
    have hstart : ∃ post, (periodPages source limit (k + 1) (n + 1) (some next) (next :: seen)).fetches.map
        Fetch.cursor = some next :: post := cursors_periodPages hbefore
    obtain ⟨post, hpost⟩ := hstart
    exact ⟨post, by rw [cursors_periodPages_next hcall hresult hafter hne hfresh, hpost]; rfl⟩
  | @more n cursor items c next cs hcall hresult hafter hc hrest ih =>
    obtain ⟨k, rfl⟩ : ∃ k, remaining = k + 1 := ⟨remaining - 1, by omega⟩
    obtain ⟨ds, rfl⟩ := hrest.cursors
    rw [List.length_cons] at hlen hbefore
    rw [List.tail_cons, List.mem_cons, not_or] at htail
    rw [List.getLast?_cons_cons] at hlast
    obtain ⟨hcursor, hnodup⟩ := List.nodup_cons.mp hnodup
    have hcd := (List.nodup_cons.mp hnodup).1
    have hseen : c ∉ seen := fun hmem => hunseen c hmem List.mem_cons_self
    have hfresh : ¬(some c = cursor ∨ c ∈ seen) := by
      rw [not_or]
      exact ⟨fun heq => hcursor (heq ▸ List.mem_cons_self), hseen⟩
    have hunseen' : ∀ s ∈ c :: seen, some s ∉ ds := by
      intro s hs
      rcases List.mem_cons.mp hs with rfl | hs
      · exact hcd
      · exact fun hmem => hunseen s hs (List.mem_cons_of_mem _ hmem)
    have hnext' : next ∉ c :: seen := by
      rw [List.mem_cons, not_or]
      exact ⟨fun heq => htail.1 (congrArg some heq), hnext⟩
    have hbefore' : source.abortedBefore (n + 1 + (some c :: ds).length) = false := by
      rw [Nat.add_assoc, Nat.add_comm 1]
      exact hbefore
    have hlen' : (some c :: ds).length < k := by omega
    obtain ⟨post, hpost⟩ := ih hnodup hunseen' hnext' htail.2 hlast hbefore' hlen'
    exact ⟨post, by rw [cursors_periodPages_next hcall hresult hafter hc hfresh, hpost]; rfl⟩

end Loop

/-! ## No cursor twice -/

section Options

variable [Ring ν] [LinearOrder ν] [FloorRing ν]

/-- What a consumer is promised: no cursor is called with twice, the calls are
those of the source and no more than allowed, the periods of each page that is
taken are yielded in order, once, and a normal end is that of the source. -/
structure VisitsOnce (source : PageSource ν T) (options : PayrollPeriodPaginationOptions ν) (t : Traversal T) :
    Prop where
  cursors_nodup : (t.fetches.map Fetch.cursor).Nodup
  asked : ∀ i fetch, t.fetches[i]? = some fetch → ∃ resolved, resolveOptions options = .ok resolved ∧
    i < resolved.maxPages ∧ fetch.result = source.fetchPage i { cursor := fetch.cursor, limit := resolved.limit }
  yielded_eq : t.yielded = takenItems source 0 t.fetches
  ended : t.outcome = .ok () →
    ∃ resolved, resolveOptions options = .ok resolved ∧ Exhausts source resolved.limit 0 options.cursor t.fetches

/-- From the cursor that the caller starts with the source leads, through other
cursors, back to it, and one more call is allowed. -/
def ComesBack (source : PageSource ν T) (options : PayrollPeriodPaginationOptions ν) : Prop :=
  ∃ resolved start between, resolveOptions options = .ok resolved ∧ options.cursor = some start ∧
    between ≠ [] ∧ (some start :: between).Nodup ∧
    Leads source resolved.limit 0 (some start) (some start :: between) start ∧
    source.abortedBefore (between.length + 1) = false ∧ between.length + 1 < resolved.maxPages

theorem visitsOnce_of_not_comesBack {options : PayrollPeriodPaginationOptions ν} (h : ¬ComesBack source options) :
    VisitsOnce source options (iteratePayrollPeriods source options) := by
  cases hoptions : resolveOptions options with
  | error e =>
    simp only [iteratePayrollPeriods, hoptions]
    exact ⟨List.nodup_nil, by simp, rfl, by simp⟩
  | ok resolved =>
    simp only [iteratePayrollPeriods, hoptions]
    have hvisits : Visits source resolved.limit resolved.maxPages 0 options.cursor []
      (periodPages source resolved.limit resolved.maxPages 0 options.cursor []) := visits_periodPages _ _ _ _
    refine ⟨?_, fun i fetch hi => ⟨resolved, hoptions, ?_, ?_⟩, hvisits.yielded_eq,
      fun hok => ⟨resolved, hoptions, hvisits.ended hok⟩⟩
    · obtain hnodup | ⟨between, post, heq, hne, hnodup⟩ := hvisits.follows.nodup_or_back
      · exact hnodup
      · obtain ⟨hbefore, start, hstart, hleads⟩ := hvisits.leads _ _ _ heq (List.cons_ne_nil _ _)
        have hlen := congrArg List.length heq
        have hle := hvisits.fetches_le
        rw [List.length_map] at hlen
        simp only [List.length_append, List.length_cons] at hlen
        rw [Nat.zero_add] at hbefore
        rw [hstart] at hleads hnodup
        exact absurd ⟨resolved, start, between, hoptions, hstart, hne, hnodup, hleads, hbefore, by omega⟩ h
    · exact Nat.lt_of_lt_of_le (List.getElem?_eq_some_iff.mp hi).1 hvisits.fetches_le
    · have hasked := hvisits.asked i fetch hi
      rw [Nat.zero_add] at hasked
      exact hasked

/-- No cursor is called with twice just if the source does not lead back to the
cursor that the caller starts with. -/
theorem visitsOnce_iteratePayrollPeriods_iff (source : PageSource ν T) (options : PayrollPeriodPaginationOptions ν) :
    VisitsOnce source options (iteratePayrollPeriods source options) ↔ ¬ComesBack source options := by
  refine ⟨fun h => ?_, visitsOnce_of_not_comesBack⟩
  rintro ⟨resolved, start, between, hoptions, hstart, hne, hnodup, hleads, hbefore, hlt⟩
  have hstart' : some start ∉ between := (List.nodup_cons.mp hnodup).1
  have hlast : (some start :: between).getLast? ≠ some (some start) := by
    obtain ⟨c, cs, rfl⟩ := List.exists_cons_of_ne_nil hne
    rw [List.getLast?_cons_cons]
    exact fun heq => hstart' (List.mem_of_getLast? heq)
  have hbefore' : source.abortedBefore (0 + (some start :: between).length) = false := by
    rw [Nat.zero_add]
    exact hbefore
  obtain ⟨post, hpost⟩ := cursors_of_leads hleads hnodup (fun s hs => absurd hs List.not_mem_nil) List.not_mem_nil
    hstart' hlast hbefore' hlt
  have hcursors := h.cursors_nodup
  simp only [iteratePayrollPeriods, hoptions, hstart] at hcursors
  rw [hpost, List.nodup_append] at hcursors
  exact hcursors.2.2 _ List.mem_cons_self _ List.mem_cons_self rfl

end Options

/-- The pages `a` and `b`, of which each leads to the other. -/
def twoPages : PageSource Int String where
  fetchPage _ request :=
    if request.cursor = some "a" then .page ["period of a"] (.string "b") else .page ["period of b"] (.string "a")

/-- A caller that starts with `a` is given its page a second time. -/
theorem start_visited_twice :
    (iteratePayrollPeriods twoPages { cursor := some "a" }).yielded = ["period of a", "period of b", "period of a"] ∧
      ¬VisitsOnce twoPages { cursor := some "a" } (iteratePayrollPeriods twoPages { cursor := some "a" }) := by
  refine ⟨by decide, fun h => ?_⟩
  have hcursors := h.cursors_nodup
  revert hcursors
  decide

end ZkPayroll.Payroll
