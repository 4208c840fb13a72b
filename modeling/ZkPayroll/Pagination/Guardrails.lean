import ZkPayroll.Core.Errors
import ZkPayroll.Framework.Guards
import ZkPayroll.Framework.JsArithmetic
import ZkPayroll.Framework.Paging
import ZkPayroll.Pagination.Paginate

/-!
# Guardrails for paginated sources

`resolvePaginationGuardrails` and `iterateGuardedPages` of
`pagination-guardrails.ts`. A source (`PageSource`) answers each call as it
likes, and may be aborted before or after any of them. `traverse` is the loop
over the pages that are still allowed; what it fetches, yields and ends with is
a `Traversal`.
-/

namespace ZkPayroll.Pagination

open Framework ZkPayroll.Core

variable {ν T : Type}

/-! ## Options -/

def defaultMaxPages : Nat := 100

def absoluteMaxPages : Nat := 10000

def defaultMaxRecords : Nat := 10000

structure PaginationGuardrailOptions (ν : Type) where
  maxPageSize : Option (JsNumber ν) := none
  maxPages : Option (JsNumber ν) := none
  maxRecords : Option (JsNumber ν) := none

structure ResolvedPaginationGuardrails (ν : Type) where
  maxPageSize : JsNumber ν
  maxPages : Nat
  maxRecords : Nat
  maxPages_pos : 0 < maxPages
  maxPages_le : maxPages ≤ absoluteMaxPages
  maxRecords_pos : 0 < maxRecords

def rangeError (message : String) : SdkError := { genericError message with name := "RangeError" }

def typeError (message : String) : SdkError := { genericError message with name := "TypeError" }

/-- A number that `positiveInteger` returns. -/
structure PositiveInteger where
  val : Nat
  pos : 0 < val

theorem toNat_pos_of_not_lt {k : Int} (h : ¬k < 1) : 0 < k.toNat := by omega

theorem PositiveInteger.le_absoluteMaxPages {n : PositiveInteger} (h : ¬n.val > absoluteMaxPages) :
    n.val ≤ absoluteMaxPages :=
  Nat.le_of_not_lt h

section Options

variable [CommRing ν] [LinearOrder ν] [FloorRing ν]

/-- A limit that is a positive integer. -/
def positiveInteger (name : String) (n : JsNumber ν) : Except SdkError PositiveInteger :=
  match n.toInteger with
  | none => .error (rangeError s!"Pagination {name} must be a positive integer.")
  | some k =>
    if h : k < 1 then .error (rangeError s!"Pagination {name} must be a positive integer.")
    else .ok ⟨k.toNat, toNat_pos_of_not_lt h⟩

def resolvePaginationGuardrails (options : PaginationGuardrailOptions ν) :
    Except SdkError (ResolvedPaginationGuardrails ν) := do
  let resolvedPageSize :=
    match options.maxPageSize with
    | none => .finite (maxPageSize : ν)
    | some n => JsNumber.max (.finite (minPageSize : ν)) (JsNumber.min (.finite (maxPageSize : ν)) n.floor)
  let maxPages ← positiveInteger "maxPages" (options.maxPages.getD (.finite (defaultMaxPages : ν)))
  if h : maxPages.val > absoluteMaxPages then
    .error (rangeError s!"Pagination maxPages cannot exceed {absoluteMaxPages}.")
  else
    let maxRecords ← positiveInteger "maxRecords" (options.maxRecords.getD (.finite (defaultMaxRecords : ν)))
    return {
      maxPageSize := resolvedPageSize
      maxPages := maxPages.val
      maxRecords := maxRecords.val
      maxPages_pos := maxPages.pos
      maxPages_le := PositiveInteger.le_absoluteMaxPages h
      maxRecords_pos := maxRecords.pos }

end Options

/-! ## Sources -/

/-- The value of `nextCursor`. -/
inductive CursorValue where
  | undefined
  | string (cursor : String)
  | other
  deriving DecidableEq

/-- What a call of `fetchPage` comes to. -/
inductive FetchResult (T : Type) where
  | rejected (e : SdkError)
  /-- A value without an array of items. -/
  | notAPage
  | page (items : List T) (nextCursor : CursorValue)
  deriving DecidableEq

/-- The items of a fetched page. -/
def FetchResult.items : FetchResult T → List T
  | .page items _ => items
  | _ => []

/-- What a fetcher is asked for. -/
structure PageRequest (ν : Type) where
  cursor : Option String
  limit : JsNumber ν

/-- A paginated source, by the number of the call. -/
structure PageSource (ν T : Type) where
  fetchPage : Nat → PageRequest ν → FetchResult T
  abortedBefore : Nat → Bool := fun _ => false
  abortedAfter : Nat → Bool := fun _ => false

def abortError : SdkError := { genericError "Pagination aborted" with name := "AbortError" }

def assertGuardedPage : FetchResult T → Except SdkError (Page T)
  | .rejected e => .error e
  | .notAPage => .error (typeError "Paginated source returned an invalid page.")
  | .page items .undefined => .ok { items := items }
  | .page items (.string cursor) =>
    if cursor.length = 0 then .error (typeError "Paginated source returned an invalid next cursor.")
    else .ok { items := items, nextCursor := some cursor }
  | .page _ .other => .error (typeError "Paginated source returned an invalid next cursor.")

/-- The page that a call comes to, if it does not reject and the traversal is
not aborted in the meantime. -/
def PageSource.receive (source : PageSource ν T) (pageNumber : Nat) : FetchResult T → Except SdkError (Page T)
  | .rejected e => .error e
  | result => if source.abortedAfter pageNumber then .error abortError else assertGuardedPage result

/-! ## The traversal -/

/-- A page that was asked for, and what came. -/
structure Fetch (T : Type) where
  cursor : Option String
  result : FetchResult T

def Fetch.items (fetch : Fetch T) : List T := fetch.result.items

/-- The calls that were made, the records that were yielded, and how it ended. -/
structure Traversal (T : Type) where
  fetches : List (Fetch T) := []
  yielded : List T := []
  outcome : Except SdkError Unit

/-- The traversal before which a page was fetched and records were yielded. -/
def Traversal.after (t : Traversal T) (fetch : Fetch T) (items : List T) : Traversal T where
  fetches := fetch :: t.fetches
  yielded := items ++ t.yielded
  outcome := t.outcome

def recordLimitError : SdkError :=
  genericError "PAGINATION_BUDGET_EXCEEDED: pagination exceeded the configured record limit."

def pageLimitError : SdkError :=
  genericError "PAGINATION_BUDGET_EXCEEDED: pagination exceeded the configured page limit."

def repeatedCursorError : SdkError :=
  genericError "PAGINATION_REPEATED_CURSOR: pagination returned a repeated cursor."

/-- The loop over the items of a page: what it yields, and the number of
records that were then yielded. -/
def yieldItems (maxRecords yieldedRecords : Nat) : List T → List T × Except SdkError Nat
  | [] => ([], .ok yieldedRecords)
  | item :: items =>
    if yieldedRecords ≥ maxRecords then ([], .error recordLimitError)
    else
      let (rest, count) := yieldItems maxRecords (yieldedRecords + 1) items
      (item :: rest, count)

section Traverse

variable (source : PageSource ν T) (limit : JsNumber ν) (maxRecords : Nat)

/-- The loop, with the number of pages that may still be fetched. -/
def traverse : Nat → Nat → Option String → List String → Nat → Traversal T
  | 0, _, _, _, _ => { outcome := .error pageLimitError }
  | remaining + 1, pageNumber, cursor, seenCursors, yieldedRecords =>
    if source.abortedBefore pageNumber then { outcome := .error abortError }
    else
      let result := source.fetchPage pageNumber { cursor := cursor, limit := limit }
      let fetch := { cursor := cursor, result := result }
      match source.receive pageNumber result with
      | .error e => ({ outcome := .error e } : Traversal T).after fetch []
      | .ok page =>
        match yieldItems maxRecords yieldedRecords page.items with
        | (items, .error e) => ({ outcome := .error e } : Traversal T).after fetch items
        | (items, .ok yieldedRecords) =>
          match page.nextCursor with
          | none => ({ outcome := .ok () } : Traversal T).after fetch items
          | some next =>
            if some next = cursor ∨ next ∈ seenCursors then
              ({ outcome := .error repeatedCursorError } : Traversal T).after fetch items
            else
              (traverse remaining (pageNumber + 1) (some next) (cursor.toList ++ seenCursors) yieldedRecords).after
                fetch items

end Traverse

/-- What a consumer that reads to the end sees. -/
def iterateGuardedPages [CommRing ν] [LinearOrder ν] [FloorRing ν] (source : Option (PageSource ν T))
    (options : PaginationGuardrailOptions ν) : Traversal T :=
  match source with
  | none => { outcome := .error (typeError "iterateGuardedPages requires a fetchPage callback function.") }
  | some source =>
    match resolvePaginationGuardrails options with
    | .error e => { outcome := .error e }
    | .ok guardrails => traverse source guardrails.maxPageSize guardrails.maxRecords guardrails.maxPages 1 none [] 0

end ZkPayroll.Pagination
