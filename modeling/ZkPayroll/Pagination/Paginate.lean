import Mathlib.Algebra.Order.Floor.Ring
import ZkPayroll.Framework.JsonParse

/-!
# Pages of an array

`encodeCursor`, `decodeCursor`, `resolvePageSize` and `paginate` of
`pagination.ts`. Numbers are finite; a position may have a fractional part,
which `slice` drops. The page at a position in the array (`Options.startIndex`,
`data_paginate`) and the cursors of the pages before and after it
(`nextCursor_paginate`, `prevCursor_paginate`) are those of natural numbers.
-/

namespace ZkPayroll.Pagination

open Framework

variable {ν T : Type}

inductive PaginationDirection where
  | forward
  | backward
  deriving DecidableEq, Repr

def PaginationDirection.name : PaginationDirection → String
  | .forward => "forward"
  | .backward => "backward"

/-! ## Cursors -/

/-- What is read from a cursor; its direction may be any value. -/
structure CursorPayload (ν : Type) where
  index : ν
  direction : Json ν

section Cursors

variable [NumberFormat ν]
variable (index : ν)

/-- What a cursor holds, before it is encoded. -/
def cursorJson (direction : PaginationDirection) : Json ν :=
  .obj [("index", .num index), ("direction", .str direction.name)]

def encodeCursor (direction : PaginationDirection) : String :=
  String.ofList (base64Encode (utf8Encode (stringify (cursorJson index direction))))

def decodeCursor (cursor : String) : Option (CursorPayload ν) :=
  match parseJson (utf8Decode (base64Decode cursor.toList)) with
  | some (.obj fields) =>
    match fields.lookup "index", fields.lookup "direction" with
    | some (.num index), some direction => some { index := index, direction := direction }
    | _, _ => none
  | _ => none

omit [NumberFormat ν] in
theorem distinctKeys_cursorJson (direction : PaginationDirection) :
    DistinctKeys (cursorJson index direction) := by
  simp [cursorJson, DistinctKeys, DistinctFields]

/-- A cursor is read back. -/
theorem decodeCursor_encodeCursor (direction : PaginationDirection) :
    decodeCursor (encodeCursor index direction) =
      some { index := index, direction := .str direction.name } := by
  rw [decodeCursor, encodeCursor, String.toList_ofList, base64Decode_base64Encode, utf8Decode_utf8Encode,
    parseJson_stringify (distinctKeys_cursorJson index direction)]
  rfl

theorem encodeCursor_ne_empty (direction : PaginationDirection) : encodeCursor index direction ≠ "" := by
  intro h
  have hdecoded := decodeCursor_encodeCursor index direction
  have hempty : decodeCursor (ν := ν) "" = none := rfl
  rw [h, hempty] at hdecoded
  cases hdecoded

end Cursors

/-! ## Pages -/

structure PaginationOptions (ν : Type) where
  cursor : Option String := none
  page : Option ν := none
  pageSize : Option ν := none
  direction : Option PaginationDirection := none

structure PaginationMeta (ν : Type) where
  total : Nat
  count : Nat
  pageSize : ν
  page : ν
  hasNextPage : Bool
  hasPrevPage : Bool
  nextCursor : Option String
  prevCursor : Option String

structure PaginatedResult (ν T : Type) where
  data : List T
  pageMeta : PaginationMeta ν

def defaultPageSize : Nat := 20

def maxPageSize : Nat := 100

def minPageSize : Nat := 1

section Paginate

variable [NumberFormat ν] [CommRing ν] [LinearOrder ν] [FloorRing ν] [Div ν]

def resolvePageSize (requested : Option ν) : ν :=
  match requested with
  | none => (defaultPageSize : ν)
  | some requested =>
    if requested < (minPageSize : ν) then (minPageSize : ν)
    else if requested > (maxPageSize : ν) then (maxPageSize : ν)
    else requested

/-- The position of the page before it is clamped. -/
def PaginationOptions.startIndex (options : PaginationOptions ν) (total : Nat) : ν :=
  let pageSize := resolvePageSize options.pageSize
  match options.cursor.filter (· ≠ "") with
  | some cursor =>
    match decodeCursor cursor with
    | some decoded => decoded.index
    | none => 0
  | none =>
    match options.page with
    | some page => (max 1 page - 1) * pageSize
    | none => if options.direction = some .backward then max 0 (total - pageSize) else 0

/-- `records.slice(start, stop)`, for positions that are not negative. -/
def slice (records : List T) (start stop : ν) : List T :=
  (records.drop ⌊start⌋.toNat).take (⌊stop⌋.toNat - ⌊start⌋.toNat)

/-- The page at a position between 0 and the number of records. -/
def pageAt (records : List T) (pageSize : ν) (direction : PaginationDirection) (startIndex : ν) :
    PaginatedResult ν T :=
  let total := records.length
  let data := slice records startIndex (startIndex + pageSize)
  let endIndex := startIndex + data.length
  let hasNextPage := decide (endIndex < total)
  let hasPrevPage := decide (startIndex > 0)
  { data := data
    pageMeta := {
      total := total
      count := data.length
      pageSize := pageSize
      page := if pageSize > 0 then ⌊startIndex / pageSize⌋ + 1 else 1
      hasNextPage := hasNextPage
      hasPrevPage := hasPrevPage
      nextCursor := if hasNextPage then some (encodeCursor endIndex direction) else none
      prevCursor := if hasPrevPage then some (encodeCursor (max 0 (startIndex - pageSize)) direction) else none } }

def paginate (records : List T) (options : PaginationOptions ν) : PaginatedResult ν T :=
  pageAt records (resolvePageSize options.pageSize) (options.direction.getD .forward)
    (max 0 (min (options.startIndex records.length) records.length))

end Paginate

/-! ## Positions in the array -/

section Positions

variable [NumberFormat ν] [CommRing ν] [LinearOrder ν] [IsStrictOrderedRing ν] [FloorRing ν] [Div ν]

/-- The page size for a requested one of at least 1. -/
def clampedSize (n : Nat) : Nat := min n maxPageSize

theorem clampedSize_pos {n : Nat} (h : 1 ≤ n) : 0 < clampedSize n := by
  simp [clampedSize, maxPageSize]
  omega

omit [NumberFormat ν] [Div ν] in
theorem resolvePageSize_natCast {n : Nat} (h : 1 ≤ n) :
    resolvePageSize (some (n : ν)) = (clampedSize n : ν) := by
  have hmin : ¬(n : ν) < (minPageSize : ν) := by
    rw [Nat.cast_lt]
    exact Nat.not_lt.mpr h
  rw [resolvePageSize, if_neg hmin, clampedSize]
  rcases Nat.lt_or_ge maxPageSize n with hlt | hge
  · rw [if_pos (Nat.cast_lt.mpr hlt), Nat.min_eq_right hlt.le]
  · rw [if_neg (not_lt.mpr (Nat.cast_le.mpr hge)), Nat.min_eq_left hge]

omit [NumberFormat ν] [Div ν] [FloorRing ν] in
theorem max_zero_sub_natCast (a b : Nat) : max 0 ((a : ν) - b) = ((a - b : Nat) : ν) := by
  rcases Nat.le_total b a with h | h
  · rw [Nat.cast_sub h, max_eq_right (sub_nonneg.mpr (Nat.cast_le.mpr h))]
  · rw [Nat.sub_eq_zero_of_le h, Nat.cast_zero, max_eq_left (sub_nonpos.mpr (Nat.cast_le.mpr h))]

omit [NumberFormat ν] [Div ν] in
theorem slice_natCast (records : List T) (start size : Nat) :
    slice records (start : ν) (start + size : ν) = (records.drop start).take size := by
  have hfloor : ⌊(start : ν) + size⌋ = ((start + size : Nat) : Int) := by
    rw [← Nat.cast_add, Int.floor_natCast]
  rw [slice, hfloor, Int.floor_natCast, Int.toNat_natCast, Int.toNat_natCast, Nat.add_sub_cancel_left]

variable (records : List T) {size start : Nat} (direction : PaginationDirection)

theorem data_pageAt : (pageAt records (size : ν) direction (start : ν)).data = (records.drop start).take size :=
  slice_natCast records start size

theorem nextCursor_pageAt :
    (pageAt records (size : ν) direction (start : ν)).pageMeta.nextCursor =
      if start + min size (records.length - start) < records.length then
        some (encodeCursor ((start + min size (records.length - start) : Nat) : ν) direction)
      else none := by
  have hlen : (slice records (start : ν) (start + size : ν)).length = min size (records.length - start) := by
    rw [slice_natCast, List.length_take, List.length_drop]
  have hend : (start : ν) + (slice records (start : ν) (start + size : ν)).length =
      ((start + min size (records.length - start) : Nat) : ν) := by
    rw [hlen, Nat.cast_add]
  simp only [pageAt, hend, decide_eq_true_eq, Nat.cast_lt]

theorem prevCursor_pageAt :
    (pageAt records (size : ν) direction (start : ν)).pageMeta.prevCursor =
      if 0 < start then some (encodeCursor ((start - size : Nat) : ν) direction) else none := by
  simp only [pageAt, gt_iff_lt, decide_eq_true_eq, Nat.cast_pos, max_zero_sub_natCast]

/-- A cursor leads to the page at its position. -/
theorem paginate_encodeCursor {options : PaginationOptions ν} {n : Nat} (hn : 1 ≤ n)
    (hsize : options.pageSize = some (n : ν)) (cursorDirection : PaginationDirection) (hstart : start ≤ records.length) :
    paginate records { options with cursor := some (encodeCursor (start : ν) cursorDirection) } =
      pageAt records (clampedSize n : ν) (options.direction.getD .forward) (start : ν) := by
  have hne := encodeCursor_ne_empty (start : ν) cursorDirection
  have hindex : PaginationOptions.startIndex
      { options with cursor := some (encodeCursor (start : ν) cursorDirection) } records.length = (start : ν) := by
    simp [PaginationOptions.startIndex, Option.filter, hne, decodeCursor_encodeCursor]
  rw [paginate, hindex, hsize, resolvePageSize_natCast hn, min_eq_left (Nat.cast_le.mpr hstart),
    max_eq_right (Nat.cast_nonneg start)]

/-- Without a cursor, the first page backward is the last of the array. -/
theorem paginate_backward {options : PaginationOptions ν} {n : Nat} (hn : 1 ≤ n)
    (hsize : options.pageSize = some (n : ν)) (hdirection : options.direction = some .backward)
    (hcursor : options.cursor = none) (hpage : options.page = none) :
    paginate records options =
      pageAt records (clampedSize n : ν) .backward ((records.length - clampedSize n : Nat) : ν) := by
  have hindex : options.startIndex records.length = ((records.length - clampedSize n : Nat) : ν) := by
    rw [PaginationOptions.startIndex, hsize, resolvePageSize_natCast hn, ← max_zero_sub_natCast]
    simp [hcursor, hpage, hdirection, Option.filter]
  rw [paginate, hindex, hsize, resolvePageSize_natCast hn, hdirection,
    min_eq_left (Nat.cast_le.mpr (Nat.sub_le _ _)), max_eq_right (Nat.cast_nonneg _)]
  rfl

end Positions

end ZkPayroll.Pagination
