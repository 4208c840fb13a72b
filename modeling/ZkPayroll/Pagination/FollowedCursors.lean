import Mathlib.Algebra.Order.Floor.Div
import Mathlib.GroupTheory.GroupAction.Ring
import ZkPayroll.Framework.Paging
import ZkPayroll.Pagination.Paginate

/-!
# Pages that the cursors lead to

The page before a page starts a whole page earlier, or at the first record;
there it does not stop where the page after it starts. So the pages that
`prevCursor` leads to overlap unless the page size divides the position they
were started from (`backward_once_iff`). `paginateIterator` follows
`nextCursor` in either direction: backward, it ends after the last page.

From the start of an array `nextCursor` leads through pages that are cut off it
one after the other (`InOrder`). There is always a first page, so an empty array
has one too (`forward_in_order`).
-/

namespace ZkPayroll.Pagination

open Framework

variable {T : Type} {size start : Nat}

/-! ## Overlapping pages -/

/-- The records that are visited backwards from the page at `start`, up to
their order: the first page is visited whole, and the other pages from its
position in the first. -/
def visitedFrom (records : List T) (size start : Nat) : List T :=
  if size ∣ start then records.take (start + size)
  else records.take size ++ (records.take (start + size)).drop (start % size)

variable (records : List T)

theorem visitedFrom_of_lt (hpos : 0 < start) (hlt : start < size) :
    ((records.drop start).take size ++ records.take size).Perm (visitedFrom records size start) := by
  have hnot : ¬size ∣ start := Nat.not_dvd_of_pos_of_lt hpos hlt
  rw [visitedFrom, if_neg hnot, Nat.mod_eq_of_lt hlt, List.drop_take, Nat.add_sub_cancel_left]
  exact List.perm_append_comm

theorem visitedFrom_of_le (hle : size ≤ start) (hstart : start ≤ records.length) :
    ((records.drop start).take size ++ visitedFrom records size (start - size)).Perm
      (visitedFrom records size start) := by
  have hdvd : size ∣ start - size ↔ size ∣ start := Nat.dvd_sub_iff_left hle (dvd_refl size)
  have hpage : records.take (start + size) = records.take start ++ (records.drop start).take size := List.take_add
  rw [visitedFrom, visitedFrom, Nat.sub_add_cancel hle, ← Nat.mod_eq_sub_mod hle]
  by_cases h : size ∣ start
  · rw [if_pos (hdvd.mpr h), if_pos h, hpage]
    exact List.perm_append_comm
  · have hmod : start % size ≤ (records.take start).length := by
      rw [List.length_take, Nat.min_eq_left hstart]
      exact Nat.mod_le _ _
    rw [if_neg fun hd => h (hdvd.mp hd), if_neg h, hpage, List.drop_append_of_le_length hmod]
    exact List.perm_append_comm.trans (by rw [List.append_assoc])

theorem visitedFrom_perm_iff (hpos : 0 < size) (hstart : start < records.length) :
    (visitedFrom records size start).Perm (records.take (start + size)) ↔ size ∣ start := by
  constructor
  · intro h
    by_contra hnot
    rw [visitedFrom, if_neg hnot] at h
    have hlen := h.length_eq
    have hmod := Nat.mod_lt start hpos
    have hle := Nat.mod_le start size
    simp only [List.length_append, List.length_take, List.length_drop] at hlen
    omega
  · intro h
    rw [visitedFrom, if_pos h]

/-! ## Following cursors -/

section Cursors

variable {ν : Type} [NumberFormat ν] [CommRing ν] [LinearOrder ν] [FloorRing ν] [Div ν]

/-- The page at a cursor, with the cursor of the page before it. -/
def readBackward (records : List T) (options : PaginationOptions ν) (cursor : Option String) :
    Except Empty (Page T) :=
  let result := paginate records { options with cursor := cursor }
  .ok { items := result.data, nextCursor := result.pageMeta.prevCursor }

/-- The page that `paginateIterator` yields at a cursor, with the cursor that
it goes on with. -/
def paginateIterator (records : List T) (options : PaginationOptions ν) (cursor : Option String) :
    Except Empty (Page T) :=
  let result := paginate records { options with cursor := cursor }
  .ok { items := result.data, nextCursor := result.pageMeta.nextCursor }

/-- The pages from a cursor on have each of the records once, and the last of
them starts with the first record. -/
def VisitsOnce (read : Option String → Except Empty (Page T)) (cursor : Option String) (records : List T) : Prop :=
  ∃ ps, Pages read cursor ps ∧ ps.flatten.Perm records ∧ ps.getLast?.bind List.head? = records.head?

variable [IsStrictOrderedRing ν] (records : List T) {n : Nat}

/-- Pages of `n` records, backward. -/
def backwardBy (n : Nat) : PaginationOptions ν := { pageSize := some (n : ν), direction := some .backward }

theorem head_take_records {size : Nat} (hpos : 0 < size) : (records.take size).head? = records.head? := by
  rw [List.head?_take, if_neg (by omega)]

theorem readBackward_encodeCursor (hn : 1 ≤ n) (hstart : start ≤ records.length) (direction : PaginationDirection) :
    readBackward records (backwardBy n : PaginationOptions ν) (some (encodeCursor (start : ν) direction)) =
      .ok { items := (records.drop start).take (clampedSize n)
            nextCursor := if 0 < start then some (encodeCursor ((start - clampedSize n : Nat) : ν) .backward)
              else none } := by
  rw [readBackward, paginate_encodeCursor records hn rfl direction hstart, data_pageAt, prevCursor_pageAt]
  rfl

/-- The pages backward from a position, down to the first. -/
theorem pages_backward (hn : 1 ≤ n) (hstart : start ≤ records.length) (direction : PaginationDirection) :
    ∃ ps, Pages (readBackward records (backwardBy n : PaginationOptions ν))
        (some (encodeCursor (start : ν) direction)) ps ∧
      ps.flatten.Perm (visitedFrom records (clampedSize n) start) ∧
      ps.getLast? = some (records.take (clampedSize n)) := by
  have hpos := clampedSize_pos hn
  induction start using Nat.strong_induction_on generalizing direction with
  | h start ih =>
    have hread := readBackward_encodeCursor (ν := ν) records hn hstart direction
    rcases Nat.eq_zero_or_pos start with rfl | hstartpos
    · rw [if_neg (Nat.lt_irrefl 0), List.drop_zero] at hread
      refine ⟨_, .last hread, ?_, rfl⟩
      rw [visitedFrom, if_pos (dvd_zero _), Nat.zero_add, List.flatten_singleton]
    · rw [if_pos hstartpos] at hread
      obtain ⟨ps, hpages, hperm, hlast⟩ := ih (start - clampedSize n) (by omega) (by omega) .backward
      have hne : ps ≠ [] := List.ne_nil_of_length_pos hpages.length_pos
      refine ⟨_, .more hread hpages, ?_, ?_⟩
      · rw [List.flatten_cons]
        refine (hperm.append_left _).trans ?_
        rcases Nat.lt_or_ge start (clampedSize n) with hlt | hge
        · rw [Nat.sub_eq_zero_of_le hlt.le, visitedFrom, if_pos (dvd_zero _), Nat.zero_add]
          exact visitedFrom_of_lt records hstartpos hlt
        · exact visitedFrom_of_le records hge hstart
      · rw [List.getLast?_cons_of_ne_nil hne, hlast]

theorem visitsOnce_readBackward_iff (hn : 1 ≤ n) (hstart : start < records.length) (direction : PaginationDirection) :
    VisitsOnce (readBackward records (backwardBy n : PaginationOptions ν)) (some (encodeCursor (start : ν) direction))
      (records.take (start + clampedSize n)) ↔ clampedSize n ∣ start := by
  have hpos := clampedSize_pos hn
  obtain ⟨ps, hpages, hperm, hlast⟩ := pages_backward (ν := ν) records hn hstart.le direction
  rw [← visitedFrom_perm_iff records hpos hstart]
  constructor
  · rintro ⟨qs, hqs, hvisited, -⟩
    rw [hpages.unique hqs] at hperm
    exact hperm.symm.trans hvisited
  · intro hvisited
    refine ⟨ps, hpages, hperm.trans hvisited, ?_⟩
    rw [hlast, Option.bind_some, head_take_records records hpos, head_take_records records (by omega)]

/-- Without a cursor, paging starts at the last page. -/
theorem readBackward_none (hn : 1 ≤ n) :
    readBackward records (backwardBy n : PaginationOptions ν) none =
      readBackward records (backwardBy n : PaginationOptions ν)
        (some (encodeCursor ((records.length - clampedSize n : Nat) : ν) .backward)) := by
  rw [readBackward_encodeCursor records hn (Nat.sub_le _ _), readBackward,
    paginate_backward records hn rfl rfl rfl rfl, data_pageAt, prevCursor_pageAt]

theorem visitsOnce_congr {read : Option String → Except Empty (Page T)} {c c' : Option String}
    (h : read c = read c') : VisitsOnce read c records ↔ VisitsOnce read c' records :=
  ⟨fun ⟨ps, hp, hvisited⟩ => ⟨ps, hp.of_read_eq h.symm, hvisited⟩,
    fun ⟨ps, hp, hvisited⟩ => ⟨ps, hp.of_read_eq h, hvisited⟩⟩

theorem visitsOnce_from_end_iff (hn : 1 ≤ n) :
    VisitsOnce (readBackward records (backwardBy n : PaginationOptions ν)) none records ↔
      records.length ≤ clampedSize n ∨ clampedSize n ∣ records.length := by
  have hpos := clampedSize_pos hn
  rw [visitsOnce_congr records (readBackward_none records hn)]
  rcases Nat.eq_zero_or_pos records.length with hzero | hlen
  · obtain ⟨ps, hpages, hperm, hlast⟩ := pages_backward (ν := ν) records hn (Nat.sub_le _ (clampedSize n)) .backward
    obtain rfl := List.eq_nil_of_length_eq_zero hzero
    refine iff_of_true ⟨ps, hpages, ?_, ?_⟩ (.inl (Nat.zero_le _))
    · refine hperm.trans ?_
      simp [visitedFrom]
    · rw [hlast]
      simp
  · have hall : records.take (records.length - clampedSize n + clampedSize n) = records :=
      List.take_of_length_le (by omega)
    have hstart : records.length - clampedSize n < records.length := by omega
    have hiff := visitsOnce_readBackward_iff (ν := ν) records hn hstart .backward
    rw [hall] at hiff
    rw [hiff]
    rcases Nat.le_total records.length (clampedSize n) with hle | hge
    · rw [Nat.sub_eq_zero_of_le hle]
      exact iff_of_true (dvd_zero _) (.inl hle)
    · rw [Nat.dvd_sub_iff_left hge (dvd_refl _)]
      constructor
      · exact .inr
      · rintro (hle | hdvd)
        · rw [Nat.le_antisymm hle hge]
        · exact hdvd

/-- The iterator goes on with the cursor of the next page, and the last page
has none. -/
theorem paginateIterator_backward (hn : 1 ≤ n) :
    paginateIterator records (backwardBy n : PaginationOptions ν) none =
      .ok { items := records.drop (records.length - clampedSize n) } := by
  have hend : ¬records.length - clampedSize n + min (clampedSize n)
      (records.length - (records.length - clampedSize n)) < records.length := by omega
  rw [paginateIterator, paginate_backward records hn rfl rfl rfl rfl, data_pageAt, nextCursor_pageAt, if_neg hend,
    List.take_of_length_le (by rw [List.length_drop]; omega)]

theorem visitsOnce_paginateIterator_iff (hn : 1 ≤ n) :
    VisitsOnce (paginateIterator records (backwardBy n : PaginationOptions ν)) none records ↔
      records.length ≤ clampedSize n := by
  have hpages := Pages.last (paginateIterator_backward (ν := ν) records hn)
  constructor
  · rintro ⟨ps, hps, hperm, -⟩
    rw [hps.unique hpages, List.flatten_singleton] at hperm
    have hlen := hperm.length_eq
    have hpos := clampedSize_pos hn
    rw [List.length_drop] at hlen
    omega
  · intro hle
    refine ⟨_, hpages, ?_, ?_⟩
    · rw [Nat.sub_eq_zero_of_le hle, List.drop_zero, List.flatten_singleton]
    · rw [Nat.sub_eq_zero_of_le hle, List.drop_zero]
      rfl

variable (ν)

/-- Where paging backwards has each record once: from a position that the page
size divides; from the end, if there is one page or the page size divides the
number of records; with the iterator, if there is one page. -/
theorem backward_once_iff (hn : 1 ≤ n) :
    (∀ start < records.length, ∀ direction,
      (VisitsOnce (readBackward records (backwardBy n : PaginationOptions ν))
        (some (encodeCursor (start : ν) direction)) (records.take (start + clampedSize n)) ↔ clampedSize n ∣ start)) ∧
    (VisitsOnce (readBackward records (backwardBy n : PaginationOptions ν)) none records ↔
      records.length ≤ clampedSize n ∨ clampedSize n ∣ records.length) ∧
    (VisitsOnce (paginateIterator records (backwardBy n : PaginationOptions ν)) none records ↔
      records.length ≤ clampedSize n) :=
  ⟨fun _ hstart direction => visitsOnce_readBackward_iff records hn hstart direction,
    visitsOnce_from_end_iff records hn, visitsOnce_paginateIterator_iff records hn⟩

end Cursors

/-- Four records in pages of two are visited once from the end, and not by the
iterator. -/
theorem four_by_two :
    VisitsOnce (readBackward [1, 2, 3, 4] (backwardBy 2 : PaginationOptions Int)) none [1, 2, 3, 4] ∧
      ¬VisitsOnce (paginateIterator [1, 2, 3, 4] (backwardBy 2 : PaginationOptions Int)) none [1, 2, 3, 4] := by
  have h := backward_once_iff Int [1, 2, 3, 4] (n := 2) (by decide)
  exact ⟨h.2.1.mpr (by decide), fun hvisits => absurd (h.2.2.mp hvisits) (by decide)⟩

/-- Five records in pages of two: the second record is visited twice. -/
theorem five_by_two :
    Pages (readBackward [1, 2, 3, 4, 5] (backwardBy 2 : PaginationOptions Int)) none [[4, 5], [2, 3], [1, 2]] ∧
      ¬VisitsOnce (readBackward [1, 2, 3, 4, 5] (backwardBy 2 : PaginationOptions Int)) none [1, 2, 3, 4, 5] := by
  have hpages : Pages (readBackward [1, 2, 3, 4, 5] (backwardBy 2 : PaginationOptions Int)) none
      [[4, 5], [2, 3], [1, 2]] := by
    have hread (start : Nat) (hstart : start ≤ 5) := readBackward_encodeCursor (ν := Int) [1, 2, 3, 4, 5] (n := 2)
      (by decide) hstart .backward
    exact .more ((readBackward_none _ (by decide)).trans (hread 3 (by decide)))
      (.more (hread 1 (by decide)) (.last (hread 0 (by decide))))
  refine ⟨hpages, fun ⟨ps, hps, hperm, _⟩ => ?_⟩
  rw [hps.unique hpages] at hperm
  exact absurd hperm.length_eq (by decide)

/-! ## Pages of a list -/

/-- The pages are the list, in order, cut into parts of the size. -/
structure InOrder (records : List T) (size : Nat) (ps : List (List T)) : Prop where
  flatten_eq : ps.flatten = records
  length_le : ∀ p ∈ ps, p.length ≤ size
  nonempty : records ≠ [] → ∀ p ∈ ps, p ≠ []
  length_eq : ps.length = max 1 (records.length ⌈/⌉ size)

theorem ceilDiv_of_lt (hpos : 0 < size) {n : Nat} (h : size < n) : n ⌈/⌉ size = (n - size) ⌈/⌉ size + 1 := by
  have hsplit : n + size - 1 = n - size + size - 1 + size := by omega
  rw [Nat.ceilDiv_eq_add_pred_div, Nat.ceilDiv_eq_add_pred_div, hsplit, Nat.add_div_right _ hpos]

theorem InOrder.last {records : List T} (hpos : 0 < size) (h : records.length ≤ size) :
    InOrder records size [records] where
  flatten_eq := List.flatten_singleton
  length_le p hp := by
    rw [List.mem_singleton.mp hp]
    exact h
  nonempty hne p hp := by
    rw [List.mem_singleton.mp hp]
    exact hne
  length_eq := by
    have hone : records.length ⌈/⌉ size ≤ 1 := by
      rw [ceilDiv_le_iff_le_mul hpos]
      omega
    rw [List.length_singleton, max_eq_left hone]

theorem InOrder.more {records : List T} {ps : List (List T)} (hpos : 0 < size) (h : size < records.length)
    (hps : InOrder (records.drop size) size ps) : InOrder records size (records.take size :: ps) where
  flatten_eq := by
    rw [List.flatten_cons, hps.flatten_eq, List.take_append_drop]
  length_le p hp := by
    rcases List.mem_cons.mp hp with rfl | hp
    · exact List.length_take_le size records
    · exact hps.length_le p hp
  nonempty _ p hp := by
    rcases List.mem_cons.mp hp with rfl | hp
    · apply List.ne_nil_of_length_pos
      rw [List.length_take]
      omega
    · apply hps.nonempty (List.ne_nil_of_length_pos _) p hp
      rw [List.length_drop]
      omega
  length_eq := by
    have hrest : 1 ≤ (records.length - size) ⌈/⌉ size := by
      rw [Nat.ceilDiv_eq_add_pred_div]
      exact Nat.div_pos (by omega) hpos
    rw [List.length_cons, hps.length_eq, List.length_drop, ceilDiv_of_lt hpos h]
    omega

/-! ## Following cursors -/

section Cursors

variable {ν : Type} [NumberFormat ν] [CommRing ν] [LinearOrder ν] [IsStrictOrderedRing ν] [FloorRing ν] [Div ν]
  (records : List T) {options : PaginationOptions ν} {n : Nat}

omit [IsStrictOrderedRing ν] in
/-- There is a cursor to go on with just if a page says that there is a next one. -/
theorem hasNextPage_paginate :
    (paginate records options).pageMeta.hasNextPage = (paginate records options).pageMeta.nextCursor.isSome := by
  simp only [paginate, pageAt]
  split
  · assumption
  · rename_i h
    exact Bool.eq_false_iff.mpr h

theorem paginateIterator_encodeCursor (hn : 1 ≤ n) (hsize : options.pageSize = some (n : ν))
    (hstart : start ≤ records.length) (direction : PaginationDirection) :
    paginateIterator records options (some (encodeCursor (start : ν) direction)) =
      .ok { items := (records.drop start).take (clampedSize n)
            nextCursor :=
              if start + min (clampedSize n) (records.length - start) < records.length then
                some (encodeCursor ((start + min (clampedSize n) (records.length - start) : Nat) : ν)
                  (options.direction.getD .forward))
              else none } := by
  rw [paginateIterator, paginate_encodeCursor records hn hsize direction hstart, data_pageAt, nextCursor_pageAt]

/-- The pages from a position to the end. -/
theorem pages_forward (hn : 1 ≤ n) (hsize : options.pageSize = some (n : ν)) (hstart : start ≤ records.length)
    (direction : PaginationDirection) :
    ∃ ps, Pages (paginateIterator records options) (some (encodeCursor (start : ν) direction)) ps ∧
      InOrder (records.drop start) (clampedSize n) ps := by
  have hpos := clampedSize_pos hn
  have hlen : (records.drop start).length = records.length - start := List.length_drop
  induction hleft : records.length - start using Nat.strong_induction_on generalizing start direction with
  | h left ih =>
    have hread := paginateIterator_encodeCursor records hn hsize hstart direction
    rcases Nat.lt_or_ge (clampedSize n) (records.length - start) with hlt | hge
    · have hnext : start + clampedSize n ≤ records.length := by omega
      rw [Nat.min_eq_left hlt.le, if_pos (by omega)] at hread
      obtain ⟨ps, hpages, horder⟩ := ih (records.length - (start + clampedSize n)) (by omega) hnext
        (options.direction.getD .forward) List.length_drop rfl
      rw [← List.drop_drop] at horder
      exact ⟨_, .more hread hpages, .more hpos (by omega) horder⟩
    · rw [if_neg (by omega), List.take_of_length_le (by omega)] at hread
      exact ⟨_, .last hread, .last hpos (by omega)⟩

/-- A call that starts at the first record reads as a cursor of it does. -/
theorem paginateIterator_start (hn : 1 ≤ n) (hsize : options.pageSize = some (n : ν))
    (hstart : options.startIndex records.length ≤ 0) :
    paginateIterator records options options.cursor =
      paginateIterator records options (some (encodeCursor ((0 : Nat) : ν) .forward)) := by
  have hmin : min (options.startIndex records.length) (records.length : ν) ≤ 0 := (min_le_left _ _).trans hstart
  have hfirst : paginate records options =
      pageAt records (clampedSize n : ν) (options.direction.getD .forward) ((0 : Nat) : ν) := by
    rw [paginate, hsize, resolvePageSize_natCast hn, max_eq_left hmin, Nat.cast_zero]
  rw [paginateIterator, paginateIterator, paginate_encodeCursor records hn hsize .forward (Nat.zero_le _)]
  rw [show { options with cursor := options.cursor } = options from rfl, hfirst]

/-- From a call that starts at the first record the cursors lead through all
records in order, in pages of the resolved size, and end. -/
theorem forward_in_order (hn : 1 ≤ n) (hsize : options.pageSize = some (n : ν))
    (hstart : options.startIndex records.length ≤ 0) :
    ∃ (ps : List (List T)) (size : Nat), Pages (paginateIterator records options) options.cursor ps ∧
      resolvePageSize options.pageSize = (size : ν) ∧ InOrder records size ps ∧
      ∀ cursor, (paginate records { options with cursor := cursor }).pageMeta.hasNextPage =
        (paginate records { options with cursor := cursor }).pageMeta.nextCursor.isSome := by
  obtain ⟨ps, hpages, horder⟩ := pages_forward records hn hsize (Nat.zero_le _) .forward
  refine ⟨ps, clampedSize n, hpages.of_read_eq (paginateIterator_start records hn hsize hstart), ?_, horder, ?_⟩
  · rw [hsize, resolvePageSize_natCast hn]
  · intro cursor
    exact hasNextPage_paginate records

end Cursors

/-- Pages of `n` records, from the first record on. -/
def forwardBy (n : Nat) : PaginationOptions Int := { pageSize := some (n : Int) }

/-- Three records in pages of two. -/
theorem three_by_two : ∃ (ps : List (List Nat)) (size : Nat), Pages (paginateIterator [1, 2, 3] (forwardBy 2)) none ps ∧
    resolvePageSize (some (2 : Int)) = (size : Int) ∧ InOrder [1, 2, 3] size ps ∧
    ∀ cursor, (paginate [1, 2, 3] { forwardBy 2 with cursor := cursor }).pageMeta.hasNextPage =
      (paginate [1, 2, 3] { forwardBy 2 with cursor := cursor }).pageMeta.nextCursor.isSome :=
  forward_in_order [1, 2, 3] (n := 2) (by decide) rfl (by decide)

/-- An empty array has one page, where a page count rounded up has none. -/
theorem empty_has_one_page :
    Pages (paginateIterator ([] : List Nat) (forwardBy 1)) none [[]] ∧
      ∀ ps, Pages (paginateIterator ([] : List Nat) (forwardBy 1)) none ps →
        ps.length ≠ ([] : List Nat).length ⌈/⌉ 1 := by
  have hpages : Pages (paginateIterator ([] : List Nat) (forwardBy 1)) none [[]] := .last rfl
  refine ⟨hpages, fun ps hps => ?_⟩
  rw [hps.unique hpages, List.length_nil, zero_ceilDiv]
  exact one_ne_zero

end ZkPayroll.Pagination
