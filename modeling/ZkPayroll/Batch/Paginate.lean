import Mathlib.Algebra.BigOperators.Group.List.Basic
import Mathlib.Algebra.GroupWithZero.Nat
import Mathlib.Algebra.Ring.Int.Defs
import ZkPayroll.Core.Errors

/-!
# Batches of a list

`batch/paginate.ts`: a list is cut into batches of `pageSize` items
(`iterateBatches`). The batches hold the list (`flatten_batchPages`), and the
first `k` of them hold its first `k * pageSize` items (`pagesSize_zero`). Each
is the one that `getBatchPage` cuts out of the list by itself, and none is
empty but the only one of an empty list (`batches_of_iterateBatches`).
-/

namespace ZkPayroll.Batch

open ZkPayroll.Core

/-- `BatchPage`. -/
structure BatchPage (T : Type) where
  items : List T
  index : Nat
  offset : Nat
  count : Nat
  totalItems : Nat
  totalPages : Nat
  hasNext : Bool
  deriving DecidableEq

def assertValidPageSize : (pageSize : Option Int) → Except SdkError Unit
  | none => .ok ()
  | some n =>
    if n ≤ 0 then
      .error (validationError "Invalid page size: expected a positive integer." "pageSize")
    else .ok ()

variable {T : Type}

/-- `Math.ceil(totalItems / pageSize)`, and one page for an empty list. -/
def totalPages (totalItems pageSize : Nat) : Nat :=
  if totalItems = 0 then 1 else (totalItems + pageSize - 1) / pageSize

variable (items : List T)

/-- The page that `iterateBatches` yields at `index`. -/
def batchPage (pageSize index : Nat) : BatchPage T :=
  let pageItems := (items.drop (index * pageSize)).take pageSize
  { items := pageItems
    index
    offset := index * pageSize
    count := pageItems.length
    totalItems := items.length
    totalPages := totalPages items.length pageSize
    hasNext := index + 1 < totalPages items.length pageSize }

/-- The pages of a list for a valid page size. -/
def batchPages (pageSize : Nat) : List (BatchPage T) :=
  (List.range (totalPages items.length pageSize)).map (batchPage items pageSize)

/-- `Array.from(iterateBatches(items, pageSize))`. -/
def iterateBatches (pageSize : Option Int) : Except SdkError (List (BatchPage T)) := do
  assertValidPageSize pageSize
  let effectivePageSize :=
    match pageSize with
    | some n => n.toNat
    | none => if 0 < items.length then items.length else 1
  return batchPages items effectivePageSize

theorem assertValidPageSize_some {n : Int} (h : 0 < n) : assertValidPageSize (some n) = .ok () := by
  rw [assertValidPageSize, if_neg (by omega)]

theorem iterateBatches_some {n : Int} (h : 0 < n) (items : List T) :
    iterateBatches items (some n) = .ok (batchPages items n.toNat) := by
  rw [iterateBatches, assertValidPageSize_some h]
  rfl

variable (items : List T)

@[simp] theorem length_batchPages (pageSize : Nat) :
    (batchPages items pageSize).length = totalPages items.length pageSize := by
  simp [batchPages]

/-- The pages reach the end of the list. -/
theorem le_totalPages_mul {n size : Nat} (h : 0 < size) : n ≤ totalPages n size * size := by
  unfold totalPages
  split
  · omega
  · have hd := Nat.div_add_mod (n + size - 1) size
    have hm := Nat.mod_lt (n + size - 1) h
    rw [Nat.mul_comm]
    omega

/-- The pages from `start` on. -/
theorem drop_batchPages (pageSize start : Nat) :
    (batchPages items pageSize).drop start =
      (List.range' start (totalPages items.length pageSize - start)).map (batchPage items pageSize) := by
  rw [batchPages, ← List.map_drop, List.range_eq_range', List.drop_range']
  simp

theorem flatten_range_pages (size m : Nat) :
    ((List.range m).map fun i => (batchPage items size i).items).flatten = items.take (m * size) := by
  induction m with
  | zero => simp
  | succ m ih =>
    rw [List.range_succ, List.map_append, List.flatten_append, ih, Nat.succ_mul, List.take_add]
    simp [batchPage]

/-- The pages hold the list, in order. -/
theorem flatten_batchPages {size : Nat} (h : 0 < size) :
    ((batchPages items size).map (·.items)).flatten = items := by
  rw [batchPages, List.map_map]
  exact (flatten_range_pages items size _).trans (List.take_of_length_le (le_totalPages_mul h))

/-- The total size of pages `s` to `e - 1`. -/
def pagesSize (size s e : Nat) : Nat :=
  ((List.range' s (e - s)).map fun i => (batchPage items size i).count).sum

/-- The first `k` pages hold the first `k * size` items. -/
theorem pagesSize_zero (size k : Nat) : pagesSize items size 0 k = min (k * size) items.length := by
  have h := congrArg List.length (flatten_range_pages items size k)
  rw [List.length_flatten, List.length_take, List.map_map] at h
  rw [← h, pagesSize, ← List.range_eq_range', Nat.sub_zero]
  rfl

/-- All pages together have the size of the list. -/
theorem pagesSize_all {size : Nat} (h : 0 < size) :
    pagesSize items size 0 (totalPages items.length size) = items.length := by
  rw [pagesSize_zero, Nat.min_eq_right (le_totalPages_mul h)]

/-! ## Single batches -/

def assertValidBatchIndex (batchIndex : Int) : Except SdkError Unit :=
  if batchIndex < 0 then
    .error (validationError "Invalid batch index: expected a non-negative integer." "batchIndex")
  else .ok ()

/-- `getBatchPage(items, pageSize, batchIndex)`; without a size the list is one page. -/
def getBatchPage (pageSize : Option Int) (batchIndex : Int) : Except SdkError (BatchPage T) := do
  assertValidPageSize pageSize
  assertValidBatchIndex batchIndex
  let index := batchIndex.toNat
  let effectivePageSize := (pageSize.map Int.toNat).getD items.length
  let offset := index * effectivePageSize
  let clampedOffset := min offset items.length
  let pageItems := (items.drop clampedOffset).take effectivePageSize
  return {
    items := pageItems
    index := index
    offset := clampedOffset
    count := pageItems.length
    totalItems := items.length
    totalPages := totalPages items.length effectivePageSize
    hasNext := index + 1 < totalPages items.length effectivePageSize }

/-- A page that is not the first starts before the end of the list. -/
theorem mul_lt_of_lt_totalPages {n size i : Nat} (hn : 0 < n) (h : i < totalPages n size) : i * size < n := by
  rw [totalPages, if_neg (by omega)] at h
  have hsize : 0 < size := by
    by_contra hzero
    rw [Nat.eq_zero_of_not_pos hzero, Nat.div_zero] at h
    omega
  have hle : (i + 1) * size ≤ n + size - 1 := (Nat.le_div_iff_mul_le hsize).mp h
  rw [Nat.succ_mul] at hle
  omega

theorem mul_le_of_lt_totalPages {n size i : Nat} (h : i < totalPages n size) : i * size ≤ n := by
  rcases Nat.eq_zero_or_pos n with rfl | hn
  · rw [totalPages, if_pos rfl] at h
    obtain rfl : i = 0 := by omega
    omega
  · exact (mul_lt_of_lt_totalPages hn h).le

theorem getBatchPage_of_lt {n : Int} (hn : 0 < n) {i : Nat} (h : i < totalPages items.length n.toNat) :
    getBatchPage items (some n) i = .ok (batchPage items n.toNat i) := by
  have hindex : assertValidBatchIndex i = .ok () := by rw [assertValidBatchIndex, if_neg (by omega)]
  rw [getBatchPage, assertValidPageSize_some hn, hindex]
  show (.ok _ : Except SdkError (BatchPage T)) = _
  simp only [Int.toNat_natCast, Option.map_some, Option.getD_some, Nat.min_eq_left (mul_le_of_lt_totalPages h)]
  rfl

theorem getElem?_batchPages {items : List T} {pageSize i : Nat} {page : BatchPage T} :
    (batchPages items pageSize)[i]? = some page ↔
      i < totalPages items.length pageSize ∧ batchPage items pageSize i = page := by
  rw [batchPages, List.getElem?_map]
  by_cases h : i < totalPages items.length pageSize
  · simp [h]
  · simp [h]

/-- The batches of a list, for a size. -/
structure Batches (items : List T) (n : Int) (pages : List (BatchPage T)) : Prop where
  flatten : (pages.map (·.items)).flatten = items
  length_le : ∀ page ∈ pages, (page.items.length : Int) ≤ n
  ne_nil : items ≠ [] → ∀ page ∈ pages, page.items ≠ []
  /-- An empty list has one batch. -/
  of_nil : items = [] → pages.map (·.items) = [[]]
  getBatchPage_eq : ∀ (i : Nat) (page : BatchPage T), pages[i]? = some page → getBatchPage items (some n) i = .ok page

theorem batches_of_iterateBatches (items : List T) {n : Int} (h : 1 ≤ n) :
    ∃ pages, iterateBatches items (some n) = .ok pages ∧ Batches items n pages := by
  refine ⟨_, iterateBatches_some h items, flatten_batchPages items (by omega), ?_, ?_, ?_, ?_⟩
  · intro page hpage
    obtain ⟨i, -, rfl⟩ := List.mem_map.mp hpage
    have hle : (batchPage items n.toNat i).items.length ≤ n.toNat := List.length_take_le _ _
    omega
  · intro hne page hpage hnil
    obtain ⟨i, hi, rfl⟩ := List.mem_map.mp hpage
    have hlt := mul_lt_of_lt_totalPages (List.length_pos_iff.mpr hne) (List.mem_range.mp hi)
    have hlen : (batchPage items n.toNat i).items.length = 0 := by rw [hnil, List.length_nil]
    rw [batchPage, List.length_take, List.length_drop] at hlen
    omega
  · intro hnil
    rw [hnil]
    simp [batchPages, totalPages, batchPage]
  · intro i page hpage
    obtain ⟨hi, rfl⟩ := getElem?_batchPages.mp hpage
    exact getBatchPage_of_lt items h hi

/-- Five items in batches of two. -/
theorem batches_of_five : ∃ pages, iterateBatches [1, 2, 3, 4, 5] (some 2) = .ok pages ∧ Batches [1, 2, 3, 4, 5] 2 pages :=
  batches_of_iterateBatches [1, 2, 3, 4, 5] (by decide)

/-- The batch of an empty list is empty. -/
theorem empty_batch :
    ¬∀ (items : List Nat) (n : Int) (pages : List (BatchPage Nat)), 1 ≤ n → iterateBatches items (some n) = .ok pages →
      ∀ page ∈ pages, page.items ≠ [] := by
  intro h
  exact h [] 1 _ (by decide) rfl _ List.mem_cons_self rfl

end ZkPayroll.Batch
