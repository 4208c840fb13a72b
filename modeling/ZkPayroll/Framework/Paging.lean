import Mathlib.Data.List.Basic

/-!
# Collections read by cursor

A collection is read a page at a time: a page has some items and, unless it is
the last, the cursor of the next. `Pages read c ps` says that from the cursor
`c` on the collection ends after the pages `ps`, and `PagesUntil read c n` that
the page after the next `n` is refused.
-/

namespace ZkPayroll.Framework

/-- Items, and where to go on. -/
structure Page (α : Type) where
  items : List α
  nextCursor : Option String := none

variable {α ε : Type} {read : Option String → Except ε (Page α)} {c : Option String} {ps : List (List α)}

/-- The pages that are read from a cursor on. -/
inductive Pages (read : Option String → Except ε (Page α)) : Option String → List (List α) → Prop
  | last {c : Option String} {items : List α} (h : read c = .ok { items := items }) : Pages read c [items]
  | more {c : Option String} {next : String} {items : List α} {ps : List (List α)}
      (h : read c = .ok { items := items, nextCursor := some next }) (hps : Pages read (some next) ps) :
      Pages read c (items :: ps)

/-- The pages that are read until one fails. -/
inductive PagesUntil (read : Option String → Except ε (Page α)) : Option String → Nat → Prop
  | now {c : Option String} {e : ε} (h : read c = .error e) : PagesUntil read c 0
  | later {c : Option String} {next : String} {items : List α} {n : Nat}
      (h : read c = .ok { items := items, nextCursor := some next }) (hn : PagesUntil read (some next) n) :
      PagesUntil read c (n + 1)

/-- There is always a page to read. -/
theorem Pages.length_pos (h : Pages read c ps) : 0 < ps.length := by
  cases h <;> simp

/-- A cursor at which the same page is read leads to the same pages. -/
theorem Pages.of_read_eq (h : Pages read c ps) {c' : Option String} (hread : read c' = read c) : Pages read c' ps := by
  cases h with
  | last hc => exact .last (hread.trans hc)
  | more hc hps => exact .more (hread.trans hc) hps

/-- What a cursor leads to is determined. -/
theorem Pages.unique (h : Pages read c ps) {qs : List (List α)} (h' : Pages read c qs) : ps = qs := by
  induction h generalizing qs with
  | last hc =>
    cases h' with
    | last hc' =>
      obtain rfl := congrArg Page.items (Except.ok.inj (hc.symm.trans hc'))
      rfl
    | more hc' _ => cases hc.symm.trans hc'
  | more hc _ ih =>
    cases h' with
    | last hc' => cases hc.symm.trans hc'
    | more hc' hq =>
      obtain ⟨rfl, hnext⟩ := Page.mk.inj (Except.ok.inj (hc.symm.trans hc'))
      obtain rfl := Option.some.inj hnext
      rw [ih hq]

/-! ## What the first read says -/

section First

theorem not_pages_of_error {e : ε} (hread : read c = .error e) : ¬ Pages read c ps := by
  intro h
  cases h with
  | last h => cases hread.symm.trans h
  | more h => cases hread.symm.trans h

theorem pagesUntil_of_error {e : ε} (hread : read c = .error e) {n : Nat} : PagesUntil read c n ↔ n = 0 := by
  constructor
  · intro h
    cases h with
    | now _ => rfl
    | later h => cases hread.symm.trans h
  · rintro rfl
    exact .now hread

theorem pages_of_last {items : List α} (hread : read c = .ok { items := items }) : Pages read c ps ↔ ps = [items] :=
  ⟨fun h => h.unique (.last hread), fun h => h ▸ .last hread⟩

theorem not_pagesUntil_of_last {items : List α} (hread : read c = .ok { items := items }) {n : Nat} :
    ¬ PagesUntil read c n := by
  intro h
  cases h with
  | now h => cases hread.symm.trans h
  | later h => cases hread.symm.trans h

variable {next : String} {items : List α}

theorem pages_of_more (hread : read c = .ok { items := items, nextCursor := some next }) :
    Pages read c ps ↔ ∃ qs, ps = items :: qs ∧ Pages read (some next) qs := by
  constructor
  · intro h
    cases h with
    | last h => cases hread.symm.trans h
    | more h hps =>
      cases hread.symm.trans h
      exact ⟨_, rfl, hps⟩
  · rintro ⟨qs, rfl, hqs⟩
    exact .more hread hqs

theorem pagesUntil_of_more (hread : read c = .ok { items := items, nextCursor := some next }) {n : Nat} :
    PagesUntil read c n ↔ ∃ m, n = m + 1 ∧ PagesUntil read (some next) m := by
  constructor
  · intro h
    cases h with
    | now h => cases hread.symm.trans h
    | later h hn =>
      cases hread.symm.trans h
      exact ⟨_, rfl, hn⟩
  · rintro ⟨m, rfl, hm⟩
    exact .later hread hm

end First

end ZkPayroll.Framework
