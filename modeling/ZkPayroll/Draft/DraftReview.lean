import Mathlib.Algebra.Order.Floor.Ring
import Mathlib.Algebra.Order.Ring.Int
import ZkPayroll.Draft.DraftBuilder

/-!
# Review of a draft

`build` succeeds exactly for entries that are `Valid` (`build_ok_iff`). The
totals of `summary` are the sums of the amounts of each asset
(`lookup_tally`), except for an asset with the name of a property that every
object inherits: that property is not `undefined`, so its total does not start
at zero (`lookup_tally_inherited`).
-/

namespace ZkPayroll.Draft

open Framework ZkPayroll.Core Remediation

variable {ν : Type}

/-! ## Validation -/

/-- A recipient and an asset that are not blank, and an amount that is a
positive integer. -/
structure ValidEntry (entry : PayrollDraftEntry) : Prop where
  recipientId : ∃ r, entry.recipientId = some r ∧ isBlank r = false
  amount : ∃ a n, entry.amount = some a ∧ bigIntOf a = some n ∧ 0 < n
  asset : ∃ a, entry.asset = some a ∧ isBlank a = false

/-- The entries pass every check. -/
structure Valid (entries : List PayrollDraftEntry) : Prop where
  not_empty : entries ≠ []
  each : ∀ entry ∈ entries, ValidEntry entry
  distinct : (entries.map PayrollDraftEntry.recipientId).Nodup

theorem isMissing_eq_false_iff {s : Option String} : isMissing s = false ↔ ∃ t, s = some t ∧ isBlank t = false := by
  cases s <;> simp [isMissing]

variable {entry : PayrollDraftEntry}

theorem recipientErrors_eq_nil_iff {firstIdx : Option Nat} {i : Nat} :
    recipientErrors entry firstIdx i = [] ↔ isMissing entry.recipientId = false ∧ firstIdx = none := by
  unfold recipientErrors
  cases isMissing entry.recipientId <;> cases firstIdx <;> simp

theorem amountErrors_eq_nil_iff {i : Nat} :
    amountErrors entry i = [] ↔ ∃ a n, entry.amount = some a ∧ bigIntOf a = some n ∧ 0 < n := by
  have hread : ∀ raw : String, ¬(isBlank raw = true ∨ (bigIntOf (if raw = "" then "0" else raw)).getD 0 ≤ 0) ↔
      ∃ n, bigIntOf raw = some n ∧ 0 < n := by
    intro raw
    by_cases hblank : isBlank raw = true
    · refine iff_of_false (fun h => h (.inl hblank)) ?_
      rintro ⟨n, hn, hpos⟩
      rw [bigIntOf_of_isBlank hblank] at hn
      cases hn
      exact absurd hpos (by decide)
    · have hne : raw ≠ "" := by
        rintro rfl
        exact hblank (by decide +kernel)
      rw [if_neg hne, or_iff_right hblank, not_le]
      cases bigIntOf raw <;> simp
  unfold amountErrors
  cases hamount : entry.amount with
  | none =>
    have hblank : isBlank "" = true := by decide +kernel
    exact iff_of_false (by simp [hblank]) (by simp)
  | some a =>
    simp only [Option.getD_some, Option.some.injEq, exists_eq_left', ite_eq_right_iff, List.cons_ne_nil, imp_false,
      exists_and_left, hread]

theorem assetErrors_eq_nil_iff {i : Nat} :
    assetErrors entry i = [] ↔ isMissing entry.asset = false := by
  unfold assetErrors
  cases isMissing entry.asset <;> simp

theorem lookup_seeRecipient {seen : List (String × Nat)} {r : String} {i : Nat}
    (hr : entry.recipientId = some r) (hblank : isBlank r = false) (hnew : seen.lookup r = none) (l : String) :
    (seeRecipient seen entry i).lookup l = if l = r then some i else seen.lookup l := by
  have hno : ¬(isBlank r = true ∨ (seen.lookup r).isSome = true) := by
    rw [hblank, hnew]
    decide
  unfold seeRecipient
  rw [hr]
  simp only [if_neg hno, lookup_setKey]

/-- The entries from one on have no errors when they are valid and none of
their recipients was seen before. -/
theorem entryErrors_eq_nil_iff : ∀ {entries : List PayrollDraftEntry} {i : Nat} {seen : List (String × Nat)},
    entryErrors entries i seen = [] ↔
      (∀ entry ∈ entries, ValidEntry entry) ∧ (entries.map PayrollDraftEntry.recipientId).Nodup ∧
        ∀ entry ∈ entries, entry.recipientId.bind (fun r => seen.lookup r) = none
  | [], _, _ => by simp [entryErrors]
  | entry :: entries, i, seen => by
    have ih := @entryErrors_eq_nil_iff entries (i + 1) (seeRecipient seen entry i)
    simp only [entryErrors, List.append_eq_nil_iff, recipientErrors_eq_nil_iff, amountErrors_eq_nil_iff,
      assetErrors_eq_nil_iff, ih, List.forall_mem_cons, List.map_cons, List.nodup_cons]
    have hrest : ∀ {r : String}, entry.recipientId = some r → isBlank r = false → seen.lookup r = none →
        ((∀ e ∈ entries, e.recipientId.bind (fun s => (seeRecipient seen entry i).lookup s) = none) ↔
          entry.recipientId ∉ entries.map PayrollDraftEntry.recipientId ∧
            ∀ e ∈ entries, e.recipientId.bind (fun s => seen.lookup s) = none) := by
      intro r hr hblank hnew
      have heach : ∀ e : PayrollDraftEntry, e.recipientId.bind (fun s => (seeRecipient seen entry i).lookup s) = none ↔
          e.recipientId ≠ some r ∧ e.recipientId.bind (fun s => seen.lookup s) = none := by
        intro e
        cases e.recipientId with
        | none => simp
        | some s =>
          rw [Option.bind_some, lookup_seeRecipient hr hblank hnew]
          by_cases hs : s = r <;> simp [hs]
      simp only [heach, hr, List.mem_map, not_exists, not_and]
      exact ⟨fun h => ⟨fun e he => (h e he).1, fun e he => (h e he).2⟩, fun h e he => ⟨h.1 e he, h.2 e he⟩⟩
    constructor
    · rintro ⟨⟨⟨⟨hmissing, hfirst⟩, hamount⟩, hasset⟩, hvalid, hnodup, hseen⟩
      obtain ⟨r, hr, hblank⟩ := isMissing_eq_false_iff.mp hmissing
      have hnew : seen.lookup r = none := by simpa [hr] using hfirst
      obtain ⟨hnot, hold⟩ := (hrest hr hblank hnew).mp hseen
      exact ⟨⟨⟨⟨r, hr, hblank⟩, hamount, isMissing_eq_false_iff.mp hasset⟩, hvalid⟩, ⟨hnot, hnodup⟩, hfirst, hold⟩
    · rintro ⟨⟨hentry, hvalid⟩, ⟨hnot, hnodup⟩, hfirst, hold⟩
      obtain ⟨r, hr, hblank⟩ := hentry.recipientId
      have hnew : seen.lookup r = none := by simpa [hr] using hfirst
      exact ⟨⟨⟨⟨isMissing_eq_false_iff.mpr hentry.recipientId, hfirst⟩, hentry.amount⟩,
        isMissing_eq_false_iff.mpr hentry.asset⟩, hvalid, hnodup, (hrest hr hblank hnew).mpr ⟨hnot, hold⟩⟩

theorem build_ok_iff (b : DraftBuilder) (now : String) : (∃ draft, b.build now = .ok draft) ↔ Valid b.entries := by
  have herrors : (∃ draft, b.build now = .ok draft) ↔ b.validate.errors = [] := by
    unfold DraftBuilder.build
    cases b.validate.errors <;> simp
  have hvalid : Valid b.entries ↔ b.entries ≠ [] ∧ (∀ entry ∈ b.entries, ValidEntry entry) ∧
      (b.entries.map PayrollDraftEntry.recipientId).Nodup :=
    ⟨fun h => ⟨h.not_empty, h.each, h.distinct⟩, fun h => ⟨h.1, h.2.1, h.2.2⟩⟩
  rw [herrors, hvalid, DraftBuilder.validate]
  split
  · rename_i hempty
    exact iff_of_false (List.cons_ne_nil _ _) fun h => h.1 (List.length_eq_zero_iff.mp hempty)
  · rename_i hempty
    rw [entryErrors_eq_nil_iff]
    simp [List.length_eq_zero_iff.not.mp hempty]

/-! ## Totals -/

/-- The sum of the amounts of an asset; an amount that is not read counts
nothing. -/
def exactTotal (entries : List PayrollDraftEntry) (asset : String) : Int :=
  ((entries.filter fun entry => entry.asset = some asset).map fun entry => (countedAmount entry).getD 0).sum

/-- The totals have the assets of the entries for keys, and for each the sum of
its amounts. An entry with the empty text for an asset has none. -/
def TotalsExact (entries : List PayrollDraftEntry) (totals : List (String × String)) : Prop :=
  ∀ asset, totals.lookup asset =
    if asset ≠ "" ∧ ∃ entry ∈ entries, entry.asset = some asset then some (toString (exactTotal entries asset)) else none

theorem exactTotal_append (entries : List PayrollDraftEntry) (entry : PayrollDraftEntry) (asset : String) :
    exactTotal (entries ++ [entry]) asset =
      exactTotal entries asset + if entry.asset = some asset then (countedAmount entry).getD 0 else 0 := by
  rw [exactTotal, List.filter_append, List.map_append, List.sum_append, ← exactTotal]
  by_cases h : entry.asset = some asset <;> simp [h]

theorem exactTotal_of_no_entry {entries : List PayrollDraftEntry} {asset : String}
    (h : ¬∃ entry ∈ entries, entry.asset = some asset) :
    exactTotal entries asset = 0 := by
  have hnil : entries.filter (fun e => e.asset = some asset) = [] := by
    simpa [List.filter_eq_nil_iff] using h
  rw [exactTotal, hnil]
  rfl

variable {total : Total}

theorem lookup_writeTotal {totals : List (String × Total)} {key l : String} (h : key ≠ "__proto__") :
    (writeTotal totals key total).lookup l = if l = key then some total else totals.lookup l := by
  rw [writeTotal, if_neg h, lookup_setKey]

theorem lookup_writeTotal_of_ne {totals : List (String × Total)} {key l : String} (h : l ≠ key) :
    (writeTotal totals key total).lookup l = totals.lookup l := by
  unfold writeTotal
  split
  · rfl
  · rw [lookup_setKey, if_neg h]

theorem lookup_start_of_ne {t : Tally} {asset l : String} (h : l ≠ asset) :
    (t.start asset).totalsByAsset.lookup l = t.totalsByAsset.lookup l := by
  unfold Tally.start
  split
  · exact lookup_writeTotal_of_ne h
  · rfl

theorem lookup_add_of_ne {t : Tally} {asset l : String} {amount : Option Int} (h : l ≠ asset) :
    (t.add asset amount).totalsByAsset.lookup l = t.totalsByAsset.lookup l := by
  unfold Tally.add
  split
  · exact lookup_writeTotal_of_ne h
  · rfl

/-- An entry leaves the totals of other assets alone. -/
theorem lookup_tallyEntry_of_ne {t : Tally} {l : String} (h : entry.asset ≠ some l) :
    (tallyEntry t entry).totalsByAsset.lookup l = t.totalsByAsset.lookup l := by
  unfold tallyEntry
  split
  · rename_i asset hasset
    have hne : l ≠ asset := fun hl => h (by rw [hasset, hl])
    split
    · rfl
    · rw [lookup_add_of_ne hne, lookup_start_of_ne hne]
  · rfl

theorem lookup_tally_of_no_entry {entries : List PayrollDraftEntry} {asset : String}
    (h : ¬∃ entry ∈ entries, entry.asset = some asset) :
    (entries.foldl tallyEntry {}).totalsByAsset.lookup asset = none := by
  induction entries using List.reverseRecOn with
  | nil => rfl
  | append_singleton entries entry ih =>
    have hentry : entry.asset ≠ some asset := fun hasset => h ⟨entry, by simp, hasset⟩
    rw [List.foldl_append, List.foldl_cons, List.foldl_nil, lookup_tallyEntry_of_ne hentry]
    exact ih fun ⟨e, he, hasset⟩ => h ⟨e, List.mem_append_left _ he, hasset⟩

section Own

variable {asset : String} (hown : asset ∉ inheritedNames)
include hown

theorem readTotal_of_own (totals : List (String × Total)) : readTotal totals asset = totals.lookup asset := by
  rw [readTotal, if_neg hown, Option.or_none]

theorem ne_proto_of_own : asset ≠ "__proto__" := fun hp => hown (by rw [hp]; decide)

theorem lookup_start {t : Tally} {n : Option Int} (h : t.totalsByAsset.lookup asset = n.map .bigint) :
    (t.start asset).totalsByAsset.lookup asset = some (.bigint (n.getD 0)) := by
  rw [Tally.start, readTotal_of_own hown, h]
  cases n with
  | none => exact (lookup_writeTotal (ne_proto_of_own hown)).trans (if_pos rfl)
  | some n => exact h

theorem lookup_add {t : Tally} {n : Int} {amount : Option Int} (h : t.totalsByAsset.lookup asset = some (.bigint n)) :
    (t.add asset amount).totalsByAsset.lookup asset = some (.bigint (n + amount.getD 0)) := by
  unfold Tally.add
  rw [readTotal_of_own hown, h]
  cases amount with
  | none => simpa using h
  | some m => exact (lookup_writeTotal (ne_proto_of_own hown)).trans (if_pos rfl)

/-- An entry of the asset adds its amount to a total that is a number, or that
is not there yet. -/
theorem lookup_tallyEntry {t : Tally} {entry : PayrollDraftEntry} (hasset : entry.asset = some asset) (hne : asset ≠ "")
    {n : Option Int} (h : t.totalsByAsset.lookup asset = n.map .bigint) :
    (tallyEntry t entry).totalsByAsset.lookup asset = some (.bigint (n.getD 0 + (countedAmount entry).getD 0)) := by
  have hcount : tallyEntry t entry = (t.start asset).add asset (countedAmount entry) := by
    rw [tallyEntry, hasset]
    exact if_neg hne
  rw [hcount]
  exact lookup_add hown (lookup_start hown h)

/-- The total of an asset that is no inherited name. -/
theorem lookup_tally (entries : List PayrollDraftEntry) :
    (entries.foldl tallyEntry {}).totalsByAsset.lookup asset =
      if asset ≠ "" ∧ ∃ entry ∈ entries, entry.asset = some asset then some (.bigint (exactTotal entries asset))
      else none := by
  induction entries using List.reverseRecOn with
  | nil => simp
  | append_singleton entries entry ih =>
    rw [List.foldl_append, List.foldl_cons, List.foldl_nil, exactTotal_append]
    by_cases hasset : entry.asset = some asset
    · by_cases hempty : asset = ""
      · have hskip : ∀ t, tallyEntry t entry = t := by
          intro t
          rw [tallyEntry, hasset]
          exact if_pos hempty
        rw [hskip, ih, if_neg fun h => h.1 hempty, if_neg fun h => h.1 hempty]
      · rw [if_pos hasset, if_pos ⟨hempty, entry, by simp, hasset⟩]
        by_cases hsome : ∃ e ∈ entries, e.asset = some asset
        · rw [if_pos ⟨hempty, hsome⟩] at ih
          exact lookup_tallyEntry hown hasset hempty (n := some (exactTotal entries asset)) ih
        · rw [if_neg fun h => hsome h.2] at ih
          rw [exactTotal_of_no_entry hsome]
          exact lookup_tallyEntry hown hasset hempty (n := none) ih
    · have hsame : (∃ e ∈ entries ++ [entry], e.asset = some asset) ↔ ∃ e ∈ entries, e.asset = some asset := by
        simp [hasset]
      simp only [lookup_tallyEntry_of_ne hasset, ih, if_neg hasset, Int.add_zero, hsame]

end Own

/-- A text that starts like that of a function. -/
def LikeFunction (total : Total) : Prop := ∃ s, total = .text ("f" ++ s)

theorem likeFunction_add (h : LikeFunction total) (n : Int) : LikeFunction (total.add n) := by
  obtain ⟨s, rfl⟩ := h
  exact ⟨s ++ toString n, congrArg Total.text (String.append_assoc)⟩

theorem likeFunction_functionText (name : String) : LikeFunction (.text (functionText name)) := by
  refine ⟨"unction " ++ name ++ "() \x7b [native code] \x7d", congrArg Total.text ?_⟩
  rw [functionText, ← String.append_assoc, ← String.append_assoc]
  rfl

section Inherited

variable {asset : String} (hname : asset ∈ inheritedNames)
include hname

/-- An inherited property is never `undefined`. -/
theorem start_of_inherited (t : Tally) : t.start asset = t := by
  rw [Tally.start, readTotal, if_pos hname]
  cases t.totalsByAsset.lookup asset <;> rfl

theorem likeFunction_readTotal {totals : List (String × Total)} (hproto : asset ≠ "__proto__")
    (h : ∀ total ∈ totals.lookup asset, LikeFunction total) : ∀ total ∈ readTotal totals asset, LikeFunction total := by
  rw [readTotal, if_pos hname, inheritedText, if_neg hproto]
  cases hlookup : totals.lookup asset with
  | none =>
    rintro _ ⟨⟩
    split <;> exact likeFunction_functionText _
  | some total =>
    rw [Option.some_or, ← hlookup]
    exact h

theorem likeFunction_add_lookup {t : Tally} {amount : Option Int}
    (h : ∀ total ∈ t.totalsByAsset.lookup asset, LikeFunction total) :
    ∀ total ∈ (t.add asset amount).totalsByAsset.lookup asset, LikeFunction total := by
  unfold Tally.add
  split
  · rename_i total n hread
    by_cases hproto : asset = "__proto__"
    · rwa [writeTotal, if_pos hproto]
    · rw [lookup_writeTotal hproto, if_pos rfl]
      rintro _ ⟨⟩
      exact likeFunction_add (likeFunction_readTotal hname hproto h total hread) n
  · exact h

/-- The total of an inherited name is not there, or starts like a function. -/
theorem lookup_tally_inherited (entries : List PayrollDraftEntry) :
    ∀ total ∈ (entries.foldl tallyEntry {}).totalsByAsset.lookup asset, LikeFunction total := by
  induction entries using List.reverseRecOn with
  | nil => simp
  | append_singleton entries entry ih =>
    rw [List.foldl_append, List.foldl_cons, List.foldl_nil]
    by_cases hasset : entry.asset = some asset
    · have hne : asset ≠ "" := by
        rintro rfl
        revert hname
        decide
      have hcount : tallyEntry (entries.foldl tallyEntry {}) entry =
          (entries.foldl tallyEntry {}).add asset (countedAmount entry) := by
        rw [tallyEntry, hasset]
        exact (if_neg hne).trans (by rw [start_of_inherited hname])
      rw [hcount]
      exact likeFunction_add_lookup hname ih
    · rwa [lookup_tallyEntry_of_ne hasset]

end Inherited

/-- No number is written like a function. -/
theorem toString_ne_like_function (n : Int) (s : String) : toString n ≠ "f" ++ s := by
  intro h
  have hlist := congrArg String.toList h
  rw [String.toList_append] at hlist
  cases n with
  | ofNat n =>
    obtain ⟨c, cs, hdigits, hc⟩ := toDigits_head n
    have htext : (toString (Int.ofNat n)).toList = Nat.toDigits 10 n := Nat.toList_repr
    rw [htext, hdigits] at hlist
    cases (List.cons.inj hlist).1
    exact absurd hc (by decide)
  | negSucc n =>
    have htext : toString (Int.negSucc n) = "-" ++ toString (n + 1) := rfl
    rw [htext, String.toList_append] at hlist
    exact absurd (List.cons.inj hlist).1 (by decide)

/-- The assets of the entries are not inherited names. -/
def OrdinaryAssets (entries : List PayrollDraftEntry) : Prop :=
  ∀ entry ∈ entries, ∀ asset, entry.asset = some asset → asset ∉ inheritedNames

theorem totalsExact_iff (b : DraftBuilder) : TotalsExact b.entries b.summary.totalsByAsset ↔ OrdinaryAssets b.entries := by
  have hlookup : ∀ asset, b.summary.totalsByAsset.lookup asset =
      ((b.entries.foldl tallyEntry {}).totalsByAsset.lookup asset).map Total.toText := fun asset =>
    lookup_mapValues _ _ _
  constructor
  · intro hexact entry hentry asset hasset hname
    have hne : asset ≠ "" := by
      rintro rfl
      revert hname
      decide
    have htotal := hexact asset
    rw [if_pos ⟨hne, entry, hentry, hasset⟩, hlookup] at htotal
    obtain ⟨total, hmem, htext⟩ := Option.map_eq_some_iff.mp htotal
    obtain ⟨s, rfl⟩ := lookup_tally_inherited hname b.entries total hmem
    exact toString_ne_like_function _ s htext.symm
  · intro hordinary asset
    rw [hlookup]
    by_cases hname : asset ∈ inheritedNames
    · have hno : ¬∃ entry ∈ b.entries, entry.asset = some asset := by
        rintro ⟨entry, hentry, hasset⟩
        exact hordinary entry hentry asset hasset hname
      rw [if_neg fun h => hno h.2, lookup_tally_of_no_entry hno]
      rfl
    · rw [lookup_tally hname]
      split <;> rfl

/-! ## Edits -/

/-- The entries that an edit brings. -/
def Edit.entries : Edit ν → List PayrollDraftEntry
  | .add entry => [entry]
  | .addMany entries => entries
  | .update _ entry => [entry]
  | _ => []

section Edits

variable [NumberFormat ν] [Ring ν] [LinearOrder ν] [FloorRing ν]

omit [NumberFormat ν] [Ring ν] [LinearOrder ν] [FloorRing ν] in
theorem addMany_eq (entries : List PayrollDraftEntry) (b : DraftBuilder) :
    DraftBuilder.addMany entries b = .ok () { b with entries := b.entries ++ entries } := by
  induction entries generalizing b with
  | nil => rw [List.append_nil]; rfl
  | cons entry entries ih =>
    have hadd : DraftBuilder.addMany (entry :: entries) b =
        DraftBuilder.addMany entries { b with entries := b.entries ++ [entry] } := rfl
    rw [hadd, ih, List.append_assoc, List.singleton_append]

/-- An edit leaves no other entries than the ones before and those it brings. -/
theorem mem_entries_after {edit : Edit ν} {b : DraftBuilder} {entry : PayrollDraftEntry}
    (h : entry ∈ ((DraftBuilder.call edit).after b).entries) : entry ∈ b.entries ∨ entry ∈ edit.entries := by
  cases edit with
  | add new => exact List.mem_append.mp h
  | addMany new =>
    rw [DraftBuilder.call, Method.after, addMany_eq] at h
    exact List.mem_append.mp h
  | update index new =>
    rw [DraftBuilder.call, DraftBuilder.update, Method.after, Method.get_bind] at h
    cases hindex : DraftBuilder.assertIndex b.entries index "update" with
    | error e =>
      rw [hindex] at h
      exact .inl h
    | ok i =>
      rw [hindex] at h
      exact (List.mem_or_eq_of_mem_set h).imp_right List.mem_singleton.mpr
  | remove index =>
    rw [DraftBuilder.call, DraftBuilder.remove, Method.after, Method.get_bind] at h
    cases hindex : DraftBuilder.assertIndex b.entries index "remove" with
    | error e =>
      rw [hindex] at h
      exact .inl h
    | ok i =>
      rw [hindex] at h
      exact .inl (List.mem_of_mem_eraseIdx h)
  | clear => cases h
  | setLabel label => exact .inl h

/-- Edits that bring ordinary assets keep the assets ordinary. -/
theorem ordinaryAssets_edited {edits : List (Edit ν)} (hedits : ∀ edit ∈ edits, OrdinaryAssets edit.entries) :
    ∀ {b : DraftBuilder}, OrdinaryAssets b.entries → OrdinaryAssets (b.edited edits).entries := by
  induction edits with
  | nil => exact fun h => h
  | cons edit edits ih =>
    intro b hb
    rw [List.forall_mem_cons] at hedits
    refine ih hedits.2 (b := (DraftBuilder.call edit).after b) fun entry hentry asset hasset => ?_
    rcases mem_entries_after hentry with hold | hnew
    · exact hb entry hold asset hasset
    · exact hedits.1 entry hnew asset hasset

/-- What the review of a builder is to say: a draft is built exactly from valid
entries, and the totals are exact. -/
structure Reviewed (b : DraftBuilder) : Prop where
  build_ok : ∀ now, (∃ draft, b.build now = .ok draft) ↔ Valid b.entries
  totals : TotalsExact b.entries b.summary.totalsByAsset

/-- After any edits, the review is right exactly where no asset has the name of
a property that every object inherits; and so it is after edits that bring no
such asset. -/
theorem reviewed_iff (b : DraftBuilder) (edits : List (Edit ν)) :
    (Reviewed (b.edited edits) ↔ OrdinaryAssets (b.edited edits).entries) ∧
      (OrdinaryAssets b.entries → (∀ edit ∈ edits, OrdinaryAssets edit.entries) → Reviewed (b.edited edits)) := by
  have hiff : ∀ b : DraftBuilder, Reviewed b ↔ OrdinaryAssets b.entries := fun b =>
    ⟨fun h => (totalsExact_iff b).mp h.totals, fun h => ⟨build_ok_iff b, (totalsExact_iff b).mpr h⟩⟩
  exact ⟨hiff _, fun hb hedits => (hiff _).mpr (ordinaryAssets_edited hedits hb)⟩

end Edits

/-! ## An asset named like a property -/

/-- A new builder with one entry of the asset. -/
def oneEntry (asset : String) : DraftBuilder :=
  (DraftBuilder.new "now" none none).edited
    [(.add { recipientId := some "GA", amount := some "1000", asset := some asset } : Edit Int)]

theorem oneEntry_reviewed : Reviewed (oneEntry "USDC") := by
  refine (reviewed_iff (DraftBuilder.new "now" none none) _).2 (List.forall_mem_nil _) ?_
  unfold OrdinaryAssets
  decide

/-- The total of such an asset is the text of a function with the amount at its
end. -/
theorem constructor_total :
    (oneEntry "constructor").summary.totalsByAsset = [("constructor", "function Object() \x7b [native code] \x7d1000")] ∧
      ¬Reviewed (oneEntry "constructor") := by
  have htotals : (oneEntry "constructor").summary.totalsByAsset =
      [("constructor", "function Object() \x7b [native code] \x7d1000")] := by
    decide +kernel
  refine ⟨htotals, fun hreviewed => ?_⟩
  have hexact := hreviewed.totals "constructor"
  rw [htotals] at hexact
  revert hexact
  decide +kernel

end ZkPayroll.Draft
