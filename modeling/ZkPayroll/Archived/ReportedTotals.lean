import Mathlib.Algebra.Field.Rat
import Mathlib.Algebra.Order.Ring.Rat
import ZkPayroll.Archived.Selection

/-!
# The totals of a report

Every record counts in the totals (`foldlM_counts`). In the breakdown it counts
unless its asset is named like an inherited property, so that the breakdown
never has more than the totals have, and has as much only if no asset is
(`ordinary_of_even`); then it is never short (`foldlM_ordinary`).
-/

namespace ZkPayroll.Archived

open Framework ZkPayroll.Core Remediation

variable {μ ν : Type}

/-- One of the counts, and what a record adds to it. -/
structure IsCount (f : AssetBreakdownEntry → Nat) (w : SettledStatus → Nat) : Prop where
  zero : f {} = 0
  count : ∀ e status, f (e.count status) = f e + w status

theorem isCount_total : IsCount (·.totalCount) fun _ => 1 where
  zero := rfl
  count e status := by cases status <;> rfl

theorem isCount_completed : IsCount (·.completedCount) fun status => if status = .completed then 1 else 0 where
  zero := rfl
  count e status := by cases status <;> rfl

theorem isCount_failed : IsCount (·.failedCount) fun status => if status = .failed then 1 else 0 where
  zero := rfl
  count e status := by cases status <;> rfl

/-- The sum of a count over the breakdown. -/
def Tally.sum (f : AssetBreakdownEntry → Nat) (t : Tally) : Nat := (t.assetBreakdown.map fun g => f g.2).sum

/-- The asset is named like no property that all objects have. -/
def Ordinary (polluted : List String) (key : String) : Prop := key ∉ inheritedNames ∧ key ∉ polluted

/-! ## One record -/

variable {t t' : Tally}

/-- What counting a record does: it counts in an entry of its own, or in none. -/
theorem countRecord_cases {r : ArchivedRecord ν} (h : countRecord t r = .ok t') :
    t'.counts = t.counts.count r.status ∧
      ((t'.assetBreakdown = setKey (assetKey r) (((t.assetBreakdown.lookup (assetKey r)).getD {}).count r.status)
          t.assetBreakdown ∧ t'.polluted = t.polluted ∧
          ((t.assetBreakdown.lookup (assetKey r)).isSome = true ∨ Ordinary t.polluted (assetKey r))) ∨
        t'.assetBreakdown = t.assetBreakdown) := by
  simp only [countRecord] at h
  split at h
  next entry hentry =>
    cases h
    refine ⟨rfl, .inl ⟨?_, rfl, .inl ?_⟩⟩
    · rw [hentry]
      rfl
    · rw [hentry]
      rfl
  next hnone =>
    split at h
    next =>
      cases h
      exact ⟨rfl, .inr rfl⟩
    next =>
      split at h
      next => cases h
      next hpolluted =>
        split at h
        next =>
          cases h
          exact ⟨rfl, .inr rfl⟩
        next hinherited =>
          cases h
          refine ⟨rfl, .inl ⟨?_, rfl, .inr ⟨hinherited, hpolluted⟩⟩⟩
          rw [hnone]
          rfl

/-- A record with an ordinary asset counts in an entry. -/
theorem countRecord_ordinary {t : Tally} {r : ArchivedRecord ν} (h : Ordinary t.polluted (assetKey r)) :
    countRecord t r = .ok { t with
      counts := t.counts.count r.status
      assetBreakdown := setKey (assetKey r) (((t.assetBreakdown.lookup (assetKey r)).getD {}).count r.status)
        t.assetBreakdown } := by
  have hproto : assetKey r ≠ "__proto__" := fun heq => h.1 (heq ▸ by decide)
  simp only [countRecord]
  cases hentry : t.assetBreakdown.lookup (assetKey r) with
  | some entry => rfl
  | none =>
    simp only [if_neg hproto, if_neg h.1, if_neg h.2]
    rfl

/-- An entry that counts one record more. -/
theorem sum_setKey {f : AssetBreakdownEntry → Nat} {w : SettledStatus → Nat} (hf : IsCount f w) (key : String)
    (status : SettledStatus) (m : List (String × AssetBreakdownEntry)) :
    ((setKey key (((m.lookup key).getD {}).count status) m).map fun g => f g.2).sum =
      (m.map fun g => f g.2).sum + w status := by
  have hsum := sum_map_setKey f key (((m.lookup key).getD {}).count status) m
  rw [hf.count] at hsum
  cases hentry : m.lookup key with
  | none =>
    rw [hentry] at hsum
    simp only [Option.map_none, Option.getD_none, hf.zero] at hsum ⊢
    omega
  | some entry =>
    rw [hentry] at hsum
    simp only [Option.map_some, Option.getD_some] at hsum ⊢
    omega

/-! ## All records -/

variable {records : List (ArchivedRecord ν)}

/-- Every record counts in the totals. -/
theorem foldlM_counts {f : AssetBreakdownEntry → Nat} {w : SettledStatus → Nat} (hf : IsCount f w)
    (h : records.foldlM countRecord t = .ok t') :
    f t'.counts = f t.counts + (records.map fun r => w r.status).sum := by
  induction records generalizing t with
  | nil =>
    cases h
    rfl
  | cons r records ih =>
    rw [List.foldlM_cons] at h
    obtain ⟨t₁, ht₁, h⟩ := except_bind_eq_ok.mp h
    obtain ⟨hcounts, -⟩ := countRecord_cases ht₁
    rw [ih h, hcounts, hf.count, List.map_cons, List.sum_cons, Nat.add_assoc]

/-- Where all assets are ordinary, every record counts in the breakdown. -/
theorem foldlM_ordinary {t : Tally} (h : ∀ r ∈ records, Ordinary t.polluted (assetKey r)) :
    ∃ t', records.foldlM countRecord t = .ok t' ∧ ∀ f w, IsCount f w →
      t'.sum f = t.sum f + (records.map fun r => w r.status).sum := by
  induction records generalizing t with
  | nil => exact ⟨t, rfl, fun f w _ => rfl⟩
  | cons r records ih =>
    rw [List.forall_mem_cons] at h
    have hstep := countRecord_ordinary h.1
    obtain ⟨t', ht', hsums⟩ := ih (t := { t with
      counts := t.counts.count r.status
      assetBreakdown := setKey (assetKey r) (((t.assetBreakdown.lookup (assetKey r)).getD {}).count r.status)
        t.assetBreakdown }) h.2
    refine ⟨t', ?_, fun f w hf => ?_⟩
    · rw [List.foldlM_cons, hstep]
      exact ht'
    · rw [hsums f w hf, List.map_cons, List.sum_cons, ← Nat.add_assoc]
      congr 1
      exact sum_setKey hf _ _ _

/-- The breakdown never gains on the totals. -/
theorem foldlM_behind (h : records.foldlM countRecord t = .ok t') :
    t'.sum (·.totalCount) + t.counts.totalCount ≤ t.sum (·.totalCount) + t'.counts.totalCount := by
  induction records generalizing t with
  | nil =>
    cases h
    exact Nat.le_refl _
  | cons r records ih =>
    rw [List.foldlM_cons] at h
    obtain ⟨t₁, ht₁, h⟩ := except_bind_eq_ok.mp h
    obtain ⟨hcounts, hbreakdown⟩ := countRecord_cases ht₁
    have hrest := ih h
    have htotal : t₁.counts.totalCount = t.counts.totalCount + 1 := by
      rw [hcounts]
      exact isCount_total.count _ _
    have hsum : t₁.sum (·.totalCount) ≤ t.sum (·.totalCount) + 1 := by
      rcases hbreakdown with ⟨hset, -⟩ | hsame
      · rw [Tally.sum, hset]
        exact Nat.le_of_eq (sum_setKey isCount_total _ _ _)
      · rw [Tally.sum, hsame]
        exact Nat.le_succ _
    omega

/-- If the breakdown keeps up with the totals, all assets are ordinary. -/
theorem ordinary_of_even (h : records.foldlM countRecord t = .ok t')
    (heven : t'.sum (·.totalCount) + t.counts.totalCount = t.sum (·.totalCount) + t'.counts.totalCount)
    (hkeys : ∀ key ∈ t.assetBreakdown.map Prod.fst, Ordinary t.polluted key) :
    ∀ r ∈ records, Ordinary t.polluted (assetKey r) := by
  induction records generalizing t with
  | nil =>
    intro r hr
    cases hr
  | cons r records ih =>
    rw [List.foldlM_cons] at h
    obtain ⟨t₁, ht₁, h⟩ := except_bind_eq_ok.mp h
    obtain ⟨hcounts, hbreakdown⟩ := countRecord_cases ht₁
    have hrest := foldlM_behind h
    have htotal : t₁.counts.totalCount = t.counts.totalCount + 1 := by
      rw [hcounts]
      exact isCount_total.count _ _
    rcases hbreakdown with ⟨hset, hpolluted, hkey⟩ | hsame
    · have hsum : t₁.sum (·.totalCount) = t.sum (·.totalCount) + 1 := by
        rw [Tally.sum, hset]
        exact sum_setKey isCount_total _ _ _
      have hordinary : Ordinary t.polluted (assetKey r) := by
        rcases hkey with hsome | hordinary
        · obtain ⟨entry, hentry⟩ := Option.isSome_iff_exists.mp hsome
          exact hkeys _ (List.mem_map_of_mem (f := Prod.fst) (lookup_mem hentry))
        · exact hordinary
      have hkeys₁ : ∀ key ∈ t₁.assetBreakdown.map Prod.fst, Ordinary t₁.polluted key := by
        intro key hmem
        rw [hset, mem_keys_setKey] at hmem
        rw [hpolluted]
        rcases hmem with rfl | hmem
        · exact hordinary
        · exact hkeys key hmem
      have hlater := ih h (by omega) hkeys₁
      rw [hpolluted] at hlater
      exact List.forall_mem_cons.mpr ⟨hordinary, hlater⟩
    · exfalso
      have hsum : t₁.sum (·.totalCount) = t.sum (·.totalCount) := by
        rw [Tally.sum, hsame]
        rfl
      omega

/-! ## The report -/

/-- The totals count these records, and the breakdown adds up to them. -/
structure AddsUp (report : ArchiveSummaryReport ν) (records : List (ArchivedRecord ν)) : Prop where
  total : report.totalCount = records.length
  completed : report.completedCount = records.countP (·.status = .completed)
  failed : report.failedCount = records.countP (·.status = .failed)
  totals : (report.assetBreakdown.map fun g => g.2.totalCount).sum = report.totalCount
  completions : (report.assetBreakdown.map fun g => g.2.completedCount).sum = report.completedCount
  failures : (report.assetBreakdown.map fun g => g.2.failedCount).sum = report.failedCount

theorem sum_ones (records : List (ArchivedRecord ν)) : (records.map fun _ => 1).sum = records.length := by
  simp

theorem sum_status (status : SettledStatus) (records : List (ArchivedRecord ν)) :
    (records.map fun r => if r.status = status then 1 else 0).sum = records.countP (·.status = status) := by
  induction records with
  | nil => rfl
  | cons r records ih =>
    rw [List.map_cons, List.sum_cons, ih, List.countP_cons, Nat.add_comm]
    simp

section Report

variable [NumberFormat μ] [Field ν] [LinearOrder ν] {parseDate : String → Option Int} {calls : List (Call μ)}

open ArchiveFilterBuilder (after)

/-- The period that was set last ends before it starts. -/
def Misordered (parseDate : String → Option Int) (calls : List (Call μ)) : Prop :=
  ∃ start stop startMs endMs, lastPeriod calls = some (start, stop) ∧ parseDate start = some startMs ∧
    parseDate stop = some endMs ∧ startMs > endMs

omit [Field ν] [LinearOrder ν] in
theorem validatePeriodOrdering_iff :
    validatePeriodOrdering parseDate (after calls).toParams = .ok () ↔ ¬Misordered parseDate calls := by
  have hparams := paramsOf_toParams (after calls)
  have hholds := holds_after calls
  rw [validatePeriodOrdering, hparams.periodStart, hparams.periodEnd, hholds.periodStart, hholds.periodEnd]
  unfold Misordered
  cases lastPeriod calls with
  | none => simp
  | some p =>
    obtain ⟨start, stop⟩ := p
    simp only [Option.map_some, Option.some.injEq, Prod.mk.injEq]
    cases hstart : parseDate start with
    | none =>
      refine iff_of_true rfl ?_
      rintro ⟨_, _, startMs, _, ⟨rfl, rfl⟩, hs, -⟩
      rw [hstart] at hs
      cases hs
    | some startMs =>
      cases hstop : parseDate stop with
      | none =>
        refine iff_of_true rfl ?_
        rintro ⟨_, _, _, endMs, ⟨rfl, rfl⟩, -, hs, -⟩
        rw [hstop] at hs
        cases hs
      | some endMs =>
        show throwIf _ _ = _ ↔ _
        rw [throwIf_eq_ok]
        refine not_congr ⟨fun h => ⟨start, stop, startMs, endMs, ⟨rfl, rfl⟩, hstart, hstop, h⟩, ?_⟩
        rintro ⟨_, _, startMs', endMs', ⟨rfl, rfl⟩, hs, he, h⟩
        rw [hstart] at hs
        rw [hstop] at he
        cases hs
        cases he
        exact h

/-- Unless the period is refused, a report is returned that counts the selected
records, and adds up. -/
def Reported (parseDate : String → Option Int) (now : ν) (polluted : List String) (calls : List (Call μ))
    (records : List (ArchivedRecord ν)) : Prop :=
  validatePeriodOrdering parseDate (after calls).toParams = .ok () →
    ∃ report selected, buildArchiveSummaryReport parseDate now polluted records (after calls).toParams = .ok report ∧
      applyArchiveQuery parseDate records (after calls).toParams = .ok selected ∧ AddsUp report selected

/-- A report that is returned counts the selected records. -/
theorem buildArchiveSummaryReport_eq_ok {now : ν} {polluted : List String} {records selected : List (ArchivedRecord ν)}
    {params : Params} {report : ArchiveSummaryReport ν}
    (h : buildArchiveSummaryReport parseDate now polluted records params = .ok report)
    (hselected : applyArchiveQuery parseDate records params = .ok selected) :
    ∃ tally, selected.foldlM countRecord { polluted := polluted } = .ok tally ∧
      report.totalCount = tally.counts.totalCount ∧ report.assetBreakdown = tally.assetBreakdown := by
  rw [buildArchiveSummaryReport] at h
  obtain ⟨_, -, h⟩ := except_bind_eq_ok.mp h
  obtain ⟨filtered, hfiltered, h⟩ := except_bind_eq_ok.mp h
  rw [hselected] at hfiltered
  cases hfiltered
  obtain ⟨tally, htally, h⟩ := except_bind_eq_ok.mp h
  cases h
  exact ⟨tally, htally, rfl, rfl⟩

theorem reported_iff {now : ν} {polluted : List String} {records : List (ArchivedRecord ν)} :
    Reported parseDate now polluted calls records ↔ Misordered parseDate calls ∨
      ∀ r ∈ records, Passes parseDate calls r → Ordinary polluted (assetKey r) := by
  classical
  rw [Reported, validatePeriodOrdering_iff, ← or_iff_not_imp_left]
  refine or_congr_right' fun hordered => ?_
  have hselected : applyArchiveQuery parseDate records (after calls).toParams =
      .ok (records.filter fun r => Passes parseDate calls r) := applyArchiveQuery_toParams records
  constructor
  · rintro ⟨report, selected, hreport, hselected', hadds⟩ r hr hpasses
    rw [hselected] at hselected'
    cases hselected'
    obtain ⟨tally, htally, htotal, hbreakdown⟩ := buildArchiveSummaryReport_eq_ok hreport hselected
    have heven : tally.sum (·.totalCount) = tally.counts.totalCount := by
      rw [← htotal, ← hadds.totals, hbreakdown]
      rfl
    refine ordinary_of_even htally ?_ (fun key hkey => nomatch hkey) r ?_
    · rw [heven]
      exact Nat.add_comm _ _
    · rw [List.mem_filter, decide_eq_true_iff]
      exact ⟨hr, hpasses⟩
  · intro hordinary
    have hall : ∀ r ∈ records.filter fun r => Passes parseDate calls r, Ordinary polluted (assetKey r) := by
      intro r hr
      rw [List.mem_filter, decide_eq_true_iff] at hr
      exact hordinary r hr.1 hr.2
    obtain ⟨tally, htally, hsums⟩ := foldlM_ordinary (t := { polluted := polluted }) hall
    have hreport : buildArchiveSummaryReport parseDate now polluted records (after calls).toParams = .ok {
        periodStart := ((after calls).toParams.lookup "periodStart").getD ""
        periodEnd := ((after calls).toParams.lookup "periodEnd").getD ""
        totalCount := tally.counts.totalCount
        completedCount := tally.counts.completedCount
        failedCount := tally.counts.failedCount
        assetBreakdown := tally.assetBreakdown
        generatedAt := now } := by
      refine except_bind_eq_ok.mpr ⟨(), validatePeriodOrdering_iff.mpr hordered, ?_⟩
      refine except_bind_eq_ok.mpr ⟨_, hselected, ?_⟩
      exact except_bind_eq_ok.mpr ⟨tally, htally, rfl⟩
    have hzero : ∀ f w, IsCount f w → f tally.counts = tally.sum f := by
      intro f w hf
      rw [foldlM_counts hf htally, hsums f w hf, hf.zero]
      rfl
    refine ⟨_, _, hreport, hselected, ?_⟩
    constructor
    · exact (foldlM_counts isCount_total htally).trans (by rw [sum_ones]; exact Nat.zero_add _)
    · exact (foldlM_counts isCount_completed htally).trans (by rw [sum_status]; exact Nat.zero_add _)
    · exact (foldlM_counts isCount_failed htally).trans (by rw [sum_status]; exact Nat.zero_add _)
    · exact (hzero _ _ isCount_total).symm
    · exact (hzero _ _ isCount_completed).symm
    · exact (hzero _ _ isCount_failed).symm

open scoped Classical in
/-- The records selected are those that meet the constraints set last, just when
of the records that meet the others no employee or asset is a part of those
added without being one, or one without being a part; and the report counts
those that pass and adds up, just when no asset of these is named like an
inherited property. -/
theorem archive_query_and_report_iff (parseDate : String → Option Int) (now : ν) (polluted : List String)
    (calls : List (Call μ)) (records : List (ArchivedRecord ν)) :
    (applyArchiveQuery parseDate records (after calls).toParams =
        .ok (records.filter fun r => Meets parseDate calls r) ↔
      ∀ r ∈ records, MeetsOthers parseDate calls r → SameParts calls r) ∧
    (Reported parseDate now polluted calls records ↔ Misordered parseDate calls ∨
      ∀ r ∈ records, Passes parseDate calls r → Ordinary polluted (assetKey r)) := by
  refine ⟨?_, reported_iff⟩
  rw [applyArchiveQuery_toParams, Except.ok.injEq, filter_passes_eq_iff]
  exact forall₂_congr fun r _ => passes_iff_meets

end Report

/-! ## Two builders -/

/-- A settled record of an employee in an asset. -/
def settled (id : String) (asset : String) : ArchivedRecord ℚ where
  id := id
  amount := 100
  timestamp := 0
  status := .completed
  asset := some asset

open ArchiveFilterBuilder (after)

open scoped Classical in
/-- An employee with a comma is not selected, and an asset of the name of an
inherited property is counted in the total only. -/
theorem comma_and_constructor :
    applyArchiveQuery (fun _ => none) [settled "a,b" "USDC"]
        (after ([.forEmployee "a,b"] : List (Call Int))).toParams ≠
      .ok ([settled "a,b" "USDC"].filter fun r =>
        Meets (fun _ => none) ([.forEmployee "a,b"] : List (Call Int)) r) ∧
    ¬Reported (fun _ => none) 0 [] ([] : List (Call Int)) [settled "e1" "constructor"] := by
  constructor
  · rw [applyArchiveQuery_toParams, ne_eq, Except.ok.injEq, filter_passes_eq_iff]
    intro h
    have hmeets : Meets (fun _ => none) ([.forEmployee "a,b"] : List (Call Int)) (settled "a,b" "USDC") := by
      refine ⟨⟨?_, ?_, ?_, ?_⟩, fun _ => List.mem_singleton_self _, fun hne => absurd rfl hne⟩
      all_goals
        intros
        contradiction
    have hpasses := (h _ (List.mem_singleton_self _)).mpr hmeets
    have hplain := (hpasses.employee (by simp [employeesAdded])).plain
    exact hplain.2 (by decide)
  · rw [reported_iff]
    rintro (⟨_, _, _, _, hperiod, -⟩ | hordinary)
    · cases hperiod
    · have hpasses : Passes (fun _ => none) ([] : List (Call Int)) (settled "e1" "constructor") := by
        refine ⟨⟨?_, ?_, ?_, ?_⟩, fun hne => absurd rfl hne, fun hne => absurd rfl hne⟩
        all_goals
          intros
          contradiction
      have hkey := hordinary _ (List.mem_singleton_self _) hpasses
      exact hkey.1 (by decide)

end ZkPayroll.Archived
