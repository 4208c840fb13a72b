import ZkPayroll.Archived.ArchiveSummaryReport
import ZkPayroll.Framework.Separated

/-!
# What a built query selects

The constraints that calls of the builder set last (`lastStatus`,
`employeesAdded`, …) are the fields of the builder. Of the texts that are joined
by commas, what the query has are the parts between commas that are not empty
(`mem_splitSet_intercalate`), so that it selects the records that pass
(`Passes`), not those that meet the constraints (`Meets`).
-/

namespace ZkPayroll.Archived

open Framework ZkPayroll.Core

variable {μ ν : Type}

/-! ## The constraints set last -/

/-- The employees added since the last reset. -/
def employeesAdded : List (Call μ) → List String
  | .forEmployee id :: calls => employeesAdded calls ++ [id]
  | .forEmployees ids :: calls => employeesAdded calls ++ ids
  | .reset :: _ | [] => []
  | _ :: calls => employeesAdded calls

/-- The assets added since the last reset. -/
def assetsAdded : List (Call μ) → List String
  | .withAsset asset :: calls => assetsAdded calls ++ [asset]
  | .withAssets assets :: calls => assetsAdded calls ++ assets
  | .reset :: _ | [] => []
  | _ :: calls => assetsAdded calls

/-- The period set since the last reset. -/
def lastPeriod : List (Call μ) → Option (String × String)
  | .forPeriod start stop :: _ => some (start, stop)
  | .reset :: _ | [] => none
  | _ :: calls => lastPeriod calls

/-- The status set since the last reset. -/
def lastStatus : List (Call μ) → Option SettledStatus
  | .withStatus status :: _ => some status
  | .reset :: _ | [] => none
  | _ :: calls => lastStatus calls

/-- A negative bound is refused. -/
def lastMinAmount : List (Call μ) → Option Int
  | .withMinAmount amount :: calls => if amount < 0 then lastMinAmount calls else some amount
  | .reset :: _ | [] => none
  | _ :: calls => lastMinAmount calls

/-- A bound below the least amount is refused. -/
def lastMaxAmount : List (Call μ) → Option Int
  | .withMaxAmount amount :: calls =>
    if (lastMinAmount calls).any (amount < ·) then lastMaxAmount calls else some amount
  | .reset :: _ | [] => none
  | _ :: calls => lastMaxAmount calls

theorem mem_addToSet {texts : List String} {t x : String} : x ∈ addToSet texts t ↔ x ∈ texts ∨ x = t := by
  unfold addToSet
  split
  next h =>
    constructor
    · exact .inl
    · rintro (hx | rfl)
      · exact hx
      · exact h
  next => rw [List.mem_append, List.mem_singleton]

variable {x : String}

theorem mem_foldl_addToSet {added : List String} : ∀ {texts : List String},
    x ∈ added.foldl addToSet texts ↔ x ∈ texts ∨ x ∈ added := by
  induction added with
  | nil => simp
  | cons t added ih =>
    intro texts
    rw [List.foldl_cons, ih, mem_addToSet, List.mem_cons, or_assoc]

open ArchiveFilterBuilder (after)

theorem after_withMinAmount (amount : Int) (calls : List (Call μ)) :
    after (.withMinAmount amount :: calls) =
      if amount < 0 then after calls else { after calls with minAmount := some amount } := by
  rw [after, ArchiveFilterBuilder.call, ArchiveFilterBuilder.withMinAmount]
  by_cases h : amount < 0
  · rw [throwIf_bind_of h, if_pos h]
  · rw [throwIf_bind_of_not h, if_neg h]
    rfl

/-- A bound below the least amount is refused, and any other is taken. -/
theorem withMaxAmount_cases (b : ArchiveFilterBuilder μ) (amount : Int) :
    (b.minAmount.any (amount < ·) = true ∧ ∃ e, b.withMaxAmount amount = .error e) ∨
      (b.minAmount.any (amount < ·) = false ∧ b.withMaxAmount amount = .ok { b with maxAmount := some amount }) := by
  obtain ⟨employeeIds, assets, periodStart, periodEnd, status, minAmount, maxAmount, pagination⟩ := b
  cases minAmount with
  | none => exact .inr ⟨rfl, rfl⟩
  | some least =>
    by_cases h : amount < least
    · exact .inl ⟨decide_eq_true h, _, throwIf_bind_of h⟩
    · exact .inr ⟨decide_eq_false h, throwIf_bind_of_not h⟩

theorem after_withMaxAmount (amount : Int) (calls : List (Call μ)) :
    after (.withMaxAmount amount :: calls) =
      if (after calls).minAmount.any (amount < ·) then after calls
      else { after calls with maxAmount := some amount } := by
  rw [after, ArchiveFilterBuilder.call]
  rcases withMaxAmount_cases (after calls) amount with ⟨hany, e, herror⟩ | ⟨hany, hok⟩
  · rw [herror, hany]
    rfl
  · rw [hok, hany]
    rfl

/-- The fields of a builder are the constraints that were set last. -/
structure Holds (calls : List (Call μ)) (b : ArchiveFilterBuilder μ) : Prop where
  employeeIds : ∀ x, x ∈ b.employeeIds ↔ x ∈ employeesAdded calls
  assets : ∀ x, x ∈ b.assets ↔ x ∈ assetsAdded calls
  periodStart : b.periodStart = (lastPeriod calls).map (·.1)
  periodEnd : b.periodEnd = (lastPeriod calls).map (·.2)
  status : b.status = lastStatus calls
  minAmount : b.minAmount = lastMinAmount calls
  maxAmount : b.maxAmount = lastMaxAmount calls

theorem holds_after (calls : List (Call μ)) : Holds calls (after calls) := by
  induction calls with
  | nil => exact ⟨fun _ => Iff.rfl, fun _ => Iff.rfl, rfl, rfl, rfl, rfl, rfl⟩
  | cons c calls ih =>
    cases c with
    | forPeriod start stop =>
      exact ⟨ih.employeeIds, ih.assets, rfl, rfl, ih.status, ih.minAmount, ih.maxAmount⟩
    | forEmployee id =>
      refine ⟨fun x => ?_, ih.assets, ih.periodStart, ih.periodEnd, ih.status, ih.minAmount, ih.maxAmount⟩
      show x ∈ addToSet (after calls).employeeIds id ↔ x ∈ employeesAdded calls ++ [id]
      rw [mem_addToSet, ih.employeeIds, List.mem_append, List.mem_singleton]
    | forEmployees ids =>
      refine ⟨fun x => ?_, ih.assets, ih.periodStart, ih.periodEnd, ih.status, ih.minAmount, ih.maxAmount⟩
      show x ∈ ids.foldl addToSet (after calls).employeeIds ↔ x ∈ employeesAdded calls ++ ids
      rw [mem_foldl_addToSet, ih.employeeIds, List.mem_append]
    | withAsset asset =>
      refine ⟨ih.employeeIds, fun x => ?_, ih.periodStart, ih.periodEnd, ih.status, ih.minAmount, ih.maxAmount⟩
      show x ∈ addToSet (after calls).assets asset ↔ x ∈ assetsAdded calls ++ [asset]
      rw [mem_addToSet, ih.assets, List.mem_append, List.mem_singleton]
    | withAssets assets =>
      refine ⟨ih.employeeIds, fun x => ?_, ih.periodStart, ih.periodEnd, ih.status, ih.minAmount, ih.maxAmount⟩
      show x ∈ assets.foldl addToSet (after calls).assets ↔ x ∈ assetsAdded calls ++ assets
      rw [mem_foldl_addToSet, ih.assets, List.mem_append]
    | withStatus status =>
      exact ⟨ih.employeeIds, ih.assets, ih.periodStart, ih.periodEnd, rfl, ih.minAmount, ih.maxAmount⟩
    | withMinAmount amount =>
      rw [after_withMinAmount]
      by_cases h : amount < 0
      · rw [if_pos h]
        refine ⟨ih.employeeIds, ih.assets, ih.periodStart, ih.periodEnd, ih.status, ?_, ih.maxAmount⟩
        rw [lastMinAmount, if_pos h]
        exact ih.minAmount
      · rw [if_neg h]
        refine ⟨ih.employeeIds, ih.assets, ih.periodStart, ih.periodEnd, ih.status, ?_, ih.maxAmount⟩
        rw [lastMinAmount, if_neg h]
    | withMaxAmount amount =>
      rw [after_withMaxAmount, ih.minAmount]
      by_cases h : (lastMinAmount calls).any (amount < ·) = true
      · rw [if_pos h]
        refine ⟨ih.employeeIds, ih.assets, ih.periodStart, ih.periodEnd, ih.status, ih.minAmount, ?_⟩
        rw [lastMaxAmount, if_pos h]
        exact ih.maxAmount
      · rw [if_neg h]
        refine ⟨ih.employeeIds, ih.assets, ih.periodStart, ih.periodEnd, ih.status, ih.minAmount, ?_⟩
        rw [lastMaxAmount, if_neg h]
    | paginate options =>
      exact ⟨ih.employeeIds, ih.assets, ih.periodStart, ih.periodEnd, ih.status, ih.minAmount, ih.maxAmount⟩
    | reset => exact ⟨fun _ => Iff.rfl, fun _ => Iff.rfl, rfl, rfl, rfl, rfl, rfl⟩

/-! ## Parts between commas -/

/-- A part between commas of one of the texts, and not empty. -/
def PartOf (texts : List String) (x : String) : Prop := x ≠ "" ∧ ∃ t ∈ texts, x.toList ∈ t.toList.splitOn ','

theorem mem_splitSet_intercalate {texts : List String} (h : texts ≠ []) :
    x ∈ splitSet (",".intercalate texts) ↔ PartOf texts x := by
  have hne : texts.map String.toList ≠ [] := by simpa using h
  have hlist : (",".intercalate texts).toList = [','].intercalate (texts.map String.toList) := String.toList_intercalate
  rw [splitSet, hlist, splitOn_intercalate_eq_flatMap hne, List.mem_filter, decide_eq_true_iff, PartOf, and_comm]
  refine and_congr_right fun _ => ?_
  simp only [List.mem_map, List.mem_flatMap, exists_exists_and_eq_and]
  constructor
  · rintro ⟨part, ⟨t, ht, hpart⟩, rfl⟩
    refine ⟨t, ht, ?_⟩
    rw [String.toList_ofList]
    exact hpart
  · intro ⟨t, ht, hpart⟩
    exact ⟨x.toList, ⟨t, ht, hpart⟩, String.ofList_toList⟩

/-- A part has no comma. -/
theorem PartOf.plain {texts : List String} (h : PartOf texts x) : x ≠ "" ∧ ',' ∉ x.toList := by
  obtain ⟨hne, t, -, hpart⟩ := h
  exact ⟨hne, notMem_of_mem_splitOn hpart⟩

/-! ## Constraints on records -/

section Records

variable [Field ν] [LinearOrder ν] (parseDate : String → Option Int) (calls : List (Call μ)) (r : ArchivedRecord ν)

/-- Both texts are dates, and the record is from between them. -/
def InPeriod (start stop : String) : Prop :=
  ∃ startMs endMs, parseDate start = some startMs ∧ parseDate stop = some endMs ∧
    (startMs : ν) / (1000 : Nat) ≤ r.timestamp ∧ r.timestamp ≤ (endMs : ν) / (1000 : Nat)

/-- The constraints but those on employees and assets. -/
structure MeetsOthers : Prop where
  status : ∀ status, lastStatus calls = some status → r.status = status
  period : ∀ start stop, lastPeriod calls = some (start, stop) → InPeriod parseDate r start stop
  minAmount : ∀ amount, lastMinAmount calls = some amount → amount ≤ r.amount
  maxAmount : ∀ amount, lastMaxAmount calls = some amount → r.amount ≤ amount

/-- What is to be selected: the employee and the asset are among those added, if any were. -/
structure Meets : Prop where
  others : MeetsOthers parseDate calls r
  employee : employeesAdded calls ≠ [] → r.id ∈ employeesAdded calls
  asset : assetsAdded calls ≠ [] → ∃ asset, r.asset = some asset ∧ asset ∈ assetsAdded calls

/-- What is selected: they are parts of those added. -/
structure Passes : Prop where
  others : MeetsOthers parseDate calls r
  employee : employeesAdded calls ≠ [] → PartOf (employeesAdded calls) r.id
  asset : assetsAdded calls ≠ [] → ∃ asset, r.asset = some asset ∧ PartOf (assetsAdded calls) asset

end Records

section Query

variable [NumberFormat μ] {parseDate : String → Option Int} {calls : List (Call μ)}

theorem optionalBigInt_toString (amount : Option Int) : optionalBigInt (amount.map toString) = .ok amount := by
  cases amount with
  | none => rfl
  | some n =>
    rw [Option.map_some, optionalBigInt, orThrow_bind_of_some (bigIntOf_toString n)]
    rfl

/-- The filters that are read from the query of a builder. -/
theorem readFilters_toParams (b : ArchiveFilterBuilder μ) :
    readFilters parseDate b.toParams = .ok {
      status := b.status.map (·.toText)
      employeeSet := if b.employeeIds ≠ [] then some (splitSet (",".intercalate b.employeeIds)) else none
      assetSet := if b.assets ≠ [] then some (splitSet (",".intercalate b.assets)) else none
      periodStartMs := b.periodStart.map parseDate
      periodEndMs := b.periodEnd.map parseDate
      minAmount := b.minAmount
      maxAmount := b.maxAmount } := by
  have h := paramsOf_toParams b
  rw [readFilters, h.minAmount, h.maxAmount, optionalBigInt_toString, optionalBigInt_toString, h.status,
    h.employeeIds, h.assets, h.periodStart, h.periodEnd]
  show Except.ok _ = Except.ok _
  congr 2
  · split <;> rfl
  · split <;> rfl

end Query

/-! ## What passes -/

theorem toText_injective : Function.Injective SettledStatus.toText := by
  intro a b h
  cases a <;> cases b <;> simp_all [SettledStatus.toText]

theorem any_status_iff {status : Option SettledStatus} {s : SettledStatus} :
    ¬((status.map (·.toText)).any (s.toText ≠ ·) = true) ↔ ∀ status', status = some status' → s = status' := by
  cases status with
  | none => simp
  | some t => simp [toText_injective.eq_iff]

variable {texts texts' : List String}

/-- The same texts have the same parts. -/
theorem partOf_congr (h : ∀ t, t ∈ texts ↔ t ∈ texts') : PartOf texts x ↔ PartOf texts' x :=
  and_congr_right fun _ => exists_congr fun t => and_congr_left fun _ => h t

theorem ne_nil_congr (h : ∀ t, t ∈ texts ↔ t ∈ texts') : texts ≠ [] ↔ texts' ≠ [] := by
  constructor
  · intro hne
    obtain ⟨t, ht⟩ := List.exists_mem_of_ne_nil texts hne
    exact List.ne_nil_of_mem ((h t).mp ht)
  · intro hne
    obtain ⟨t, ht⟩ := List.exists_mem_of_ne_nil texts' hne
    exact List.ne_nil_of_mem ((h t).mpr ht)

/-- The filter of a set of texts that were joined. -/
theorem any_set_iff (h : ∀ t, t ∈ texts ↔ t ∈ texts') (refuses : List String → Bool)
    (accepts : (String → Prop) → Prop)
    (hr : ∀ set : List String, refuses set = false ↔ accepts (· ∈ set)) :
    ¬((if texts ≠ [] then some (splitSet (",".intercalate texts)) else none).any refuses = true) ↔
      (texts' ≠ [] → accepts (PartOf texts')) := by
  by_cases hne : texts ≠ []
  · have hparts : (· ∈ splitSet (",".intercalate texts)) = PartOf texts' := by
      funext x
      rw [mem_splitSet_intercalate hne, partOf_congr h]
    rw [if_pos hne, Option.any_some, Bool.not_eq_true, hr, hparts]
    exact ⟨fun ha _ => ha, fun ha => ha ((ne_nil_congr h).mp hne)⟩
  · rw [if_neg hne, Option.any_none]
    exact iff_of_true (by decide) fun hne' => absurd ((ne_nil_congr h).mpr hne') hne

section Passes

variable [Field ν] [LinearOrder ν] {parseDate : String → Option Int} {calls : List (Call μ)} {r : ArchivedRecord ν}

variable (parseDate r) in
/-- The filters on the period. -/
theorem period_iff (period : Option (String × String)) :
    (¬((period.map (·.1)).map parseDate = some none) ∧
      ¬(((period.map (·.1)).map parseDate).join.any (fun ms => r.timestamp < (ms : ν) / (1000 : Nat)) = true) ∧
      ¬((period.map (·.2)).map parseDate = some none) ∧
      ¬(((period.map (·.2)).map parseDate).join.any (fun ms => r.timestamp > (ms : ν) / (1000 : Nat)) = true)) ↔
      ∀ start stop, period = some (start, stop) → InPeriod parseDate r start stop := by
  cases period with
  | none => simp
  | some p =>
    obtain ⟨start, stop⟩ := p
    have hone : (∀ start' stop', some (start, stop) = some (start', stop') → InPeriod parseDate r start' stop') ↔
        InPeriod parseDate r start stop := by
      constructor
      · intro h
        exact h start stop rfl
      · intro h start' stop' heq
        cases heq
        exact h
    rw [hone, InPeriod]
    simp only [Option.map_some, Option.some.injEq]
    cases parseDate start with
    | none => simp
    | some startMs =>
      cases parseDate stop with
      | none => simp
      | some endMs => simp

/-- A record passes the filters of a built query just when it passes. -/
theorem passes_iff (b : ArchiveFilterBuilder μ) (h : Holds calls b) :
    Filters.passes {
      status := b.status.map (·.toText)
      employeeSet := if b.employeeIds ≠ [] then some (splitSet (",".intercalate b.employeeIds)) else none
      assetSet := if b.assets ≠ [] then some (splitSet (",".intercalate b.assets)) else none
      periodStartMs := b.periodStart.map parseDate
      periodEndMs := b.periodEnd.map parseDate
      minAmount := b.minAmount
      maxAmount := b.maxAmount } r = true ↔ Passes parseDate calls r := by
  have hemployee := any_set_iff h.employeeIds (r.id ∉ ·) (fun P => P r.id) fun set => by simp
  have hasset := any_set_iff h.assets (fun set => r.asset.all (· ∉ set))
    (fun P => ∃ asset, r.asset = some asset ∧ P asset) fun set => by
      cases r.asset <;> simp
  have hmin : ¬(b.minAmount.any (r.amount < ·) = true) ↔
      ∀ amount, lastMinAmount calls = some amount → amount ≤ r.amount := by
    rw [h.minAmount]
    cases lastMinAmount calls <;> simp
  have hmax : ¬(b.maxAmount.any (r.amount > ·) = true) ↔
      ∀ amount, lastMaxAmount calls = some amount → r.amount ≤ amount := by
    rw [h.maxAmount]
    cases lastMaxAmount calls <;> simp
  have hstatus : ¬((b.status.map (·.toText)).any (r.status.toText ≠ ·) = true) ↔
      ∀ status, lastStatus calls = some status → r.status = status := by
    rw [h.status]
    exact any_status_iff
  have hperiod := period_iff parseDate r (lastPeriod calls)
  rw [← h.periodStart, ← h.periodEnd] at hperiod
  simp only [Filters.passes, Bool.ite_then_false, hstatus, hemployee, hasset, hmin, hmax]
  constructor
  · rintro ⟨hs, he, ha, hp1, hp2, hp3, hp4, hn, hx, -⟩
    exact ⟨⟨hs, hperiod.mp ⟨hp1, hp2, hp3, hp4⟩, hn, hx⟩, he, ha⟩
  · rintro ⟨⟨hs, hp, hn, hx⟩, he, ha⟩
    obtain ⟨hp1, hp2, hp3, hp4⟩ := hperiod.mpr hp
    exact ⟨hs, he, ha, hp1, hp2, hp3, hp4, hn, hx, trivial⟩

open scoped Classical in
/-- What is selected through the query of a builder. -/
theorem applyArchiveQuery_toParams [NumberFormat μ] (records : List (ArchivedRecord ν)) :
    applyArchiveQuery parseDate records (after calls).toParams =
      .ok (records.filter fun r => Passes parseDate calls r) := by
  have hfilter : ∀ f : Filters, (if f = noFilters then records else records.filter f.passes) =
      records.filter f.passes := by
    intro f
    split
    next h =>
      rw [h]
      exact (List.filter_eq_self.mpr fun _ _ => rfl).symm
    next => rfl
  rw [applyArchiveQuery, readFilters_toParams]
  show Except.ok (if _ then _ else _) = _
  rw [hfilter]
  congr 1
  apply List.filter_congr
  intro r _
  rw [Bool.eq_iff_iff, passes_iff _ (holds_after calls), decide_eq_true_iff]

open scoped Classical in
/-- The records that meet the constraints are those that are selected, when they
pass alike. -/
theorem filter_passes_eq_iff {records : List (ArchivedRecord ν)} :
    (records.filter fun r => Passes parseDate calls r) = (records.filter fun r => Meets parseDate calls r) ↔
      ∀ r ∈ records, Passes parseDate calls r ↔ Meets parseDate calls r := by
  constructor
  · intro h r hr
    have hmem : r ∈ (records.filter fun r => Passes parseDate calls r) ↔
        r ∈ (records.filter fun r => Meets parseDate calls r) := by rw [h]
    simpa [List.mem_filter, hr] using hmem
  · intro h
    apply List.filter_congr
    intro r hr
    rw [Bool.eq_iff_iff, decide_eq_true_iff, decide_eq_true_iff]
    exact h r hr

/-- Whether the employee and the asset of a record are among those added just
when they are parts of these. -/
def SameParts (calls : List (Call μ)) (r : ArchivedRecord ν) : Prop :=
  ((employeesAdded calls ≠ [] → PartOf (employeesAdded calls) r.id) ∧
      (assetsAdded calls ≠ [] → ∃ asset, r.asset = some asset ∧ PartOf (assetsAdded calls) asset)) ↔
    (employeesAdded calls ≠ [] → r.id ∈ employeesAdded calls) ∧
      (assetsAdded calls ≠ [] → ∃ asset, r.asset = some asset ∧ asset ∈ assetsAdded calls)

theorem passes_iff_meets : (Passes parseDate calls r ↔ Meets parseDate calls r) ↔
    (MeetsOthers parseDate calls r → SameParts calls r) := by
  have hpasses : Passes parseDate calls r ↔ MeetsOthers parseDate calls r ∧
      (employeesAdded calls ≠ [] → PartOf (employeesAdded calls) r.id) ∧
        (assetsAdded calls ≠ [] → ∃ asset, r.asset = some asset ∧ PartOf (assetsAdded calls) asset) :=
    ⟨fun h => ⟨h.others, h.employee, h.asset⟩, fun h => ⟨h.1, h.2.1, h.2.2⟩⟩
  have hmeets : Meets parseDate calls r ↔ MeetsOthers parseDate calls r ∧
      (employeesAdded calls ≠ [] → r.id ∈ employeesAdded calls) ∧
        (assetsAdded calls ≠ [] → ∃ asset, r.asset = some asset ∧ asset ∈ assetsAdded calls) :=
    ⟨fun h => ⟨h.others, h.employee, h.asset⟩, fun h => ⟨h.1, h.2.1, h.2.2⟩⟩
  rw [hpasses, hmeets, and_congr_right_iff, SameParts]

end Passes

end ZkPayroll.Archived
