import ZkPayroll.Payroll.BatchResumeToken
import ZkPayroll.Payroll.SubmissionRuns

/-!
# The account that a run gives of itself

What the result of `submitSequentialPayrollBatches` has to say of the run
(`Truthful`): its success, and the number, the size and the results of the
batches that succeeded. `truthful_iff` says when it does: the token has to
count the items of the batches it skips, and a run that goes on after a failure
has to find the signal aborted later, or it reports success.
-/

namespace ZkPayroll.Payroll

open Framework ZkPayroll.Core Batch

variable {T R : Type} (host : Host) (entries : List T) (options : SafeBatchSubmissionOptions)
  (env : Environment R)

/-- The number of batches to submit; a run on no entries has none. -/
def plannedBatches : Nat := if entries.length = 0 then 0 else totalBatches entries options

/-- The results of batch `i` in a trace. -/
def resultsOf (effects : List (Effect R)) (i : Nat) : List R :=
  ((resolutions effects).filter fun p => decide (p.1 = i)).flatMap Prod.snd

section Account

variable [PayrollEntry T]

/-- The batch that a run starts from: the ones before it are the resumed
prefix. -/
def startBatch : Nat :=
  if entries.length = 0 then 0
  else
    match resumePoint host entries options with
    | .ok (s, _) => s.toNat
    | .error _ => 0

/-- The batches of the plan that have succeeded after a run: those of the
resumed prefix and those that resolved, in order. -/
def succeededBatches (effects : List (Effect R)) : List Nat :=
  (List.range (plannedBatches entries options)).filter fun i =>
    i < startBatch host entries options || decide (i ∈ resolved effects)

/-- A result that says what happened in the run. -/
structure Truthful (effects : List (Effect R)) (r : SafeBatchSubmissionResult R) : Prop where
  success : r.success = true ↔
    ∀ i < plannedBatches entries options, i ∈ succeededBatches host entries options effects
  batchesProcessed : r.batchesProcessed = (succeededBatches host entries options effects).length
  itemsProcessed : r.itemsProcessed =
    (((succeededBatches host entries options effects).map fun i => (planBatch entries options i).count).sum : Nat)
  complete : r.success = true → r.itemsProcessed = r.totalItems
  results : r.results = (List.range (plannedBatches entries options)).flatMap (resultsOf effects)

end Account

variable {host entries options env}

theorem range_split {s n : Nat} (h : s ≤ n) : List.range n = List.range s ++ List.range' s (n - s) := by
  obtain ⟨m, rfl⟩ := Nat.exists_eq_add_of_le h
  rw [Nat.add_sub_cancel_left, List.range_eq_range', List.range_eq_range', ← List.range'_append_1,
    Nat.zero_add]

variable {effects : List (Effect R)}

/-- The batches that resolve in a run that tries `t` batches from `s` on are
among those of the plan. -/
theorem resolved_sublist {s t n : Nat} (ht : s + t ≤ n)
    (hres : resolutions effects = planResolutions entries options env (List.range' s t)) :
    (resolved effects).Sublist (List.range' s (n - s)) := by
  rw [resolved, hres, map_fst_planResolutions]
  exact List.filter_sublist.trans (List.range'_sublist_right.mpr (by omega))

/-- The results of the batches of a run, in the order of the plan. -/
theorem flatMap_resultsOf {s t n : Nat} (ht : s + t ≤ n)
    (hres : resolutions effects = planResolutions entries options env (List.range' s t)) :
    (List.range n).flatMap (resultsOf effects) = (resolutions effects).flatMap Prod.snd := by
  refine flatMap_filter_of_sublist ?_ List.nodup_range
  rw [range_split (show s ≤ n by omega)]
  exact (resolved_sublist ht hres).trans (List.sublist_append_right _ _)

theorem sum_range_count (s : Nat) :
    ((List.range s).map fun i => (planBatch entries options i).count).sum =
      pagesSize entries options.effectiveBatchSize.toNat 0 s := by
  rw [pagesSize, Nat.sub_zero, List.range_eq_range']
  rfl

theorem plannedBatches_eq (hn : 0 < entries.length) :
    plannedBatches entries options = totalBatches entries options := by
  rw [plannedBatches, if_neg (by omega)]

variable [PayrollEntry T]

section Succeeded

variable {s t : Nat} (hstart : startBatch host entries options = s) (ht : s + t ≤ plannedBatches entries options)
  (hres : resolutions effects = planResolutions entries options env (List.range' s t))
include hstart ht hres

/-- The batches that succeed in a run that tries `t` batches from `s` on. -/
theorem succeededBatches_eq :
    succeededBatches host entries options effects = List.range s ++ resolved effects := by
  rw [succeededBatches, hstart, range_split (show s ≤ plannedBatches entries options by omega),
    List.filter_append]
  congr 1
  · refine List.filter_eq_self.mpr fun i hi => ?_
    simp [List.mem_range.mp hi]
  · refine Eq.trans (List.filter_congr fun i hi => ?_)
      (filter_mem_of_sublist (resolved_sublist ht hres) List.nodup_range')
    have hle := (List.mem_range'_1.mp hi).1
    simp [Nat.not_lt.mpr hle]

theorem mem_succeededBatches {i : Nat} : i ∈ succeededBatches host entries options effects ↔
      i < s ∨ s ≤ i ∧ i < s + t ∧ Resolves entries options env i := by
  rw [succeededBatches_eq hstart ht hres, List.mem_append, List.mem_range, resolved, hres,
    mem_planResolutions, List.mem_range'_1, and_assoc]

/-- The items of the batches that succeed: those of the skipped batches, and
those of the ones that resolve. -/
theorem sum_count_succeededBatches :
    (((succeededBatches host entries options effects).map fun i => (planBatch entries options i).count).sum : Nat) =
      pagesSize entries options.effectiveBatchSize.toNat 0 s +
        ((resolutions effects).map fun p => (planBatch entries options p.1).count).sum := by
  rw [succeededBatches_eq hstart ht hres, List.map_append, List.sum_append, sum_range_count, resolved, List.map_map]
  rfl

/-- All batches of the plan succeed if those from `s` on are tried and resolve. -/
theorem all_succeeded_iff :
    (∀ i < plannedBatches entries options, i ∈ succeededBatches host entries options effects) ↔
      ∀ i, s ≤ i → i < plannedBatches entries options → i < s + t ∧ Resolves entries options env i := by
  refine forall_congr' fun i => ?_
  rw [mem_succeededBatches hstart ht hres]
  constructor
  · intro hi hsi hlt
    rcases hi hlt with hbefore | ⟨-, htried, hresolves⟩
    · omega
    · exact ⟨htried, hresolves⟩
  · intro hi hlt
    rcases Nat.lt_or_ge i s with hbefore | hge
    · exact .inl hbefore
    · exact .inr ⟨hge, hi hge hlt⟩

end Succeeded

variable {r : SafeBatchSubmissionResult R}

theorem LoopEnd.account {s m t : Nat} {p : Progress R}
    (h : LoopEnd host entries options env s m p t r) :
    t ≤ m ∧ r.batchesProcessed = p.batchesSucceeded ∧ r.itemsProcessed = p.itemsProcessed ∧
      r.totalItems = entries.length ∧ r.results = p.results := by
  cases h with
  | completed _ => exact ⟨le_rfl, rfl, rfl, rfl, rfl⟩
  | cancelled ht _ _ => exact ⟨ht.le, rfl, rfl, rfl, rfl⟩
  | failed ht _ _ _ _ => exact ⟨ht.le, rfl, rfl, rfl, rfl⟩

/-- If all batches of the plan have succeeded, so have all items. -/
theorem sum_succeededBatches (hb : 0 < options.effectiveBatchSize)
    (h : ∀ i < plannedBatches entries options, i ∈ succeededBatches host entries options effects) :
    ((succeededBatches host entries options effects).map fun i => (planBatch entries options i).count).sum =
      entries.length := by
  have hall : succeededBatches host entries options effects = List.range (plannedBatches entries options) := by
    refine List.filter_eq_self.mpr fun i hi => ?_
    exact (List.mem_filter.mp (h i (List.mem_range.mp hi))).2
  rw [hall, sum_range_count, plannedBatches]
  split
  · rename_i hn
    simp [pagesSize, hn]
  · rw [totalBatches, length_batchPages, pagesSize_all entries (by omega)]

/-- When the success that a loop reports is that of all batches: a run that
falls through the loop reports success, whatever failed. -/
theorem LoopEnd.success_iff {s m t : Nat} {p : Progress R}
    (h : LoopEnd host entries options env s m p t r)
    (hsig : ∀ i, s ≤ i → i < s + t → env.aborted (.batchStart i) = false) :
    (r.success = true ↔ ∀ i, s ≤ i → i < s + m → i < s + t ∧ Resolves entries options env i) ↔
      (options.stops = true ∨ (∃ i, s ≤ i ∧ i < s + m ∧ env.aborted (.batchStart i) = true) ∨
        ∀ i, s ≤ i → i < s + m → Resolves entries options env i) := by
  cases h with
  | completed h =>
    have hno : ¬ ∃ i, s ≤ i ∧ i < s + m ∧ env.aborted (.batchStart i) = true := by
      rintro ⟨i, h₁, h₂, h₃⟩
      rw [hsig i h₁ h₂] at h₃
      cases h₃
    constructor
    · intro hiff
      exact .inr (.inr fun i h₁ h₂ => (hiff.mp rfl i h₁ h₂).2)
    · rintro (hst | hab | hall)
      · exact ⟨fun _ i h₁ h₂ => ⟨h₂, h hst i h₁ h₂⟩, fun _ => rfl⟩
      · exact absurd hab hno
      · exact ⟨fun _ i h₁ h₂ => ⟨h₂, hall i h₁ h₂⟩, fun _ => rfl⟩
  | cancelled ht ha _ =>
    refine ⟨fun _ => .inr (.inl ⟨s + t, by omega, by omega, ha⟩), fun _ => ⟨nofun, fun hall => ?_⟩⟩
    exact absurd (hall (s + t) (by omega) (by omega)).1 (by omega)
  | failed ht _ hst _ _ =>
    refine ⟨fun _ => .inl hst, fun _ => ⟨nofun, fun hall => ?_⟩⟩
    exact absurd (hall (s + t) (by omega) (by omega)).1 (by omega)

/-- A run that tries `t` batches from `s` on, and whose loop ends in `r`, gives
a true account if and only if it was told the size of the batches it skips, and
does not end at the last batch after a failure. -/
theorem truthful_iff_of_loopEnd {s t : Nat} {items : Int}
    (hb : 0 < options.effectiveBatchSize) (hstart : startBatch host entries options = s)
    (hs : s ≤ plannedBatches entries options)
    (hres : resolutions effects = planResolutions entries options env (List.range' s t))
    (hsig : ∀ i, s ≤ i → i < s + t → env.aborted (.batchStart i) = false)
    (hend : LoopEnd host entries options env s (plannedBatches entries options - s)
      (Progress.advance entries options { batchesSucceeded := s, itemsProcessed := items, results := [] }
        (planResolutions entries options env (List.range' s t))) t r) :
    Truthful host entries options effects r ↔
      items = pagesSize entries options.effectiveBatchSize.toNat 0 s ∧
        (options.stops = true ∨
          (∃ i, s ≤ i ∧ i < plannedBatches entries options ∧ env.aborted (.batchStart i) = true) ∨
          ∀ i, s ≤ i → i < plannedBatches entries options → Resolves entries options env i) := by
  obtain ⟨ht, hbatches, hitems, htotal, hresults⟩ := hend.account
  have ht : s + t ≤ plannedBatches entries options := by omega
  have hm : s + (plannedBatches entries options - s) = plannedBatches entries options := by omega
  have hsum := sum_count_succeededBatches hstart ht hres
  have hcover := all_succeeded_iff hstart ht hres
  have hsuccess := hend.success_iff hsig
  rw [hm] at hsuccess
  rw [← hsuccess, ← hcover]
  constructor
  · intro h
    refine ⟨?_, h.success⟩
    have := h.itemsProcessed
    rw [hitems, hsum, hres] at this
    simp only [Progress.advance] at this
    omega
  · rintro ⟨hit, hsucc⟩
    have hprocessed : r.itemsProcessed = (((succeededBatches host entries options effects).map fun i =>
        (planBatch entries options i).count).sum : Nat) := by
      rw [hitems, hsum, hres]
      simp only [Progress.advance]
      omega
    refine ⟨hsucc, ?_, hprocessed, fun h => ?_, ?_⟩
    · rw [hbatches, succeededBatches_eq hstart ht hres, List.length_append, List.length_range, resolved,
        List.length_map, hres]
      rfl
    · rw [hprocessed, sum_succeededBatches hb (hsucc.mp h), htotal]
    · rw [hresults, flatMap_resultsOf ht hres, hres]
      simp only [Progress.advance, List.nil_append]

theorem startBatch_eq (hn : 0 < entries.length) {s : Nat} {items : Int}
    (hr : resumePoint host entries options = .ok (s, items)) : startBatch host entries options = s := by
  rw [startBatch, if_neg (by omega), hr]
  rfl

/-- The account of a run that gets past its checks. -/
theorem truthful_iff_of_start {s t : Nat} {items : Int}
    (hb : 0 < options.effectiveBatchSize) (hn : 0 < entries.length)
    (hr : resumePoint host entries options = .ok (s, items)) (hs : s ≤ totalBatches entries options)
    (hres : resolutions effects = planResolutions entries options env (List.range' s t))
    (hsig : ∀ i, s ≤ i → i < s + t → env.aborted (.batchStart i) = false)
    (hend : LoopEnd host entries options env s (totalBatches entries options - s)
      (Progress.advance entries options { batchesSucceeded := s, itemsProcessed := items, results := [] }
        (planResolutions entries options env (List.range' s t))) t r) :
    Truthful host entries options effects r ↔
      ∀ s items : Int, 0 < options.effectiveBatchSize → 0 < entries.length →
        resumePoint host entries options = .ok (s, items) →
        items = pagesSize entries options.effectiveBatchSize.toNat 0 s.toNat ∧
          (options.stops = true ∨
            (∃ i, s.toNat ≤ i ∧ i < totalBatches entries options ∧ env.aborted (.batchStart i) = true) ∨
            ∀ i, s.toNat ≤ i → i < totalBatches entries options → BatchSucceeds options env i) := by
  rw [← plannedBatches_eq hn] at hs hend
  rw [truthful_iff_of_loopEnd hb (startBatch_eq hn hr) hs hres hsig hend, plannedBatches_eq hn]
  simp only [resolves_iff]
  constructor
  · intro h s' items' _ _ hr'
    obtain ⟨rfl, rfl⟩ := Prod.mk.inj (Except.ok.inj (hr.symm.trans hr'))
    exact h
  · intro h
    exact h s items hb hn hr

/-- What a run returns is true if and only if its token, if it has one, counts
the items of the batches it skips, and one of these holds: failures stop the
run, the signal is aborted before some batch that is left, or every batch that
is left succeeds. -/
theorem truthful_iff (host : Host) (entries : List T) (options : SafeBatchSubmissionOptions)
    (env : Environment R) :
    (∀ r, (submitSequentialPayrollBatches host entries options env).outcome = .ok r →
        Truthful host entries options (submitSequentialPayrollBatches host entries options env).effects r) ↔
      ∀ s items : Int, 0 < options.effectiveBatchSize → 0 < entries.length →
        resumePoint host entries options = .ok (s, items) →
        items = pagesSize entries options.effectiveBatchSize.toNat 0 s.toNat ∧
          (options.stops = true ∨
            (∃ i, s.toNat ≤ i ∧ i < totalBatches entries options ∧ env.aborted (.batchStart i) = true) ∨
            ∀ i, s.toNat ≤ i → i < totalBatches entries options → BatchSucceeds options env i) := by
  have hexit := submit_exit host entries options env
  generalize submitSequentialPayrollBatches host entries options env = run at hexit
  have hinj : ∀ {r r' : SafeBatchSubmissionResult R}, Except.ok (ε := SdkError) r = .ok r' → r = r' :=
    fun h => Except.ok.inj h
  cases hexit with
  | invalidSize hb => exact ⟨fun _ s items hb' => by omega, fun _ r => nofun⟩
  | refused hb hn hr =>
    refine ⟨fun _ s items _ _ hr' => ?_, fun _ r => nofun⟩
    rw [hr] at hr'
    cases hr'
  | empty hb hn he =>
    refine ⟨fun _ s items _ hn' => by omega, fun _ r hr => ?_⟩
    obtain rfl := hinj hr
    have hp : plannedBatches entries options = 0 := if_pos hn
    have hsucc : ∀ es : List (Effect R), succeededBatches host entries options es = [] := by
      intro es
      rw [succeededBatches, hp]
      rfl
    refine ⟨⟨fun _ i hi => by omega, fun _ => rfl⟩, ?_, ?_, fun _ => rfl, ?_⟩
    · rw [hsucc]; rfl
    · rw [hsucc]; rfl
    · rw [hp]; rfl
  | covered hb hn hr he hf =>
    refine Iff.trans ⟨fun h => h _ rfl, fun h r hr => hinj hr ▸ h⟩
      (truthful_iff_of_start (t := 0) hb hn hr le_rfl ?_ (fun i h₁ h₂ => by omega) ?_)
    · rw [he.resolutions_cons, hf.resolutions_cons]
      rfl
    · rw [List.range'_zero, planResolutions, List.filterMap_nil, Progress.advance_nil, Nat.sub_self]
      exact .completed fun _ i h₁ h₂ => by omega
  | @ran e s items hb hn hr hs he rest hrest =>
    obtain ⟨t, hsig, hres, hend⟩ := submitFrom_ends host entries options env
        (totalBatches entries options - s) s
      { batchesSucceeded := s, itemsProcessed := items, results := [] }
    rw [hrest] at hres hend
    refine Iff.trans ⟨fun h => h _ rfl, fun h r hr => hinj hr ▸ h⟩
      (truthful_iff_of_start hb hn hr hs.le ?_ (fun i h₁ h₂ => (hsig i h₁ h₂).1) hend)
    rw [he.resolutions_cons, hres]

/-- The first of two batches is refused, and the second one paid. -/
def firstRefused : Environment PaymentResult where
  submitBatchFn batchIndex _ :=
    if batchIndex = 0 then .error (networkError "Forbidden" (some 403))
    else .ok [{ txHash := "tx-bob", publicSignals := [] }]
  aborted _ := false
  sleep _ _ := true
  now _ := 0

/-- A run that goes on after a failure reports success. -/
theorem continued_run_not_truthful :
    ¬ ∀ r, (submitSequentialPayrollBatches plainHost aliceBob
          { batchSize := some 1, stopOnFirstFailure := some false } firstRefused).outcome = .ok r →
      Truthful plainHost aliceBob { batchSize := some 1, stopOnFirstFailure := some false }
        (submitSequentialPayrollBatches plainHost aliceBob
          { batchSize := some 1, stopOnFirstFailure := some false } firstRefused).effects r := by
  intro h
  have hmem : 0 ∉ succeededBatches plainHost aliceBob
      { batchSize := some 1, stopOnFirstFailure := some false }
      (submitSequentialPayrollBatches plainHost aliceBob
          { batchSize := some 1, stopOnFirstFailure := some false } firstRefused).effects := by
    decide +kernel
  exact hmem ((h _ rfl).success.mp rfl 0 (by decide))

end ZkPayroll.Payroll
