import Mathlib.Data.Set.Function
import ZkPayroll.Framework.Separated
import ZkPayroll.Reconciliation.ReconciliationDiff

/-!
# What a reconciliation diff accounts for

A diff has one entry for each outcome, and one at least for each on-chain
observation whose key no outcome has. An observation of another's key counts where it is
the newest of the key; in a diff that is fully reconciled these are paired with
outcomes that are successful or still pending (`Accounted`, `diff_accounts`).
-/

namespace ZkPayroll.Reconciliation

open Framework

/-! ## The account -/

/-- The observation at the place `i` is the newest of its recipient and asset. -/
def Newest (observed : List ObservedPaymentState) (i : Nat) : Prop :=
  IsNewest ObservedPaymentState.key ObservedPaymentState.observedAt observed i

/-- The diff shows the observation as that of an outcome. -/
def MatchedIn (d : ReconciliationDiffResult) (o : ObservedPaymentState) : Prop :=
  ∃ e ∈ d.entries, e.expected.isSome = true ∧ e.observed = some o

/-- The observation is what the outcome expects, or may still become. -/
structure Pays (outcome : PaymentExecutionOutcome) (o : ObservedPaymentState) : Prop where
  key : o.key = some outcome.key
  same : ':' ∉ o.recipient.toList → ':' ∉ outcome.recipient.toList →
    o.recipient = outcome.recipient ∧ o.asset = some outcome.asset
  status : outcome.status = .pending ∨
    outcome.status = .success ∧ ∀ amount ∈ o.amount, amount = outcome.amount

/-- The differences account for the run and for what was observed. -/
structure Accounted (expected : PayrollExecutionSummary) (observed : List ObservedPaymentState)
    (d : ReconciliationDiffResult) : Prop where
  /-- Every outcome has one entry. -/
  outcomes : d.entries.filterMap (fun e => e.expected.map fun x => (e.recipient, x)) =
    expected.results.map fun outcome => (outcome.recipient, outcome.expected)
  /-- Every on-chain observation of a key that no outcome has is unexpected. -/
  unexpected : ((observed.filter fun o => o.onChainStatus ≠ .not_found ∧
      ∀ outcome ∈ expected.results, o.key ≠ some outcome.key).map some).Sublist
    ((d.entries.filter (·.category = .unexpected)).map ReconciliationDiffEntry.observed)
  /-- What is unexpected was observed on chain. -/
  onChain {e : ReconciliationDiffEntry} : e ∈ d.entries → e.category = .unexpected →
    ∃ o ∈ observed, o.onChainStatus ≠ .not_found ∧ e.observed = some o
  /-- Of those of a key that an outcome has, the newest is matched. -/
  seen {i : Nat} {o : ObservedPaymentState} : observed[i]? = some o → o.onChainStatus ≠ .not_found →
    (∃ e ∈ d.entries, e.category = .unexpected ∧ e.observed = some o) ∨
      ∃ j p, observed[j]? = some p ∧ p.key = o.key ∧ o.observedAt ≤ p.observedAt ∧ MatchedIn d p ∧
        (Newest observed i → j = i)
  /-- No entry of a reconciled diff asks for attention. -/
  reconciled : d.isFullyReconciled = true → ∃ place : Nat → Nat,
    Set.InjOn place {i | Newest observed i ∧ observed[i]?.map (·.onChainStatus) = some .confirmed} ∧
      ∀ i o, observed[i]? = some o → o.onChainStatus = .confirmed → Newest observed i →
        ∃ outcome, expected.results[place i]? = some outcome ∧ Pays outcome o

/-! ## Entries -/

/-- A recipient that is an address tells the key apart. -/
theorem matchKey_injective {r r' a a' : String} (hr : ':' ∉ r.toList) (hr' : ':' ∉ r'.toList)
    (h : matchKey r a = matchKey r' a') : r = r' ∧ a = a' := by
  have hlist : r.toList ++ (':' :: a.toList) = r'.toList ++ (':' :: a'.toList) := by
    have := congrArg String.toList h
    simpa [matchKey, String.toList_append] using this
  obtain ⟨hrr, haa⟩ := eq_of_append_eq hr hr' (by simp) (by simp) hlist
  exact ⟨String.toList_inj.mp hrr, String.toList_inj.mp (List.cons.inj haa).2⟩

/-- No outcome is unexpected. -/
theorem classify_ne_unexpected (outcome : PaymentExecutionOutcome) (observed : Option ObservedPaymentState) :
    (classify outcome observed).1 ≠ .unexpected := by
  unfold classify
  split
  · decide
  · split
    · simp
    · split
      · simp
      · split
        · simp
        · split <;> simp

/-- A confirmed observation raises no question for an outcome that is pending,
or successful with its amount. -/
theorem diffOne_quiet {outcome : PaymentExecutionOutcome} {o : ObservedPaymentState}
    (hc : o.onChainStatus = .confirmed)
    (h : (diffOne outcome (some o)).category = .match ∨ (diffOne outcome (some o)).category = .still_pending) :
    outcome.status = .pending ∨ outcome.status = .success ∧ ∀ amount ∈ o.amount, amount = outcome.amount := by
  by_cases hp : outcome.status = .pending
  · exact .inl hp
  · right
    simp only [diffOne, classify, if_neg hp, hc] at h
    rw [if_neg (by decide)] at h
    split at h
    · rcases h with h | h <;> cases h
    · rename_i hs
      refine ⟨by simpa using hs, fun amount ha => ?_⟩
      by_contra hne
      rw [if_pos ⟨trivial, amount, ha, hne⟩] at h
      rcases h with h | h <;> cases h

section Diff

variable {now : Int} {expected : PayrollExecutionSummary} {observed : List ObservedPaymentState}

theorem mem_matchedObservedKeys {key : String} :
    key ∈ matchedObservedKeys expected.results (observedByKey observed) ↔
      (∃ outcome ∈ expected.results, outcome.key = key) ∧
        ∃ o, (observedByKey observed).lookup key = some o := by
  rw [matchedObservedKeys, List.mem_filter, List.mem_map, Option.isSome_iff_exists]

variable {o : ObservedPaymentState}

/-- An on-chain observation is unexpected where no outcome has its key. -/
theorem isUnexpected_iff (ho : o ∈ observed) :
    isUnexpected (matchedObservedKeys expected.results (observedByKey observed)) o = true ↔
      o.onChainStatus ≠ .not_found ∧ ∀ outcome ∈ expected.results, o.key ≠ some outcome.key := by
  rw [isUnexpected]
  cases hk : o.key with
  | none => simp
  | some key =>
    have hsome := lookup_newestByKey_isSome ObservedPaymentState.observedAt ho hk
    rw [← observedByKey] at hsome
    simp only [mem_matchedObservedKeys, hsome, and_true, Bool.and_eq_true, Bool.not_eq_true',
      decide_eq_false_iff_not, not_exists, not_and, bne_iff_ne, ne_eq, Option.some.injEq]
    rw [and_comm]
    exact and_congr_right fun _ => forall_congr' fun _ => forall_congr' fun _ => not_congr eq_comm

variable {e : ReconciliationDiffEntry}

theorem mem_entries_diff :
    e ∈ (generateReconciliationDiff now expected observed).entries ↔
      (∃ outcome ∈ expected.results, diffOne outcome ((observedByKey observed).lookup outcome.key) = e) ∨
        ∃ o ∈ observed, (o.onChainStatus ≠ .not_found ∧
          ∀ outcome ∈ expected.results, o.key ≠ some outcome.key) ∧ unexpectedEntry o = e := by
  rw [generateReconciliationDiff, List.mem_append, List.mem_map, List.mem_map]
  refine or_congr_right (exists_congr fun o => ?_)
  rw [List.mem_filter, and_assoc]
  exact and_congr_right fun ho => and_congr_left fun _ => isUnexpected_iff ho

theorem entries_unexpected : ((generateReconciliationDiff now expected observed).entries.filter
    (·.category = .unexpected)).map ReconciliationDiffEntry.observed =
      (observed.filter fun o => o.onChainStatus ≠ .not_found ∧
        ∀ outcome ∈ expected.results, o.key ≠ some outcome.key).map some := by
  rw [generateReconciliationDiff, List.filter_append, List.filter_eq_nil_iff.mpr, List.nil_append,
    List.filter_eq_self.mpr, List.map_map]
  · have hfilter : observed.filter (isUnexpected (matchedObservedKeys expected.results (observedByKey observed))) =
        observed.filter fun o => o.onChainStatus ≠ .not_found ∧
          ∀ outcome ∈ expected.results, o.key ≠ some outcome.key := by
      refine List.filter_congr fun o ho => ?_
      rw [Bool.eq_iff_iff, isUnexpected_iff ho, decide_eq_true_iff]
    rw [hfilter]
    rfl
  · intro e he
    obtain ⟨o, -, rfl⟩ := List.mem_map.mp he
    rfl
  · intro e he
    obtain ⟨outcome, -, rfl⟩ := List.mem_map.mp he
    rw [decide_eq_true_iff]
    exact classify_ne_unexpected outcome _

theorem onChain_of_unexpected (he : e ∈ (generateReconciliationDiff now expected observed).entries)
    (hcategory : e.category = .unexpected) :
    ∃ o ∈ observed, o.onChainStatus ≠ .not_found ∧ e.observed = some o := by
  rcases mem_entries_diff.mp he with ⟨outcome, -, rfl⟩ | ⟨o, ho, ⟨hchain, -⟩, rfl⟩
  · exact absurd hcategory (classify_ne_unexpected outcome _)
  · exact ⟨o, ho, hchain, rfl⟩

theorem entries_outcomes : (generateReconciliationDiff now expected observed).entries.filterMap
    (fun e => e.expected.map fun x => (e.recipient, x)) =
      expected.results.map fun outcome => (outcome.recipient, outcome.expected) := by
  rw [generateReconciliationDiff, List.filterMap_append, List.filterMap_map, List.filterMap_map]
  have hnone : (observed.filter (isUnexpected (matchedObservedKeys expected.results
      (observedByKey observed)))).filterMap
        ((fun e : ReconciliationDiffEntry => e.expected.map fun x => (e.recipient, x)) ∘ unexpectedEntry) = [] :=
    List.filterMap_eq_nil_iff.mpr fun _ _ => rfl
  rw [hnone, List.append_nil, ← List.filterMap_eq_map]
  exact List.filterMap_congr fun _ _ => rfl

variable (now expected) in
/-- An on-chain observation is unexpected, or the newest of its key is the one
of an outcome. -/
theorem seen_cases {i : Nat} (hi : observed[i]? = some o) (ho : o.onChainStatus ≠ .not_found) :
    unexpectedEntry o ∈ (generateReconciliationDiff now expected observed).entries ∨
      ∃ outcome ∈ expected.results, o.key = some outcome.key ∧ ∃ j p, observed[j]? = some p ∧
        (observedByKey observed).lookup outcome.key = some p ∧ p.key = o.key ∧ Newest observed j := by
  by_cases hex : ∀ outcome ∈ expected.results, o.key ≠ some outcome.key
  · exact .inl (mem_entries_diff.mpr (.inr ⟨o, List.mem_of_getElem? hi, ⟨ho, hex⟩, rfl⟩))
  · right
    simp only [not_forall, not_not] at hex
    obtain ⟨outcome, hmem, hk⟩ := hex
    obtain ⟨p, hp⟩ :=
      lookup_newestByKey_isSome ObservedPaymentState.observedAt (List.mem_of_getElem? hi) hk
    obtain ⟨j, hj, hpk, hnew⟩ := newest_of_lookup hp
    exact ⟨outcome, hmem, hk, j, p, hj, hp, hpk.trans hk.symm, hnew⟩

theorem seen_of_onChain {i : Nat} (hi : observed[i]? = some o) (ho : o.onChainStatus ≠ .not_found) :
    (∃ e ∈ (generateReconciliationDiff now expected observed).entries,
        e.category = .unexpected ∧ e.observed = some o) ∨
      ∃ j p, observed[j]? = some p ∧ p.key = o.key ∧ o.observedAt ≤ p.observedAt ∧
        MatchedIn (generateReconciliationDiff now expected observed) p ∧ (Newest observed i → j = i) := by
  rcases seen_cases now expected hi ho with
    hmem | ⟨outcome, hmem, hk, j, p, hj, hp, hpk, hnew⟩
  · exact .inl ⟨_, hmem, rfl, rfl⟩
  · right
    obtain ⟨p', hp', hmax⟩ := id hnew
    obtain rfl : p = p' := Option.some.inj (hj.symm.trans hp')
    refine ⟨j, p, hj, hpk, (hmax i o hi hpk.symm).1, ?_, fun hi' => hnew.unique hi' hj hi hpk⟩
    exact ⟨_, mem_entries_diff.mpr (.inl ⟨outcome, hmem, rfl⟩), rfl, hp⟩

theorem quiet_of_reconciled (h : (generateReconciliationDiff now expected observed).isFullyReconciled = true)
    (he : e ∈ (generateReconciliationDiff now expected observed).entries) :
    e.category = .match ∨ e.category = .still_pending := by
  have hentry := List.all_eq_true.mp h e he
  rwa [Bool.or_eq_true, decide_eq_true_iff, decide_eq_true_iff] at hentry

/-- In a reconciled diff, the newest confirmed observation of a key is that of
an outcome that it pays. -/
theorem pays_of_reconciled (h : (generateReconciliationDiff now expected observed).isFullyReconciled = true)
    {i : Nat} (hi : observed[i]? = some o) (hc : o.onChainStatus = .confirmed)
    (hnew : Newest observed i) {outcome : PaymentExecutionOutcome} (hmem : outcome ∈ expected.results)
    (hk : o.key = some outcome.key) : Pays outcome o := by
  have hl : (observedByKey observed).lookup outcome.key = some o := lookup_newestByKey hi hk hnew
  have hentry := quiet_of_reconciled h (mem_entries_diff.mpr (.inl ⟨outcome, hmem, rfl⟩))
  rw [hl] at hentry
  refine ⟨hk, fun hr hr' => ?_, diffOne_quiet hc hentry⟩
  obtain ⟨asset, hasset, hkey⟩ := Option.map_eq_some_iff.mp hk
  obtain ⟨hrecipient, hsame⟩ := matchKey_injective hr hr' hkey
  exact ⟨hrecipient, by rw [hasset, hsame]⟩

/-- The place of the first outcome with the key. -/
def placeOf (results : List PaymentExecutionOutcome) (key : Option String) : Nat :=
  results.findIdx fun outcome => key = some outcome.key

theorem placeOf_spec {results : List PaymentExecutionOutcome} {key : Option String}
    (h : ∃ outcome ∈ results, key = some outcome.key) :
    ∃ outcome, results[placeOf results key]? = some outcome ∧ key = some outcome.key := by
  have hlt : placeOf results key < results.length := by
    obtain ⟨outcome, hmem, hk⟩ := h
    exact List.findIdx_lt_length_of_exists ⟨outcome, hmem, decide_eq_true hk⟩
  exact ⟨_, List.getElem?_eq_getElem hlt, of_decide_eq_true (List.findIdx_getElem (w := hlt))⟩

theorem reconciled_paired
    (h : (generateReconciliationDiff now expected observed).isFullyReconciled = true) :
    ∃ place : Nat → Nat,
      Set.InjOn place {i | Newest observed i ∧ observed[i]?.map (·.onChainStatus) = some .confirmed} ∧
        ∀ i o, observed[i]? = some o → o.onChainStatus = .confirmed → Newest observed i →
          ∃ outcome, expected.results[place i]? = some outcome ∧ Pays outcome o := by
  have hplace {i : Nat} {o : ObservedPaymentState} (hi : observed[i]? = some o)
      (hc : o.onChainStatus = .confirmed) :
      ∃ outcome, expected.results[placeOf expected.results o.key]? = some outcome ∧ o.key = some outcome.key := by
    rcases seen_cases now expected hi (by rw [hc]; decide) with hun | ⟨outcome, hmem, hk, -⟩
    · rcases quiet_of_reconciled h hun with hquiet | hquiet <;> cases hquiet
    · exact placeOf_spec ⟨outcome, hmem, hk⟩
  refine ⟨fun i => placeOf expected.results (observed[i]?.bind (·.key)), fun i hi j hj heq => ?_,
    fun i o hi hc hnew => ?_⟩
  · -- two observations of one outcome have its key
    obtain ⟨hinew, hic⟩ := hi
    obtain ⟨hjnew, hjc⟩ := hj
    obtain ⟨o, ho, hoc⟩ := Option.map_eq_some_iff.mp hic
    obtain ⟨p, hp, hpc⟩ := Option.map_eq_some_iff.mp hjc
    obtain ⟨outcome, hout, hk⟩ := hplace ho hoc
    obtain ⟨outcome', hout', hk'⟩ := hplace hp hpc
    simp only [ho, hp, Option.bind_some] at heq
    rw [heq] at hout
    obtain rfl : outcome = outcome' := Option.some.inj (hout.symm.trans hout')
    exact hinew.unique hjnew ho hp (hk.trans hk'.symm)
  · obtain ⟨outcome, hout, hk⟩ := hplace hi hc
    refine ⟨outcome, ?_, pays_of_reconciled h hi hc hnew (List.mem_of_getElem? hout) hk⟩
    simp only [hi, Option.bind_some]
    exact hout

end Diff

end ZkPayroll.Reconciliation
