import Mathlib.Algebra.Order.Ring.Defs
import Mathlib.Data.Nat.Cast.Order.Ring
import ZkPayroll.Import.ClusterEvidence

/-!
# Clusters with sound evidence

The evidence of the clusters is sound exactly where every pair of their members
is (`sound_iff`). Every cluster has an item of evidence (`exists_item`), so its
confidence is the greatest of its items in any case (`strongest_foldl`).
-/

namespace ZkPayroll.Import

open Framework Relation

variable {ν : Type}

/-! ## Confidence -/

/-- The strongest of a start and the items of a list. -/
theorem foldl_strongest : ∀ (items : List DuplicateMatchEvidence) (start : DuplicateConfidence),
    start.rank ≤ (items.foldl strongest start).rank ∧
      (∀ e ∈ items, e.confidence.rank ≤ (items.foldl strongest start).rank) ∧
      (items.foldl strongest start = start ∨ ∃ e ∈ items, e.confidence = items.foldl strongest start)
  | [], _ => ⟨le_rfl, List.forall_mem_nil _, .inl rfl⟩
  | e :: items, start => by
    obtain ⟨hstart, hitems, hone⟩ := foldl_strongest items (strongest start e)
    have hnext : start.rank ≤ (strongest start e).rank ∧ e.confidence.rank ≤ (strongest start e).rank ∧
        (strongest start e = start ∨ strongest start e = e.confidence) := by
      unfold strongest
      split
      · rename_i h
        exact ⟨h.le, le_rfl, .inr rfl⟩
      · rename_i h
        exact ⟨le_rfl, not_lt.mp h, .inl rfl⟩
    rw [List.foldl_cons]
    refine ⟨hnext.1.trans hstart, List.forall_mem_cons.mpr ⟨hnext.2.1.trans hstart, hitems⟩, ?_⟩
    rcases hone with hone | ⟨e', he', hone⟩
    · rw [hone]
      exact hnext.2.2.imp_right fun heq => ⟨e, List.mem_cons_self, heq.symm⟩
    · exact .inr ⟨e', List.mem_cons_of_mem _ he', hone⟩

/-- The strongest confidence of items, of which there are some. -/
theorem strongest_foldl {items : List DuplicateMatchEvidence} (h : items ≠ []) :
    (∃ e ∈ items, e.confidence = items.foldl strongest .low) ∧
      ∀ e ∈ items, e.confidence.rank ≤ (items.foldl strongest .low).rank := by
  obtain ⟨-, hitems, hone⟩ := foldl_strongest items .low
  refine ⟨hone.elim (fun hlow => ?_) id, hitems⟩
  obtain ⟨e, he⟩ := List.exists_mem_of_ne_nil items h
  have hrank := hitems e he
  rw [hlow] at hrank ⊢
  refine ⟨e, he, ?_⟩
  cases hconfidence : e.confidence with
  | low => rfl
  | _ =>
    rw [hconfidence] at hrank
    exact absurd hrank (by decide)

/-! ## Members -/

section Members

variable [LE ν] [DecidableLE ν] [NatCast ν] {rt : Runtime ν} {records : List (ImportEmployeeRecord ν)}
  {options : DuplicateClusterOptions ν} {i j : Nat}

theorem lt_length_of_edge (h : Edge (collectEvidence rt records options) i j) :
    i < records.length ∧ j < records.length := by
  cases linked_of_edge h with
  | sameText field hf hne heq => exact ⟨lt_of_rawAt hne, lt_of_rawAt (heq ▸ hne)⟩
  | sameNormalized field hf s hi hj => exact ⟨lt_of_rawAt hi.1, lt_of_rawAt hj.1⟩
  | similarNames hij h =>
    obtain ⟨e, he, rfl, rfl⟩ := edge_fuzzyEvidence.mpr ⟨hij, h⟩
    obtain ⟨p, hp, he⟩ := List.mem_filterMap.mp he
    split at he
    · cases he
      obtain ⟨hlt, hlength⟩ := mem_pairs_range.mp hp
      exact ⟨hlt.trans hlength, hlength⟩
    · cases he

/-- An element that is connected to another one has an edge. -/
theorem exists_edge_of_eqvGen {R : Nat → Nat → Prop} (h : EqvGen R i j) :
    i = j ∨ (∃ k, R i k ∨ R k i) ∧ ∃ k, R j k ∨ R k j := by
  induction h with
  | rel x y h => exact .inr ⟨⟨y, .inl h⟩, x, .inr h⟩
  | refl x => exact .inl rfl
  | symm x y _ ih => exact ih.imp Eq.symm And.symm
  | trans x y z _ _ ihxy ihyz =>
    rcases ihxy with rfl | ⟨hx, hy⟩
    · exact ihyz
    · rcases ihyz with rfl | ⟨-, hz⟩
      · exact .inr ⟨hx, hy⟩
      · exact .inr ⟨hx, hz⟩

/-- A component of two or more records has an item of evidence. -/
theorem exists_item {members : List Nat} (h : IsComponent (Linked rt records options) records.length members)
    (hsize : 2 ≤ members.length) :
    ∃ e ∈ keptEvidence rt records options, e.leftIndex ∈ members ∧ e.rightIndex ∈ members := by
  obtain ⟨i, hi, hmem⟩ := h.connected
  obtain ⟨a, b, rest, rfl⟩ : ∃ a b rest, members = a :: b :: rest := by
    match members, hsize with
    | a :: b :: rest, _ => exact ⟨a, b, rest, rfl⟩
  have ha := (hmem a).mp List.mem_cons_self
  have hb := (hmem b).mp (by simp)
  have hne : a ≠ b := (List.rel_of_pairwise_cons h.ascending List.mem_cons_self).ne
  have hconnected := connected_iff.mpr (.trans _ _ _ (.symm _ _ ha.2) hb.2)
  have hkept : ∀ {k l : Nat}, Edge (collectEvidence rt records options) k l →
      EqvGen (Linked rt records options) i k ∨ EqvGen (Linked rt records options) i l →
      ∃ e ∈ keptEvidence rt records options, e.leftIndex ∈ a :: b :: rest ∧ e.rightIndex ∈ a :: b :: rest := by
    intro k l hedge hone
    have hlinked : EqvGen (Linked rt records options) k l := .rel _ _ (linked_of_edge hedge)
    have hk : EqvGen (Linked rt records options) i k := hone.elim id fun hl => .trans _ _ _ hl (.symm _ _ hlinked)
    obtain ⟨hklt, hllt⟩ := lt_length_of_edge hedge
    obtain ⟨e, he, rfl, rfl⟩ := hedge
    have hfirst : ∃ e' ∈ keptEvidence rt records options, (e'.leftIndex, e'.rightIndex) = (e.leftIndex, e.rightIndex) :=
      exists_mem_firsts he List.not_mem_nil
    obtain ⟨e', he', hkey⟩ := hfirst
    obtain ⟨hleft, hright⟩ := Prod.mk.inj hkey
    refine ⟨e', he', ?_, ?_⟩
    · rw [hleft]
      exact (hmem _).mpr ⟨hklt, hk⟩
    · rw [hright]
      exact (hmem _).mpr ⟨hllt, .trans _ _ _ hk hlinked⟩
  obtain ⟨⟨k, hk | hk⟩, -⟩ := (exists_edge_of_eqvGen hconnected).resolve_left hne
  · exact hkept hk (.inl ha.2)
  · exact hkept hk (.inr ha.2)

end Members

/-! ## Clusters -/

section Clusters

variable [LE ν] [DecidableLE ν] [NatCast ν] {rt : Runtime ν} {records : List (ImportEmployeeRecord ν)}
  {options : DuplicateClusterOptions ν}

/-- The cluster of some members. -/
theorem mem_clusters_iff {c : DuplicateCluster} : c ∈ (detectDuplicateClusters rt records options).clusters ↔
    ∃ members ordinal, (members, ordinal) ∈
        (pendingClusters records (unionRecords (collectEvidence rt records options)) (minClusterSize options)).zipIdx ∧
      c = buildCluster rt (keptEvidence rt records options) members ordinal := by
  have hclusters : (detectDuplicateClusters rt records options).clusters =
      ((pendingClusters records (unionRecords (collectEvidence rt records options)) (minClusterSize options)).zipIdx).map
        fun f => buildCluster rt (keptEvidence rt records options) f.1 f.2 := rfl
  rw [hclusters, List.mem_map, Prod.exists]
  simp only [eq_comm (a := c)]

variable {members : List Nat}

/-- The members of a cluster are a component that is large enough. -/
theorem mem_pending_iff :
    members ∈ pendingClusters records (unionRecords (collectEvidence rt records options)) (minClusterSize options) ↔
      IsComponent (Linked rt records options) records.length members ∧
        JsNumber.le (minClusterSize options) (.finite (members.length : ν)) = true := by
  rw [mem_pendingClusters, isComponent_iff]

omit [LE ν] [DecidableLE ν] [NatCast ν] in
theorem mem_evidence_buildCluster {kept : List DuplicateMatchEvidence} {ordinal : Nat}
    {e : DuplicateMatchEvidence} : e ∈ (buildCluster rt kept members ordinal).evidence ↔
      e ∈ kept ∧ e.leftIndex ∈ members ∧ e.rightIndex ∈ members := by
  rw [buildCluster, List.mem_insertionSort, List.mem_filter, decide_eq_true_iff]

theorem SamePair.symm {a b : DuplicateMatchEvidence} (h : SamePair a b) : SamePair b a :=
  h.imp (fun h => ⟨h.1.symm, h.2.symm⟩) fun h => ⟨h.2.symm, h.1.symm⟩

omit [LE ν] [DecidableLE ν] [NatCast ν] in
/-- Items that each have their first record first are for different pairs. -/
theorem one_per_pair_of_ordered {kept : List DuplicateMatchEvidence} {ordinal : Nat}
    (hkeys : (kept.map fun e => (e.leftIndex, e.rightIndex)).Nodup)
    (hordered : ∀ e ∈ (buildCluster rt kept members ordinal).evidence, e.leftIndex < e.rightIndex) :
    (buildCluster rt kept members ordinal).evidence.Pairwise fun a b => ¬SamePair a b := by
  have hperm : (buildCluster rt kept members ordinal).evidence.Perm
      (kept.filter fun e => e.leftIndex ∈ members ∧ e.rightIndex ∈ members) := List.perm_insertionSort _ _
  refine List.Pairwise.perm (l := kept.filter _) ?_ hperm.symm fun h h' => h h'.symm
  refine ((List.pairwise_map.mp hkeys).filter _).imp_of_mem fun {a b} ha hb hne hsame => ?_
  have hlt := hordered a (hperm.mem_iff.mpr ha)
  have hlt' := hordered b (hperm.mem_iff.mpr hb)
  rcases hsame with ⟨hl, hr⟩ | ⟨hl, hr⟩
  · exact hne (Prod.ext hl hr)
  · omega

end Clusters

/-! ## Sound clusters -/

section Sound

variable [Semiring ν] [LinearOrder ν] [IsStrictOrderedRing ν] {rt : Runtime ν} {records : List (ImportEmployeeRecord ν)}
  {options : DuplicateClusterOptions ν}

/-- A cluster has two members at least. -/
theorem two_le_of_minClusterSize {n : Nat} (h : JsNumber.le (minClusterSize options) (.finite (n : ν)) = true) : 2 ≤ n := by
  have htwo : JsNumber.le (.finite ((2 : Nat) : ν)) (.finite (n : ν)) = true := by
    unfold minClusterSize JsNumber.max at h
    split at h
    · cases h
    · rename_i hnan
      split at h
      · exact h
      · rename_i hle
        rw [Bool.or_eq_true, not_or, Bool.not_eq_true, Bool.not_eq_true] at hnan
        have hlt := JsNumber.lt_of_not_le hnan.2 hnan.1 (Bool.not_eq_true _ ▸ hle)
        exact JsNumber.le_trans (Bool.and_eq_true_iff.mp hlt).1 h
  exact Nat.cast_le.mp (of_decide_eq_true htwo)

/-- Every pair of members of a component that is large enough is sound. -/
def SoundPairs (rt : Runtime ν) (records : List (ImportEmployeeRecord ν)) (options : DuplicateClusterOptions ν) : Prop :=
  ∀ members, IsComponent (Linked rt records options) records.length members →
    JsNumber.le (minClusterSize options) (.finite (members.length : ν)) = true →
      ∀ i ∈ members, ∀ j ∈ members, i < j → SoundPair rt records options i j

/-- The evidence of every cluster is sound exactly where every pair of its
members is. -/
theorem sound_iff (rt : Runtime ν) (records : List (ImportEmployeeRecord ν)) (options : DuplicateClusterOptions ν) :
    (∀ c ∈ (detectDuplicateClusters rt records options).clusters, SoundEvidence rt records options c) ↔
      SoundPairs rt records options := by
  constructor
  · intro hsound members hcomponent hsize i hi j hj hij
    obtain ⟨ordinal, hordinal⟩ : ∃ ordinal, (members, ordinal) ∈
        (pendingClusters records (unionRecords (collectEvidence rt records options))
          (minClusterSize options)).zipIdx := by
      obtain ⟨k, hk, heq⟩ := List.getElem_of_mem (mem_pending_iff.mpr ⟨hcomponent, hsize⟩)
      exact ⟨k, List.mem_zipIdx_iff_getElem?.mpr (by rw [List.getElem?_eq_getElem hk, heq])⟩
    have hc := hsound _ (mem_clusters_iff.mpr ⟨members, ordinal, hordinal, rfl⟩)
    refine soundPair_of_reported hij ?_ fun e he => ?_
    · rintro ⟨e, he⟩
      obtain ⟨rfl, rfl⟩ := he.isFor
      exact (hc.ordered e (mem_evidence_buildCluster.mpr ⟨he.mem, hj, hi⟩)).asymm hij
    · obtain ⟨rfl, rfl⟩ := he.isFor
      exact (hc.strongest e (mem_evidence_buildCluster.mpr ⟨he.mem, hi, hj⟩)).2
  · intro hpairs c hc
    obtain ⟨members, ordinal, hordinal, rfl⟩ := mem_clusters_iff.mp hc
    obtain ⟨hcomponent, hsize⟩ := mem_pending_iff.mp (List.fst_mem_of_mem_zipIdx hordinal)
    have hpair := hpairs members hcomponent hsize
    have hordered : ∀ e ∈ (buildCluster rt (keptEvidence rt records options) members ordinal).evidence,
        e.leftIndex < e.rightIndex := by
      intro e he
      obtain ⟨hkept, hl, hr⟩ := mem_evidence_buildCluster.mp he
      exact (mem_keptEvidence_iff.mp hkept).lt (hpair _ hr _ hl)
    have hsome : (keptEvidence rt records options).filter
        (fun e => e.leftIndex ∈ members ∧ e.rightIndex ∈ members) ≠ [] := by
      obtain ⟨e, he, hmem⟩ := exists_item hcomponent (two_le_of_minClusterSize hsize)
      exact List.ne_nil_of_mem (List.mem_filter.mpr ⟨he, decide_eq_true hmem⟩)
    obtain ⟨⟨e, he, heq⟩, hmax⟩ := strongest_foldl hsome
    refine ⟨hordered, one_per_pair_of_ordered (nodup_keys_firsts _ _) hordered,
    fun e he => ?_, ⟨e, ?_, heq⟩, fun e he => ?_⟩
    · obtain ⟨hkept, hl, hr⟩ := mem_evidence_buildCluster.mp he
      exact (hpair _ hl _ hr (hordered e he)).strongest (mem_keptEvidence_iff.mp hkept)
    · exact (List.mem_insertionSort _).mpr he
    · exact hmax e ((List.mem_insertionSort _).mp he)

end Sound

/-! ## Three lists of records -/

def plainRuntime : Runtime Int where
  toLowerCase := asciiLowerCase
  numberToString n := toString n
  localeCompare a b := if leUnits a b then (if leUnits b a then 0 else -1) else 1

def walletTarget : IdentityTarget := ⟨.walletAddress, .exact_wallet_address, some .case_insensitive_wallet_address⟩

def sameWallets : List (ImportEmployeeRecord Int) := [{ walletAddress := some "GA" }, { walletAddress := some "GA" }]

theorem sameWallets_sound : SoundPairs plainRuntime sameWallets {} := by
  refine (sound_iff plainRuntime sameWallets {}).mp fun c hc => ?_
  have hclusters : (detectDuplicateClusters plainRuntime sameWallets {}).clusters =
      [{ id := "dup-001", memberIndices := [0, 1], confidence := .exact, reasons := [.exact_wallet_address]
         evidence := [exactItem walletTarget 0 1] }] := by
    decide +kernel
  rw [hclusters, List.mem_singleton] at hc
  subst hc
  have hsame : SameText sameWallets .walletAddress 0 1 := by
    unfold SameText
    decide +kernel
  refine ⟨by decide, List.pairwise_singleton _ _, ?_, ⟨_, List.mem_cons_self, rfl⟩, by decide⟩
  intro e he
  rw [List.mem_singleton.mp he]
  exact ⟨.exact .walletAddress (by decide) hsame, fun confidence _ => rank_le_exact confidence⟩

/-- The identifiers differ in case, and the wallets are the same. -/
def sameWalletsOtherIds : List (ImportEmployeeRecord Int) :=
  [{ employeeId := some "E1", walletAddress := some "GA" }, { employeeId := some "e1", walletAddress := some "GA" }]

def mixedCaseIds : List (ImportEmployeeRecord Int) :=
  [{ employeeId := some "a" }, { employeeId := some "A" }, { employeeId := some "a" }]

/-- The only item of the first list is not the exact evidence of the wallets; an
item of the second list has its records the other way round. -/
theorem weaker_and_reversed :
    ((detectDuplicateClusters plainRuntime sameWalletsOtherIds {}).clusters.flatMap (·.evidence)).map
        (fun e => (e.leftIndex, e.rightIndex, e.confidence)) = [(0, 1, .high)] ∧
      (¬∀ c ∈ (detectDuplicateClusters plainRuntime sameWalletsOtherIds {}).clusters,
        SoundEvidence plainRuntime sameWalletsOtherIds {} c) ∧
      ((detectDuplicateClusters plainRuntime mixedCaseIds {}).clusters.flatMap (·.evidence)).map
        (fun e => (e.leftIndex, e.rightIndex, e.confidence)) = [(0, 1, .high), (0, 2, .exact), (2, 1, .high)] := by
  refine ⟨by decide +kernel, fun hsound => ?_, by decide +kernel⟩
  have hweak : ∃ c ∈ (detectDuplicateClusters plainRuntime sameWalletsOtherIds {}).clusters,
      ∃ e ∈ c.evidence, e.leftIndex = 0 ∧ e.rightIndex = 1 ∧ e.confidence = .high := by
    decide +kernel
  obtain ⟨c, hc, e, he, hl, hr, hhigh⟩ := hweak
  have hsame : SameText sameWalletsOtherIds .walletAddress e.leftIndex e.rightIndex := by
    rw [hl, hr]
    unfold SameText
    decide +kernel
  have hrank := ((hsound c hc).strongest e he).2 .exact (.exact .walletAddress (by decide) hsame)
  rw [hhigh] at hrank
  exact absurd hrank (by decide)

end ZkPayroll.Import
