import ZkPayroll.Import.Evidence

/-!
# The evidence that clusters list

The sink keeps the first item for an ordered pair of records. For a pair that is
the exact evidence of the first field that links the records in a row, the
normalized evidence of the first field in which they differ until it is
normalized, or the evidence of their names (`find?_collectEvidence`). So it is
not the strongest where a field that is normalized comes before one with the
same text, or where only records between the two link them (`sound_iff`).
-/

namespace ZkPayroll.Import

open Framework Relation

variable {ν : Type}

/-! ## Texts -/

section Texts

section Definitions

variable (toLowerCase : String → String) (records : List (ImportEmployeeRecord ν))

/-- The records have the same text in a field. -/
def SameText (field : DuplicateMatchField) (i j : Nat) : Prop :=
  rawAt records field i ≠ "" ∧ rawAt records field i = rawAt records field j

/-- The second record is the next one with the text of the first. -/
def LinkedAt (field : DuplicateMatchField) (i j : Nat) : Prop :=
  SameText records field i j ∧ i < j ∧ ∀ k, i < k → rawAt records field k = rawAt records field i → j ≤ k

/-- The records differ in the field of a target, but not once it is normalized. -/
def DiffersAt (target : IdentityTarget) (i j : Nat) : Prop :=
  target.normalizedReason.isSome ∧ rawAt records target.field i ≠ rawAt records target.field j ∧
    ∃ s, NormalizedAt toLowerCase records target.field i s ∧ NormalizedAt toLowerCase records target.field j s

/-- The text of the first record occurs before the one of the second, though
perhaps in another record. -/
def OccursBefore (field : DuplicateMatchField) (i j : Nat) : Prop :=
  ∃ k, rawAt records field k = rawAt records field i ∧ ∀ l, rawAt records field l = rawAt records field j → k < l

end Definitions

variable {toLowerCase : String → String} {records : List (ImportEmployeeRecord ν)} {field : DuplicateMatchField}
  {target : IdentityTarget} {i j : Nat}

theorem DiffersAt.symm (h : DiffersAt toLowerCase records target i j) : DiffersAt toLowerCase records target j i := by
  obtain ⟨hsome, hne, s, hi, hj⟩ := h
  exact ⟨hsome, hne.symm, s, hj, hi⟩

theorem LinkedAt.not_differsAt (h : LinkedAt records target.field i j) : ¬DiffersAt toLowerCase records target i j :=
  fun hd => hd.2.1 h.1.2

theorem OccursBefore.asymm (h : OccursBefore records field i j) : ¬OccursBefore records field j i := by
  obtain ⟨k, hk, hlt⟩ := h
  rintro ⟨l, hl, hlt'⟩
  exact (hlt l hl).asymm (hlt' k hk)

/-! ## Items of exact evidence -/

theorem ascending_rawGroup {g : String × List Nat} (hg : g ∈ rawGroups records field) : g.2.Pairwise (· < ·) := by
  have hmem := (mem_groupBy.mp hg).2
  rw [List.map_id] at hmem
  rw [hmem]
  exact (List.pairwise_lt_range.filter _).filter _

theorem edge_exactEvidence_iff : Edge (exactEvidence records target) i j ↔ LinkedAt records target.field i j := by
  constructor
  · rintro ⟨e, he, rfl, rfl⟩
    obtain ⟨g, hg, he⟩ := List.mem_flatMap.mp he
    obtain ⟨p, hp, rfl⟩ := List.mem_map.mp he
    obtain ⟨hne, hmem⟩ := mem_rawGroups hg
    obtain ⟨h₁, h₂, hlt, hnext⟩ := (mem_consecutive_iff (ascending_rawGroup hg)).mp hp
    have hraw := (hmem p.1).mp h₁
    refine ⟨⟨by rw [hraw]; exact hne, by rw [hraw, (hmem p.2).mp h₂]⟩, hlt, fun k hk hsame => ?_⟩
    exact hnext k ((hmem k).mpr (hsame.trans hraw)) hk
  · rintro ⟨⟨hne, hsame⟩, hlt, hnext⟩
    obtain ⟨g, hg, hraw⟩ := exists_rawGroup hne
    have hmem := (mem_rawGroups hg).2
    have hp : (i, j) ∈ consecutive g.2 := by
      refine (mem_consecutive_iff (ascending_rawGroup hg)).mpr
        ⟨(hmem i).mpr hraw.symm, (hmem j).mpr (hraw ▸ hsame.symm), hlt, fun k hk hik => ?_⟩
      exact hnext k hik (((hmem k).mp hk).trans hraw)
    exact ⟨_, List.mem_flatMap.mpr ⟨g, hg, List.mem_map_of_mem hp⟩, rfl, rfl⟩

/-! ## Items of normalized evidence -/

/-- The indices with normalized texts come in the order in which their texts
first occur. -/
theorem pairwise_normalizedIndices : (normalizedIndices records toLowerCase field).Pairwise fun p q =>
    rawAt records field p.2 = rawAt records field q.2 ∨ OccursBefore records field p.2 q.2 := by
  rw [normalizedIndices, List.pairwise_flatMap]
  have hraw : ∀ {g : String × List Nat}, g ∈ rawGroups records field → ∀ p ∈ withNormalized toLowerCase g,
      rawAt records field p.2 = g.1 := by
    intro g hg p hp
    exact ((mem_rawGroups hg).2 p.2).mp (mem_withNormalized.mp hp).1
  refine ⟨fun g hg => List.pairwise_of_forall_mem_list fun p hp q hq => .inl ?_, ?_⟩
  · rw [hraw hg p hp, hraw hg q hq]
  · have hrange : ((List.range records.length).filter fun i => rawAt records field i ≠ "").Pairwise (· < ·) :=
      List.pairwise_lt_range.filter _
    refine (pairwise_groupBy hrange).imp_of_mem fun {g h} hg hh hgh p hp q hq => .inr ?_
    obtain ⟨k, hk, hlt⟩ := hgh
    refine ⟨k, by rw [hraw hg p hp]; exact ((mem_rawGroups hg).2 k).mp hk, fun l hl => hlt l ?_⟩
    exact ((mem_rawGroups hh).2 l).mpr (hl.trans (hraw hh q hq))

theorem pairwise_normalizedGroup {g : String × List Nat}
    (hg : g ∈ sortedNormalizedGroups records toLowerCase field) :
    g.2.Pairwise fun i j => rawAt records field i = rawAt records field j ∨ OccursBefore records field i j := by
  rw [sortedNormalizedGroups, List.mem_insertionSort] at hg
  rw [(mem_groupBy.mp hg).2]
  exact List.pairwise_map.mpr (pairwise_normalizedIndices.filter _)

theorem edge_normalizedEvidence_iff {normalizedAsExact : Bool} {reason : DuplicateReasonCode} :
    Edge (normalizedEvidence records toLowerCase normalizedAsExact field reason) i j ↔
      rawAt records field i ≠ rawAt records field j ∧
        (∃ s, NormalizedAt toLowerCase records field i s ∧ NormalizedAt toLowerCase records field j s) ∧
        OccursBefore records field i j := by
  constructor
  · rintro ⟨e, he, rfl, rfl⟩
    obtain ⟨g, hg, he⟩ := List.mem_flatMap.mp he
    obtain ⟨p, hp, he⟩ := List.mem_filterMap.mp he
    obtain ⟨h₁, h₂, hbefore⟩ := mem_pairs_of_pairwise (pairwise_normalizedGroup hg) hp
    have hmem := mem_sortedNormalizedGroups hg
    split at he
    · cases he
    · rename_i hne
      cases he
      exact ⟨hne, ⟨g.1, (hmem p.1).mp h₁, (hmem p.2).mp h₂⟩, hbefore.resolve_left hne⟩
  · rintro ⟨hne, ⟨s, hi, hj⟩, hbefore⟩
    obtain ⟨g, hg, rfl⟩ := exists_normalizedGroup hi
    have hmem := mem_sortedNormalizedGroups hg
    have hij : i ≠ j := fun heq => hne (heq ▸ rfl)
    rcases mem_pairs hij ((hmem i).mpr hi) ((hmem j).mpr hj) with hp | hp
    · exact ⟨_, List.mem_flatMap.mpr ⟨g, hg, List.mem_filterMap.mpr ⟨(i, j), hp, if_neg hne⟩⟩, rfl, rfl⟩
    · obtain ⟨-, -, hback⟩ := mem_pairs_of_pairwise (pairwise_normalizedGroup hg) hp
      exact absurd (hback.resolve_left hne.symm) hbefore.asymm

/-- Of two texts that are normalized alike, one occurs before the other. -/
theorem DiffersAt.occursBefore (h : DiffersAt toLowerCase records target i j) :
    OccursBefore records target.field i j ∨ OccursBefore records target.field j i := by
  obtain ⟨-, hne, s, hi, hj⟩ := h
  obtain ⟨g, hg, rfl⟩ := exists_normalizedGroup hi
  have hmem := mem_sortedNormalizedGroups hg
  have hij : i ≠ j := fun heq => hne (heq ▸ rfl)
  rcases mem_pairs hij ((hmem i).mpr hi) ((hmem j).mpr hj) with hp | hp
  · exact .inl ((mem_pairs_of_pairwise (pairwise_normalizedGroup hg) hp).2.2.resolve_left hne)
  · exact .inr ((mem_pairs_of_pairwise (pairwise_normalizedGroup hg) hp).2.2.resolve_left hne.symm)

end Texts

/-! ## The first item of a pair -/

/-- The item of a target for records that it links. -/
def exactItem (target : IdentityTarget) (i j : Nat) : DuplicateMatchEvidence where
  leftIndex := i
  rightIndex := j
  field := target.field
  kind := .exact
  confidence := .exact
  reason := target.exactReason

def normalizedConfidence (normalizedAsExact : Bool) : DuplicateConfidence := if normalizedAsExact then .exact else .high

/-- The evidence of equal normal forms. -/
def normalizedItem (normalizedAsExact : Bool) (target : IdentityTarget) (reason : DuplicateReasonCode) (i j : Nat) :
    DuplicateMatchEvidence where
  leftIndex := i
  rightIndex := j
  field := target.field
  kind := .normalized
  confidence := normalizedConfidence normalizedAsExact
  reason := reason

def nameItem (rt : Runtime ν) (records : List (ImportEmployeeRecord ν)) (i j : Nat) : DuplicateMatchEvidence where
  leftIndex := i
  rightIndex := j
  field := .name
  kind := .fuzzy
  confidence := (nameEvidence rt (records.getD i {}) (records.getD j {})).1
  reason := (nameEvidence rt (records.getD i {}) (records.getD j {})).2

/-- The item is for the two records, in this order. -/
def isFor (i j : Nat) (e : DuplicateMatchEvidence) : Bool := (e.leftIndex, e.rightIndex) = (i, j)

theorem isFor_iff {i j : Nat} {e : DuplicateMatchEvidence} : isFor i j e = true ↔ e.leftIndex = i ∧ e.rightIndex = j := by
  rw [isFor, decide_eq_true_iff, Prod.mk.injEq]

/-- The first item for two records in a list that has at most one such item. -/
theorem find?_isFor_iff {evidence : List DuplicateMatchEvidence} {i j : Nat} {x : DuplicateMatchEvidence}
    (honly : ∀ e ∈ evidence, isFor i j e = true → e = x) {e : DuplicateMatchEvidence} :
    evidence.find? (isFor i j) = some e ↔ Edge evidence i j ∧ e = x := by
  constructor
  · intro h
    have hmem := List.mem_of_find?_eq_some h
    have hfor := List.find?_some h
    exact ⟨⟨e, hmem, isFor_iff.mp hfor⟩, honly e hmem hfor⟩
  · rintro ⟨⟨e', hmem, hfor⟩, rfl⟩
    have hsome : (evidence.find? (isFor i j)).isSome := List.find?_isSome.mpr ⟨e', hmem, isFor_iff.mpr hfor⟩
    obtain ⟨found, hfound⟩ := Option.isSome_iff_exists.mp hsome
    rw [hfound, honly found (List.mem_of_find?_eq_some hfound) (List.find?_some hfound)]

theorem find?_isFor_eq_none {evidence : List DuplicateMatchEvidence} {i j : Nat} :
    evidence.find? (isFor i j) = none ↔ ¬Edge evidence i j := by
  rw [List.find?_eq_none, Edge]
  simp only [isFor_iff, not_exists, not_and]

section Items

variable {toLowerCase : String → String} {records : List (ImportEmployeeRecord ν)} {target : IdentityTarget}
  {i j : Nat} {normalizedAsExact : Bool}

variable {e : DuplicateMatchEvidence}

theorem eq_exactItem (he : e ∈ exactEvidence records target)
    (hfor : isFor i j e = true) : e = exactItem target i j := by
  obtain ⟨g, -, he⟩ := List.mem_flatMap.mp he
  obtain ⟨p, -, rfl⟩ := List.mem_map.mp he
  obtain ⟨rfl, rfl⟩ := isFor_iff.mp hfor
  rfl

theorem eq_normalizedItem {reason : DuplicateReasonCode}
    (he : e ∈ normalizedEvidence records toLowerCase normalizedAsExact target.field reason)
    (hfor : isFor i j e = true) : e = normalizedItem normalizedAsExact target reason i j := by
  obtain ⟨g, -, he⟩ := List.mem_flatMap.mp he
  obtain ⟨p, -, he⟩ := List.mem_filterMap.mp he
  split at he
  · cases he
  · cases he
    obtain ⟨rfl, rfl⟩ := isFor_iff.mp hfor
    rfl

/-- What a target says of a pair of records. -/
inductive TargetItem (toLowerCase : String → String) (normalizedAsExact : Bool)
    (records : List (ImportEmployeeRecord ν)) (target : IdentityTarget) (i j : Nat) : DuplicateMatchEvidence → Prop
  | exact (h : LinkedAt records target.field i j) : TargetItem _ _ _ _ _ _ (exactItem target i j)
  | normalized (reason : DuplicateReasonCode) (hreason : target.normalizedReason = some reason)
      (h : DiffersAt toLowerCase records target i j) (hbefore : OccursBefore records target.field i j) :
      TargetItem _ _ _ _ _ _ (normalizedItem normalizedAsExact target reason i j)

/-- A target says nothing of a pair of records. -/
def Quiet (toLowerCase : String → String) (records : List (ImportEmployeeRecord ν)) (target : IdentityTarget)
    (i j : Nat) : Prop :=
  ¬LinkedAt records target.field i j ∧
    ¬(DiffersAt toLowerCase records target i j ∧ OccursBefore records target.field i j)

/-- The evidence of a target, as the loop over the targets gives it. -/
def targetEvidence (toLowerCase : String → String) (normalizedAsExact : Bool) (records : List (ImportEmployeeRecord ν))
    (target : IdentityTarget) : List DuplicateMatchEvidence :=
  exactEvidence records target ++
    match target.normalizedReason with
    | none => []
    | some reason => normalizedEvidence records toLowerCase normalizedAsExact target.field reason

theorem find?_targetEvidence :
    (targetEvidence toLowerCase normalizedAsExact records target).find? (isFor i j) = some e ↔
      TargetItem toLowerCase normalizedAsExact records target i j e := by
  rw [targetEvidence, List.find?_append, Option.or_eq_some_iff, find?_isFor_iff fun e => eq_exactItem,
    find?_isFor_eq_none, edge_exactEvidence_iff]
  cases hreason : target.normalizedReason with
  | none =>
    constructor
    · rintro (⟨h, rfl⟩ | ⟨-, h⟩)
      · exact .exact h
      · cases h
    · rintro (h | ⟨reason, hsome, h, hbefore⟩)
      · exact .inl ⟨h, rfl⟩
      · rw [hreason] at hsome
        cases hsome
  | some reason =>
    simp only [find?_isFor_iff fun e => eq_normalizedItem, edge_normalizedEvidence_iff]
    have hdiffers : DiffersAt toLowerCase records target i j ↔ rawAt records target.field i ≠ rawAt records target.field j ∧
        ∃ s, NormalizedAt toLowerCase records target.field i s ∧ NormalizedAt toLowerCase records target.field j s := by
      rw [DiffersAt, hreason]
      simp
    constructor
    · rintro (⟨h, rfl⟩ | ⟨-, ⟨hne, hs, hbefore⟩, rfl⟩)
      · exact .exact h
      · exact .normalized reason hreason (hdiffers.mpr ⟨hne, hs⟩) hbefore
    · rintro (h | ⟨reason', hsome, h, hbefore⟩)
      · exact .inl ⟨h, rfl⟩
      · rw [hreason] at hsome
        cases hsome
        obtain ⟨hne, hs⟩ := hdiffers.mp h
        exact .inr ⟨fun hlinked => hlinked.not_differsAt h, ⟨hne, hs, hbefore⟩, rfl⟩

theorem find?_targetEvidence_eq_none :
    (targetEvidence toLowerCase normalizedAsExact records target).find? (isFor i j) = none ↔
      Quiet toLowerCase records target i j := by
  rw [← Option.not_isSome_iff_eq_none, Option.isSome_iff_exists]
  simp only [find?_targetEvidence]
  constructor
  · intro h
    refine ⟨fun hlinked => h ⟨_, .exact hlinked⟩, fun ⟨hd, hbefore⟩ => ?_⟩
    obtain ⟨reason, hreason⟩ := Option.isSome_iff_exists.mp hd.1
    exact h ⟨_, .normalized reason hreason hd hbefore⟩
  · rintro hquiet ⟨e, h | ⟨reason, hreason, h, hbefore⟩⟩
    · exact hquiet.1 h
    · exact hquiet.2 ⟨h, hbefore⟩

end Items

section Reported

variable [LE ν] [DecidableLE ν] [NatCast ν] (rt : Runtime ν) (records : List (ImportEmployeeRecord ν))
  (options : DuplicateClusterOptions ν)

/-- `options.treatNormalizedAsExact ?? false`. -/
def asExact (options : DuplicateClusterOptions ν) : Bool := options.treatNormalizedAsExact.getD false

/-- The first item that the sink receives for two records. -/
inductive Reported (i j : Nat) (e : DuplicateMatchEvidence) : Prop
  | target (before after : List IdentityTarget) (target : IdentityTarget)
      (hsplit : identityTargets = before ++ target :: after)
      (hquiet : ∀ t ∈ before, Quiet rt.toLowerCase records t i j)
      (h : TargetItem rt.toLowerCase (asExact options) records target i j e)
  | name (hquiet : ∀ t ∈ identityTargets, Quiet rt.toLowerCase records t i j) (hij : i < j)
      (h : SimilarNames rt records options i j) (heq : e = nameItem rt records i j)

variable {rt records options} {i j : Nat} {e : DuplicateMatchEvidence}

theorem eq_nameItem (he : e ∈ collectFuzzyNameEvidence rt records (fuzzyThreshold options))
    (hfor : isFor i j e = true) : e = nameItem rt records i j := by
  obtain ⟨p, -, he⟩ := List.mem_filterMap.mp he
  split at he
  · cases he
    obtain ⟨rfl, rfl⟩ := isFor_iff.mp hfor
    rfl
  · cases he

theorem find?_collectEvidence :
    (collectEvidence rt records options).find? (isFor i j) = some e ↔ Reported rt records options i j e := by
  have hidentity : collectIdentityEvidence records rt.toLowerCase (options.treatNormalizedAsExact.getD false) =
      identityTargets.flatMap (targetEvidence rt.toLowerCase (asExact options) records) := rfl
  rw [collectEvidence, hidentity, List.find?_append, Option.or_eq_some_iff, List.find?_flatMap,
    List.findSome?_eq_some_iff, List.findSome?_eq_none_iff, find?_isFor_iff fun e => eq_nameItem, edge_fuzzyEvidence]
  simp only [find?_targetEvidence, find?_targetEvidence_eq_none]
  constructor
  · rintro (⟨before, target, after, hsplit, h, hquiet⟩ | ⟨hquiet, ⟨hij, h⟩, heq⟩)
    · exact .target before after target hsplit hquiet h
    · exact .name hquiet hij h heq
  · rintro (⟨before, after, target, hsplit, hquiet, h⟩ | ⟨hquiet, hij, h, heq⟩)
    · exact .inl ⟨before, target, after, hsplit, h, hquiet⟩
    · exact .inr ⟨hquiet, ⟨hij, h⟩, heq⟩

variable (rt records options) in
/-- The items that the sink keeps. -/
def keptEvidence : List DuplicateMatchEvidence :=
  firsts (fun e => (e.leftIndex, e.rightIndex)) [] (collectEvidence rt records options)

theorem mem_keptEvidence_iff :
    e ∈ keptEvidence rt records options ↔ Reported rt records options e.leftIndex e.rightIndex e := by
  rw [keptEvidence, mem_firsts_iff_find? List.not_mem_nil, ← find?_collectEvidence]
  rfl

theorem Reported.isFor (h : Reported rt records options i j e) : e.leftIndex = i ∧ e.rightIndex = j :=
  isFor_iff.mp (List.find?_some (find?_collectEvidence.mpr h))

theorem Reported.mem (h : Reported rt records options i j e) : e ∈ keptEvidence rt records options := by
  obtain ⟨rfl, rfl⟩ := h.isFor
  exact mem_keptEvidence_iff.mpr h

/-- A pair of which some target says something is reported. -/
theorem exists_reported {target : IdentityTarget} (ht : target ∈ identityTargets)
    (h : ¬Quiet rt.toLowerCase records target i j) : ∃ e, Reported rt records options i j e := by
  have hsome : ((collectEvidence rt records options).find? (isFor i j)).isSome := by
    rw [Option.isSome_iff_ne_none]
    intro hnone
    have hedge := find?_isFor_eq_none.mp hnone
    refine h ((@find?_targetEvidence_eq_none _ _ _ _ _ _ (asExact options)).mp ?_)
    rw [find?_isFor_eq_none]
    rintro ⟨e, he, hfor⟩
    exact hedge ⟨e, List.mem_append_left _ (List.mem_flatMap.mpr ⟨target, ht, he⟩), hfor⟩
  obtain ⟨e, he⟩ := Option.isSome_iff_exists.mp hsome
  exact ⟨e, find?_collectEvidence.mp he⟩

/-! ## Sound evidence -/

variable (rt records options)

/-- The confidence of each signal of which two records, the first before the
second, give it. -/
inductive Signal (i j : Nat) : DuplicateConfidence → Prop
  | exact (field : DuplicateMatchField) (hf : field ∈ identityFields) (h : SameText records field i j) : Signal i j .exact
  | normalized (field : DuplicateMatchField) (hf : field ∈ normalizedFields) (s : String)
      (hi : NormalizedAt rt.toLowerCase records field i s) (hj : NormalizedAt rt.toLowerCase records field j s) :
      Signal i j (normalizedConfidence (asExact options))
  | name (h : SimilarNames rt records options i j) :
      Signal i j (nameEvidence rt (records.getD i {}) (records.getD j {})).1

/-- The items are for the same two records. -/
def SamePair (a b : DuplicateMatchEvidence) : Prop :=
  (a.leftIndex = b.leftIndex ∧ a.rightIndex = b.rightIndex) ∨ (a.leftIndex = b.rightIndex ∧ a.rightIndex = b.leftIndex)

/-- The evidence of a cluster has one item for a pair of records, with the
strongest confidence, and the confidence of the cluster is the greatest of
these. -/
structure SoundEvidence (cluster : DuplicateCluster) : Prop where
  ordered : ∀ e ∈ cluster.evidence, e.leftIndex < e.rightIndex
  one_per_pair : cluster.evidence.Pairwise fun a b => ¬SamePair a b
  strongest : ∀ e ∈ cluster.evidence, Signal rt records options e.leftIndex e.rightIndex e.confidence ∧
    ∀ confidence, Signal rt records options e.leftIndex e.rightIndex confidence → confidence.rank ≤ e.confidence.rank
  confidence : (∃ e ∈ cluster.evidence, e.confidence = cluster.confidence) ∧
    ∀ e ∈ cluster.evidence, e.confidence.rank ≤ cluster.confidence.rank

/-- The first target of which the records agree in any way gives exact
evidence of them. -/
def ExactFirst (i j : Nat) : Prop :=
  ∃ before target after, identityTargets = before ++ target :: after ∧
    (∀ t ∈ before, ¬LinkedAt records t.field i j ∧ ¬DiffersAt rt.toLowerCase records t i j) ∧
    (LinkedAt records target.field i j ∨ asExact options = true ∧ DiffersAt rt.toLowerCase records target i j)

/-- No target and no names give evidence of the records. -/
def Unreported (i j : Nat) : Prop :=
  (∀ t ∈ identityTargets, ¬LinkedAt records t.field i j ∧ ¬DiffersAt rt.toLowerCase records t i j) ∧
    ¬SimilarNames rt records options i j

/-- Of two records, the text of the first occurs first wherever they are only
normalized alike; and if they have the same text in a field, what is reported
first is exact, if anything is. -/
structure SoundPair (i j : Nat) : Prop where
  in_order : ∀ target ∈ identityTargets, DiffersAt rt.toLowerCase records target i j →
    OccursBefore records target.field i j
  exact_first : (∃ target ∈ identityTargets, SameText records target.field i j) →
    ExactFirst rt records options i j ∨ Unreported rt records options i j

variable {rt records options}

theorem rank_le_exact (confidence : DuplicateConfidence) : confidence.rank ≤ DuplicateConfidence.exact.rank := by
  cases confidence <;> decide

theorem eq_exact_of_rank_le {confidence : DuplicateConfidence}
    (h : DuplicateConfidence.exact.rank ≤ confidence.rank) : confidence = .exact := by
  cases confidence with
  | exact => rfl
  | _ => exact absurd h (by decide)

omit [LE ν] [DecidableLE ν] [NatCast ν] in
/-- Names are never exact evidence. -/
theorem nameEvidence_ne_exact (left right : ImportEmployeeRecord ν) : (nameEvidence rt left right).1 ≠ .exact := by
  unfold nameEvidence
  dsimp only
  split
  · nofun
  · split
    · nofun
    · split <;> nofun

theorem eq_exact_of_normalizedConfidence {b : Bool} (h : normalizedConfidence b = .exact) : b = true := by
  cases b with
  | false => cases h
  | true => rfl

/-- The first element of a list of which something holds is unique. -/
theorem eq_of_split {α : Type} {P : α → Prop} {a a' : α} : ∀ {before before' after after' : List α},
    before ++ a :: after = before' ++ a' :: after' → P a → P a' → (∀ x ∈ before, ¬P x) → (∀ x ∈ before', ¬P x) → a = a'
  | [], [], _, _, h, _, _, _, _ => (List.cons.inj h).1
  | [], b' :: before', _, _, h, ha, _, _, hnot' => by
    rw [(List.cons.inj h).1] at ha
    exact absurd ha (hnot' b' List.mem_cons_self)
  | b :: before, [], _, _, h, _, ha', hnot, _ => by
    rw [← (List.cons.inj h).1] at ha'
    exact absurd ha' (hnot b List.mem_cons_self)
  | b :: before, b' :: before', _, _, h, ha, ha', hnot, hnot' =>
    eq_of_split (List.cons.inj h).2 ha ha' (fun x hx => hnot x (List.mem_cons_of_mem _ hx))
      fun x hx => hnot' x (List.mem_cons_of_mem _ hx)

/-- A list has a first element of which something holds, or it holds of none. -/
theorem exists_split {α : Type} (P : α → Prop) : ∀ l : List α,
    (∃ before a after, l = before ++ a :: after ∧ (∀ x ∈ before, ¬P x) ∧ P a) ∨ ∀ x ∈ l, ¬P x
  | [] => .inr nofun
  | a :: l => by
    by_cases ha : P a
    · exact .inl ⟨[], a, l, rfl, nofun, ha⟩
    · refine (exists_split P l).imp ?_ fun h => List.forall_mem_cons.mpr ⟨ha, h⟩
      rintro ⟨before, b, after, rfl, hnot, hb⟩
      exact ⟨a :: before, b, after, rfl, List.forall_mem_cons.mpr ⟨ha, hnot⟩, hb⟩

/-! ## Pairs with sound evidence -/

/-- A pair whose evidence is in order and strongest is sound. -/
theorem soundPair_of_reported (hij : i < j) (hback : ¬∃ e, Reported rt records options j i e)
    (hstrong : ∀ e, Reported rt records options i j e → ∀ confidence, Signal rt records options i j confidence →
      confidence.rank ≤ e.confidence.rank) : SoundPair rt records options i j := by
  have horder : ∀ target ∈ identityTargets, DiffersAt rt.toLowerCase records target i j →
      OccursBefore records target.field i j := by
    intro target ht hdiffers
    refine hdiffers.occursBefore.resolve_right fun hbefore => hback ?_
    exact exists_reported ht fun hquiet => hquiet.2 ⟨hdiffers.symm, hbefore⟩
  refine ⟨horder, ?_⟩
  rintro ⟨same, hsame, htext⟩
  have hexact : Signal rt records options i j .exact := .exact same.field (target_fields same hsame).1 htext
  rcases exists_split (fun t => LinkedAt records t.field i j ∨ DiffersAt rt.toLowerCase records t i j)
    identityTargets with ⟨before, target, after, hsplit, hnot, htarget⟩ | hnone
  · have hnot' : ∀ t ∈ before, ¬LinkedAt records t.field i j ∧ ¬DiffersAt rt.toLowerCase records t i j := fun t ht =>
      not_or.mp (hnot t ht)
    refine .inl ⟨before, target, after, hsplit, hnot', htarget.imp_right fun hdiffers => ⟨?_, hdiffers⟩⟩
    have hmem : target ∈ identityTargets := by rw [hsplit]; simp
    obtain ⟨reason, hreason⟩ := Option.isSome_iff_exists.mp hdiffers.1
    have hitem : Reported rt records options i j (normalizedItem (asExact options) target reason i j) :=
      .target before after target hsplit (fun t ht => ⟨(hnot' t ht).1, fun h => (hnot' t ht).2 h.1⟩)
        (.normalized reason hreason hdiffers (horder target hmem hdiffers))
    exact eq_exact_of_normalizedConfidence (eq_exact_of_rank_le (hstrong _ hitem _ hexact))
  · have hnone' : ∀ t ∈ identityTargets, ¬LinkedAt records t.field i j ∧ ¬DiffersAt rt.toLowerCase records t i j :=
      fun t ht => not_or.mp (hnone t ht)
    refine .inr ⟨hnone', fun hsimilar => ?_⟩
    have hitem : Reported rt records options i j (nameItem rt records i j) :=
      .name (fun t ht => ⟨(hnone' t ht).1, fun h => (hnone' t ht).2 h.1⟩) hij hsimilar rfl
    exact nameEvidence_ne_exact _ _ (eq_exact_of_rank_le (hstrong _ hitem _ hexact))

/-- Of a sound pair, a target is quiet only where the records do not agree. -/
theorem SoundPair.of_quiet (h : SoundPair rt records options i j) {t : IdentityTarget} (ht : t ∈ identityTargets)
    (hquiet : Quiet rt.toLowerCase records t i j) :
    ¬LinkedAt records t.field i j ∧ ¬DiffersAt rt.toLowerCase records t i j :=
  ⟨hquiet.1, fun hdiffers => hquiet.2 ⟨hdiffers, h.in_order t ht hdiffers⟩⟩

omit [LE ν] [DecidableLE ν] [NatCast ν] in
/-- A signal of a normalized field is one of the same text, or the records
differ in the field. -/
theorem sameText_or_differsAt {field : DuplicateMatchField} (hf : field ∈ normalizedFields) {s : String}
    (hi : NormalizedAt rt.toLowerCase records field i s) (hj : NormalizedAt rt.toLowerCase records field j s) :
    ∃ target ∈ identityTargets, SameText records target.field i j ∨ DiffersAt rt.toLowerCase records target i j := by
  obtain ⟨target, ht, rfl, hsome⟩ := exists_normalizedTarget field hf
  refine ⟨target, ht, ?_⟩
  by_cases hsame : rawAt records target.field i = rawAt records target.field j
  · exact .inl ⟨hi.1, hsame⟩
  · exact .inr ⟨hsome, hsame, s, hi, hj⟩

/-- Where a sound pair has the same text in some field, but the first target that
reports it does so by normalized texts, these count as exact. -/
theorem SoundPair.asExact_of_first (h : SoundPair rt records options i j) {before after : List IdentityTarget}
    {target : IdentityTarget} (hsplit : identityTargets = before ++ target :: after)
    (hquiet : ∀ t ∈ before, Quiet rt.toLowerCase records t i j)
    (hdiffers : DiffersAt rt.toLowerCase records target i j)
    (hsame : ∃ same ∈ identityTargets, SameText records same.field i j) : asExact options = true := by
  have hmem : target ∈ identityTargets := by rw [hsplit]; simp
  have hbefore : ∀ t ∈ before, ¬(LinkedAt records t.field i j ∨ DiffersAt rt.toLowerCase records t i j) := by
    intro t ht
    have ht' : t ∈ identityTargets := by
      rw [hsplit]
      exact List.mem_append_left _ ht
    exact not_or.mpr (h.of_quiet ht' (hquiet t ht))
  rcases h.exact_first hsame with ⟨before', first, after', hsplit', hnot, hfirst⟩ | hnone
  · have heq : target = first :=
      eq_of_split (hsplit.symm.trans hsplit') (.inr hdiffers) (hfirst.imp_right And.right) hbefore
        fun t ht => not_or.mpr (hnot t ht)
    subst heq
    rcases hfirst with hlinked | ⟨hexact, -⟩
    · exact absurd hdiffers hlinked.not_differsAt
    · exact hexact
  · exact absurd hdiffers (hnone.1 target hmem).2

/-- A sound pair of which only the names say something has the same text in no
field. -/
theorem SoundPair.not_sameText_of_similar (h : SoundPair rt records options i j)
    (hnone : ∀ t ∈ identityTargets, ¬LinkedAt records t.field i j ∧ ¬DiffersAt rt.toLowerCase records t i j)
    (hsimilar : SimilarNames rt records options i j) : ∀ t ∈ identityTargets, ¬SameText records t.field i j := by
  intro same hsame htext
  rcases h.exact_first ⟨same, hsame, htext⟩ with ⟨before, first, after, hsplit, -, hfirst⟩ | hunreported
  · have hmem : first ∈ identityTargets := by rw [hsplit]; simp
    rcases hfirst with hlinked | ⟨-, hdiffers⟩
    · exact (hnone first hmem).1 hlinked
    · exact (hnone first hmem).2 hdiffers
  · exact hunreported.2 hsimilar

omit [LE ν] [DecidableLE ν] [NatCast ν] in
/-- Names are no stronger than normalized texts. -/
theorem rank_nameEvidence_le (left right : ImportEmployeeRecord ν) (b : Bool) :
    (nameEvidence rt left right).1.rank ≤ (normalizedConfidence b).rank := by
  have hhigh : DuplicateConfidence.high.rank ≤ (normalizedConfidence b).rank := by
    cases b <;> decide
  refine le_trans ?_ hhigh
  cases hname : (nameEvidence rt left right).1 with
  | exact => exact absurd hname (nameEvidence_ne_exact left right)
  | _ => decide

/-- What is reported of a sound pair is the strongest signal. -/
theorem SoundPair.strongest (h : SoundPair rt records options i j) (he : Reported rt records options i j e) :
    Signal rt records options i j e.confidence ∧
      ∀ confidence, Signal rt records options i j confidence → confidence.rank ≤ e.confidence.rank := by
  cases he with
  | target before after target hsplit hquiet hitem =>
    have hmem : target ∈ identityTargets := by rw [hsplit]; simp
    cases hitem with
    | exact hlinked =>
      refine ⟨.exact target.field (target_fields target hmem).1 hlinked.1, fun confidence _ => ?_⟩
      exact rank_le_exact confidence
    | normalized reason hreason hdiffers hbefore =>
      obtain ⟨-, -, s, hi, hj⟩ := id hdiffers
      refine ⟨.normalized target.field ((target_fields target hmem).2 hdiffers.1) s hi hj, fun confidence hsignal => ?_⟩
      cases hsignal with
      | exact field hf hsame =>
        obtain ⟨same, hsame', rfl⟩ := exists_target field hf
        rw [normalizedItem, h.asExact_of_first hsplit hquiet hdiffers ⟨same, hsame', hsame⟩]
        exact le_rfl
      | normalized field hf s hi hj => exact le_rfl
      | name hsimilar => exact rank_nameEvidence_le _ _ _
  | name hquiet hij hsimilar heq =>
    subst heq
    have hnone : ∀ t ∈ identityTargets, ¬LinkedAt records t.field i j ∧ ¬DiffersAt rt.toLowerCase records t i j :=
      fun t ht => h.of_quiet ht (hquiet t ht)
    have hdiffer := h.not_sameText_of_similar hnone hsimilar
    refine ⟨.name hsimilar, fun confidence hsignal => ?_⟩
    cases hsignal with
    | exact field hf hsame =>
      obtain ⟨same, hsame', rfl⟩ := exists_target field hf
      exact absurd hsame (hdiffer same hsame')
    | normalized field hf s hi hj =>
      obtain ⟨target, ht, hsame | hdiffers⟩ := sameText_or_differsAt hf hi hj
      · exact absurd hsame (hdiffer target ht)
      · exact absurd hdiffers (hnone target ht).2
    | name => exact le_rfl

/-- Of two records that are reported, where the pair is sound the other way
round, the first comes first. -/
theorem Reported.lt (he : Reported rt records options i j e) (h : j < i → SoundPair rt records options j i) : i < j := by
  cases he with
  | target before after target hsplit hquiet hitem =>
    cases hitem with
    | exact hlinked => exact hlinked.2.1
    | normalized reason hreason hdiffers hbefore =>
      have hmem : target ∈ identityTargets := by rw [hsplit]; simp
      have hne : i ≠ j := fun heq => hdiffers.2.1 (heq ▸ rfl)
      refine lt_of_le_of_ne (not_lt.mp fun hji => ?_) hne
      exact hbefore.asymm ((h hji).in_order target hmem hdiffers.symm)
  | name hquiet hij hsimilar heq => exact hij

end Reported

end ZkPayroll.Import
