import ZkPayroll.Import.ImportDuplicateClusterDetector

/-!
# What the evidence connects, and the clusters of it

The pieces of evidence connect the same records as the links between all records
that share a text of a field, share it once it is normalized, or have similar
names (`connected_iff`), although records of one text are only linked one after
the other.

The clusters are the components of the links between records that are large
enough (`clusters_are_components`). The search for the root of each record
groups the records by the components, and sorting the groups by their first
member orders them.
-/

namespace ZkPayroll.Import

open Framework Relation

variable {ν : Type}

/-! ## Pairs -/

section Pairs

variable {α : Type}

theorem mem_pairs_of_pairwise {R : α → α → Prop} {a b : α} : ∀ {l : List α}, l.Pairwise R → (a, b) ∈ pairs l →
    a ∈ l ∧ b ∈ l ∧ R a b
  | c :: l, hl, h => by
    obtain ⟨hc, hl⟩ := List.pairwise_cons.mp hl
    rcases List.mem_append.mp h with h | h
    · obtain ⟨d, hd, heq⟩ := List.mem_map.mp h
      cases heq
      exact ⟨List.mem_cons_self, List.mem_cons_of_mem _ hd, hc b hd⟩
    · obtain ⟨ha, hb, hr⟩ := mem_pairs_of_pairwise hl h
      exact ⟨List.mem_cons_of_mem _ ha, List.mem_cons_of_mem _ hb, hr⟩

/-- Of two elements of a list one comes first. -/
theorem mem_pairs {a b : α} (hab : a ≠ b) : ∀ {l : List α}, a ∈ l → b ∈ l → (a, b) ∈ pairs l ∨ (b, a) ∈ pairs l
  | c :: l, ha, hb => by
    rcases List.mem_cons.mp ha with rfl | ha'
    · have hb' : b ∈ l := (List.mem_cons.mp hb).resolve_left (Ne.symm hab)
      exact .inl (List.mem_append_left _ (List.mem_map_of_mem hb'))
    · rcases List.mem_cons.mp hb with rfl | hb'
      · exact .inr (List.mem_append_left _ (List.mem_map_of_mem ha'))
      · exact (mem_pairs hab ha' hb').imp (List.mem_append_right _) (List.mem_append_right _)

theorem mem_pairs_range {n a b : Nat} : (a, b) ∈ pairs (List.range n) ↔ a < b ∧ b < n := by
  constructor
  · intro h
    obtain ⟨-, hb, hab⟩ := mem_pairs_of_pairwise List.pairwise_lt_range h
    exact ⟨hab, List.mem_range.mp hb⟩
  · intro h
    rcases mem_pairs h.1.ne (List.mem_range.mpr (h.1.trans h.2)) (List.mem_range.mpr h.2) with h' | h'
    · exact h'
    · exact absurd (mem_pairs_of_pairwise List.pairwise_lt_range h').2.2 h.1.asymm

end Pairs

/-! ## Links -/

/-- A piece of evidence is for the two records. -/
def Edge (evidence : List DuplicateMatchEvidence) (i j : Nat) : Prop :=
  ∃ e ∈ evidence, e.leftIndex = i ∧ e.rightIndex = j

theorem Edge.mono {evidence evidence' : List DuplicateMatchEvidence} (h : evidence ⊆ evidence') {i j : Nat}
    (hij : EqvGen (Edge evidence) i j) : EqvGen (Edge evidence') i j :=
  hij.mono fun _ _ he => he.imp fun _ he => ⟨h he.1, he.2⟩

/-- The fields by which records are identified, and those of them that are
compared once they are normalized. -/
def identityFields : List DuplicateMatchField := [.employeeId, .walletAddress, .emailHash, .externalId]

/-- The fields that are compared in normal form. -/
def normalizedFields : List DuplicateMatchField := [.employeeId, .walletAddress, .externalId]

section Texts

variable {records : List (ImportEmployeeRecord ν)} {field : DuplicateMatchField} {i j : Nat}

theorem lt_of_fieldAt {value : String} (h : fieldAt records field i = some value) : i < records.length := by
  rw [fieldAt, Option.bind_eq_some_iff] at h
  obtain ⟨r, hr, -⟩ := h
  exact (List.getElem?_eq_some_iff.mp hr).1

theorem lt_of_rawAt (h : rawAt records field i ≠ "") : i < records.length := by
  cases hf : fieldAt records field i with
  | none =>
    rw [rawAt, hf] at h
    exact absurd rfl h
  | some value => exact lt_of_fieldAt hf

/-! ## Records with the same text -/

variable {g : String × List Nat}

theorem mem_rawGroups (hg : g ∈ rawGroups records field) :
    g.1 ≠ "" ∧ ∀ k, k ∈ g.2 ↔ rawAt records field k = g.1 := by
  obtain ⟨k, hk, hraw⟩ := (mem_groupBy.mp hg).1
  have hne : g.1 ≠ "" := by
    rw [← hraw]
    exact of_decide_eq_true (List.mem_filter.mp hk).2
  refine ⟨hne, fun k => (mem_group hg).trans ⟨?_, fun h => ?_⟩⟩
  · intro h
    obtain ⟨x, -, hx, rfl⟩ := h
    exact hx
  · have hk : rawAt records field k ≠ "" := by
      rw [h]
      exact hne
    exact ⟨k, List.mem_filter.mpr ⟨List.mem_range.mpr (lt_of_rawAt hk), decide_eq_true hk⟩, h, rfl⟩

theorem exists_rawGroup (h : rawAt records field i ≠ "") :
    ∃ g ∈ rawGroups records field, g.1 = rawAt records field i := by
  have hi : i ∈ (List.range records.length).filter fun k => rawAt records field k ≠ "" :=
    List.mem_filter.mpr ⟨List.mem_range.mpr (lt_of_rawAt h), decide_eq_true h⟩
  exact exists_mem_groupBy hi

variable {target : IdentityTarget}

theorem edge_exactEvidence (h : Edge (exactEvidence records target) i j) :
    rawAt records target.field i ≠ "" ∧ rawAt records target.field i = rawAt records target.field j := by
  obtain ⟨e, he, rfl, rfl⟩ := h
  obtain ⟨g, hg, he⟩ := List.mem_flatMap.mp he
  obtain ⟨p, hp, rfl⟩ := List.mem_map.mp he
  obtain ⟨hne, hmem⟩ := mem_rawGroups hg
  obtain ⟨h₁, h₂⟩ := mem_of_mem_consecutive hp
  rw [(hmem p.1).mp h₁, (hmem p.2).mp h₂]
  exact ⟨hne, rfl⟩

/-- Records of one text are linked in a row. -/
theorem exactEvidence_connects (hi : rawAt records target.field i ≠ "")
    (h : rawAt records target.field i = rawAt records target.field j) :
    EqvGen (Edge (exactEvidence records target)) i j := by
  obtain ⟨g, hg, hraw⟩ := exists_rawGroup hi
  have hmem := (mem_rawGroups hg).2
  refine (eqvGen_consecutive ((hmem i).mpr hraw.symm) ((hmem j).mpr (hraw ▸ h.symm))).mono fun a b hab => ?_
  exact ⟨_, List.mem_flatMap.mpr ⟨g, hg, List.mem_map_of_mem hab⟩, rfl, rfl⟩

/-! ## Records with texts that are normalized alike -/

variable {toLowerCase : String → String}

/-- The normalized text of the record's field. -/
def NormalizedAt (toLowerCase : String → String) (records : List (ImportEmployeeRecord ν))
    (field : DuplicateMatchField) (i : Nat) (s : String) : Prop :=
  rawAt records field i ≠ "" ∧ normalizeIdentifier toLowerCase (some (rawAt records field i)) = some s

variable {s : String}

theorem mem_withNormalized :
    (s, i) ∈ withNormalized toLowerCase g ↔ i ∈ g.2 ∧ normalizeIdentifier toLowerCase (some g.1) = some s := by
  unfold withNormalized
  split
  · rename_i h
    simp [h]
  · rename_i t h
    simp [h, and_comm, eq_comm]

theorem mem_normalizedIndices :
    (s, i) ∈ normalizedIndices records toLowerCase field ↔ NormalizedAt toLowerCase records field i s := by
  rw [normalizedIndices, List.mem_flatMap]
  simp only [mem_withNormalized]
  constructor
  · intro h
    obtain ⟨g, hg, hi, hs⟩ := h
    obtain ⟨hne, hmem⟩ := mem_rawGroups hg
    rw [NormalizedAt, (hmem i).mp hi]
    exact ⟨hne, hs⟩
  · intro h
    obtain ⟨g, hg, hraw⟩ := exists_rawGroup h.1
    refine ⟨g, hg, ((mem_rawGroups hg).2 i).mpr hraw.symm, ?_⟩
    rw [hraw]
    exact h.2

theorem mem_sortedNormalizedGroups (hg : g ∈ sortedNormalizedGroups records toLowerCase field) (k : Nat) :
    k ∈ g.2 ↔ NormalizedAt toLowerCase records field k g.1 := by
  rw [sortedNormalizedGroups, List.mem_insertionSort] at hg
  rw [mem_group hg, ← mem_normalizedIndices]
  constructor
  · intro h
    obtain ⟨x, hx, hfst, rfl⟩ := h
    rw [← hfst]
    exact hx
  · intro h
    exact ⟨(g.1, k), h, rfl, rfl⟩

theorem exists_normalizedGroup (h : NormalizedAt toLowerCase records field i s) :
    ∃ g ∈ sortedNormalizedGroups records toLowerCase field, g.1 = s := by
  have hgroup : ∃ g ∈ groupBy Prod.fst Prod.snd (normalizedIndices records toLowerCase field), g.1 = s :=
    exists_mem_groupBy (mem_normalizedIndices.mpr h)
  obtain ⟨g, hg, hfst⟩ := hgroup
  exact ⟨g, (List.mem_insertionSort _).mpr hg, hfst⟩

variable {normalizedAsExact : Bool} {reason : DuplicateReasonCode}

theorem edge_normalizedEvidence
    (h : Edge (normalizedEvidence records toLowerCase normalizedAsExact field reason) i j) :
    ∃ s, NormalizedAt toLowerCase records field i s ∧ NormalizedAt toLowerCase records field j s := by
  obtain ⟨e, he, rfl, rfl⟩ := h
  obtain ⟨g, hg, he⟩ := List.mem_flatMap.mp he
  obtain ⟨p, hp, he⟩ := List.mem_filterMap.mp he
  have hmem := mem_sortedNormalizedGroups hg
  obtain ⟨h₁, h₂, -⟩ := mem_pairs_of_pairwise (List.pairwise_of_forall (R := fun _ _ => True) fun _ _ => trivial) hp
  split at he
  · cases he
  · cases he
    exact ⟨g.1, (hmem p.1).mp h₁, (hmem p.2).mp h₂⟩

variable (normalizedAsExact reason) in
/-- Records with one normalized text are linked, but where their texts are the
same. -/
theorem normalizedEvidence_connects (hi : NormalizedAt toLowerCase records field i s)
    (hj : NormalizedAt toLowerCase records field j s) (h : rawAt records field i ≠ rawAt records field j) :
    EqvGen (Edge (normalizedEvidence records toLowerCase normalizedAsExact field reason)) i j := by
  obtain ⟨g, hg, rfl⟩ := exists_normalizedGroup hi
  have hmem := mem_sortedNormalizedGroups hg
  have hedge : ∀ a b, (a, b) ∈ pairs g.2 → rawAt records field a ≠ rawAt records field b →
      Edge (normalizedEvidence records toLowerCase normalizedAsExact field reason) a b := by
    intro a b hab hne
    refine ⟨_, List.mem_flatMap.mpr ⟨g, hg, List.mem_filterMap.mpr ⟨(a, b), hab, if_neg hne⟩⟩, rfl, rfl⟩
  have hij : i ≠ j := fun heq => h (heq ▸ rfl)
  rcases mem_pairs hij ((hmem i).mpr hi) ((hmem j).mpr hj) with hp | hp
  · exact .rel _ _ (hedge i j hp h)
  · exact .symm _ _ (.rel _ _ (hedge j i hp h.symm))

end Texts

/-! ## All evidence -/

/-- The fields of the targets. -/
theorem target_fields : ∀ target ∈ identityTargets, target.field ∈ identityFields ∧
    (target.normalizedReason.isSome → target.field ∈ normalizedFields) := by
  decide

theorem exists_target : ∀ field ∈ identityFields, ∃ target ∈ identityTargets, target.field = field := by
  decide

theorem exists_normalizedTarget : ∀ field ∈ normalizedFields,
    ∃ target ∈ identityTargets, target.field = field ∧ target.normalizedReason.isSome := by
  decide

/-- The evidence for a target. -/
theorem mem_collectIdentityEvidence {records : List (ImportEmployeeRecord ν)} {toLowerCase : String → String}
    {normalizedAsExact : Bool} {e : DuplicateMatchEvidence} :
    e ∈ collectIdentityEvidence records toLowerCase normalizedAsExact ↔
      ∃ target ∈ identityTargets, e ∈ exactEvidence records target ∨
        ∃ reason ∈ target.normalizedReason,
          e ∈ normalizedEvidence records toLowerCase normalizedAsExact target.field reason := by
  rw [collectIdentityEvidence, List.mem_flatMap]
  refine exists_congr fun target => and_congr_right fun _ => ?_
  rw [List.mem_append]
  refine or_congr_right ?_
  cases target.normalizedReason with
  | none => simp
  | some reason => simp

section Evidence

variable [LE ν] [DecidableLE ν] [NatCast ν] {rt : Runtime ν} {records : List (ImportEmployeeRecord ν)}
  {options : DuplicateClusterOptions ν} {i j : Nat}

/-- The names of the records are similar. -/
def SimilarNames (rt : Runtime ν) (records : List (ImportEmployeeRecord ν)) (options : DuplicateClusterOptions ν)
    (i j : Nat) : Prop :=
  namesAreSimilar rt.toLowerCase (fieldAt records .name i) (fieldAt records .name j) (fuzzyThreshold options) = true

/-- Two records may be of one person. -/
inductive Linked (rt : Runtime ν) (records : List (ImportEmployeeRecord ν)) (options : DuplicateClusterOptions ν)
    (i j : Nat) : Prop
  | sameText (field : DuplicateMatchField) (hf : field ∈ identityFields) (hne : rawAt records field i ≠ "")
    (h : rawAt records field i = rawAt records field j)
  | sameNormalized (field : DuplicateMatchField) (hf : field ∈ normalizedFields) (s : String)
    (hi : NormalizedAt rt.toLowerCase records field i s) (hj : NormalizedAt rt.toLowerCase records field j s)
  | similarNames (hij : i < j) (h : SimilarNames rt records options i j)

theorem edge_fuzzyEvidence : Edge (collectFuzzyNameEvidence rt records (fuzzyThreshold options)) i j ↔
    i < j ∧ SimilarNames rt records options i j := by
  constructor
  · intro h
    obtain ⟨e, he, rfl, rfl⟩ := h
    obtain ⟨p, hp, he⟩ := List.mem_filterMap.mp he
    split at he
    · rename_i hs
      cases he
      exact ⟨(mem_pairs_range.mp hp).1, hs⟩
    · cases he
  · intro h
    have hj : j < records.length := by
      cases hf : fieldAt records .name j with
      | none =>
        have hs := h.2
        rw [SimilarNames, hf, namesAreSimilar] at hs
        cases normalizeIdentifier rt.toLowerCase (fieldAt records .name i) with
        | none => simp [normalizeIdentifier] at hs
        | some s => simp [normalizeIdentifier] at hs
      | some value => exact lt_of_fieldAt hf
    have hp : (i, j) ∈ pairs (List.range records.length) := mem_pairs_range.mpr ⟨h.1, hj⟩
    exact ⟨_, List.mem_filterMap.mpr ⟨(i, j), hp, if_pos h.2⟩, rfl, rfl⟩

theorem linked_of_edge (h : Edge (collectEvidence rt records options) i j) : Linked rt records options i j := by
  obtain ⟨e, he, hl, hr⟩ := h
  rcases List.mem_append.mp he with he | he
  · obtain ⟨target, ht, he⟩ := mem_collectIdentityEvidence.mp he
    rcases he with he | ⟨reason, hreason, he⟩
    · obtain ⟨hne, heq⟩ := edge_exactEvidence ⟨e, he, hl, hr⟩
      exact .sameText target.field (target_fields target ht).1 hne heq
    · obtain ⟨s, hi, hj⟩ := edge_normalizedEvidence ⟨e, he, hl, hr⟩
      exact .sameNormalized target.field ((target_fields target ht).2 (Option.isSome_of_mem hreason)) s hi hj
  · obtain ⟨hij, hs⟩ := edge_fuzzyEvidence.mp ⟨e, he, hl, hr⟩
    exact .similarNames hij hs

/-- Records of one text are connected, whatever the target. -/
theorem sameText_connects {field : DuplicateMatchField} (hf : field ∈ identityFields)
    (hne : rawAt records field i ≠ "") (h : rawAt records field i = rawAt records field j) :
    EqvGen (Edge (collectEvidence rt records options)) i j := by
  obtain ⟨target, ht, rfl⟩ := exists_target field hf
  refine Edge.mono (fun e he => List.mem_append_left _ ?_) (exactEvidence_connects hne h)
  exact mem_collectIdentityEvidence.mpr ⟨target, ht, .inl he⟩

theorem sameNormalized_connects {field : DuplicateMatchField} (hf : field ∈ normalizedFields) {s : String}
    (hi : NormalizedAt rt.toLowerCase records field i s) (hj : NormalizedAt rt.toLowerCase records field j s) :
    EqvGen (Edge (collectEvidence rt records options)) i j := by
  obtain ⟨target, ht, rfl, hreason⟩ := exists_normalizedTarget field hf
  obtain ⟨reason, hreason⟩ := Option.isSome_iff_exists.mp hreason
  by_cases h : rawAt records target.field i = rawAt records target.field j
  · exact sameText_connects (target_fields target ht).1 hi.1 h
  · refine Edge.mono (fun e he => List.mem_append_left _ ?_)
      (normalizedEvidence_connects (options.treatNormalizedAsExact.getD false) reason hi hj h)
    exact mem_collectIdentityEvidence.mpr ⟨target, ht, .inr ⟨reason, hreason, he⟩⟩

/-- The evidence connects the records that the links connect. -/
theorem connected_iff :
    EqvGen (Edge (collectEvidence rt records options)) i j ↔ EqvGen (Linked rt records options) i j := by
  constructor
  · intro h
    exact h.mono fun _ _ he => linked_of_edge he
  · intro h
    refine EqvGen.eqvGen_le (fun a b hab => ?_) i j h
    cases hab with
    | sameText field hf hne heq => exact sameText_connects hf hne heq
    | sameNormalized field hf s hi hj => exact sameNormalized_connects hf hi hj
    | similarNames hij hs =>
      obtain ⟨e, he, hl, hr⟩ := edge_fuzzyEvidence.mpr ⟨hij, hs⟩
      exact .rel _ _ ⟨e, List.mem_append_right _ he, hl, hr⟩

end Evidence

/-! ## Groups of one root -/

variable (u : UnionFind)

/-- Finding roots on the way does not change the groups. -/
theorem groupsByRoot_eq (indices : List Nat) :
    groupsByRoot u indices = groupBy u.root id indices := by
  have hfold : ∀ (is : List Nat) (s : UnionFind × List (Nat × List Nat)), (∀ j, s.1.root j = u.root j) →
      (is.foldl (fun s i => ((s.1.find i).2, pushToGroup s.2 (s.1.find i).1 i)) s).2 =
        is.foldl (fun m i => pushToGroup m (u.root i) i) s.2 := by
    intro is
    induction is with
    | nil => exact fun s _ => rfl
    | cons i is ih =>
      intro s hs
      rw [List.foldl_cons, List.foldl_cons, ih _ fun j => by rw [UnionFind.root_find, hs]]
      simp only [UnionFind.find_fst, hs]
  exact hfold indices (u, []) fun _ => rfl

/-- The members of the group of `i`, of the first `n` numbers. -/
def membersOf (u : UnionFind) (n i : Nat) : List Nat := (List.range n).filter fun j => u.root j = u.root i

theorem mem_membersOf {u : UnionFind} {n i j : Nat} : j ∈ membersOf u n i ↔ j < n ∧ u.Same j i := by
  rw [membersOf, List.mem_filter, List.mem_range, decide_eq_true_iff, UnionFind.Same]

theorem pairwise_membersOf (n i : Nat) : (membersOf u n i).Pairwise (· < ·) :=
  List.pairwise_lt_range.filter _

variable {members : List Nat} {members : List Nat}

theorem mem_groups {u : UnionFind} {n : Nat} :
    members ∈ (groupsByRoot u (List.range n)).map (·.2) ↔ ∃ i < n, members = membersOf u n i := by
  rw [groupsByRoot_eq, List.mem_map]
  constructor
  · intro h
    obtain ⟨g, hg, rfl⟩ := h
    obtain ⟨⟨i, hi, hroot⟩, hmembers⟩ := mem_groupBy.mp hg
    refine ⟨i, List.mem_range.mp hi, ?_⟩
    rw [hmembers, List.map_id, membersOf, hroot]
  · intro h
    obtain ⟨i, hi, rfl⟩ := h
    refine ⟨(u.root i, membersOf u n i), mem_groupBy.mpr ⟨⟨i, List.mem_range.mpr hi, rfl⟩, ?_⟩, rfl⟩
    rw [List.map_id, membersOf]

theorem disjoint_groups (n : Nat) :
    ((groupsByRoot u (List.range n)).map (·.2)).Pairwise List.Disjoint := by
  rw [groupsByRoot_eq, List.pairwise_map]
  have hkeys : (groupBy u.root id (List.range n)).Pairwise fun f g => f.1 ≠ g.1 :=
    List.pairwise_map.mp (nodup_groupBy (List.range n))
  refine hkeys.imp_of_mem fun {f g} hf hg hne => ?_
  intro i hi hi'
  obtain ⟨x, -, hx, rfl⟩ := (mem_group hf).mp hi
  obtain ⟨y, -, hy, hxy⟩ := (mem_group hg).mp hi'
  rw [id, id] at hxy
  exact hne (by rw [← hx, ← hy, hxy])

/-! ## Pending clusters -/

theorem minIndex_spec (h : members ≠ []) :
    minIndex members ∈ members ∧ ∀ i ∈ members, minIndex members ≤ i := by
  obtain ⟨k, hk⟩ := Option.isSome_iff_exists.mp (List.isSome_min?_iff.mpr h)
  rw [minIndex, hk, Option.getD_some]
  exact List.min?_eq_some_iff.mp hk

/-- The first of ascending members is the least. -/
theorem minIndex_eq_headD (h : members.Pairwise (· < ·)) : minIndex members = members.headD 0 := by
  cases members with
  | nil => rfl
  | cons i members =>
    obtain ⟨hmem, hle⟩ := minIndex_spec (List.cons_ne_nil i members)
    rcases List.mem_cons.mp hmem with heq | hin
    · exact heq
    · have hlt := List.rel_of_pairwise_cons h hin
      exact absurd (hle i List.mem_cons_self) hlt.not_ge

instance : Std.Total fun a b : List Nat => minIndex a ≤ minIndex b := ⟨fun _ _ => le_total _ _⟩

instance : IsTrans (List Nat) fun a b => minIndex a ≤ minIndex b := ⟨fun _ _ _ => le_trans⟩

section Pending

variable [LE ν] [DecidableLE ν] [NatCast ν] {records : List (ImportEmployeeRecord ν)} {u : UnionFind}
  {minSize : JsNumber ν}

variable {members : List Nat} {members : List Nat}

theorem mem_pendingClusters : members ∈ pendingClusters records u minSize ↔
    (∃ i < records.length, members = membersOf u records.length i) ∧
      JsNumber.le minSize (.finite (members.length : ν)) = true := by
  rw [pendingClusters, List.mem_insertionSort, List.mem_filter, mem_groups]

theorem disjoint_pendingClusters : (pendingClusters records u minSize).Pairwise List.Disjoint := by
  refine ((disjoint_groups u records.length).filter _).perm (List.perm_insertionSort _ _).symm fun h => h.symm

theorem ne_nil_of_pending (h : members ∈ pendingClusters records u minSize) : members ≠ [] := by
  obtain ⟨⟨i, hi, rfl⟩, -⟩ := mem_pendingClusters.mp h
  exact List.ne_nil_of_mem (mem_membersOf.mpr ⟨hi, rfl⟩)

theorem pairwise_of_pending (h : members ∈ pendingClusters records u minSize) :
    members.Pairwise (· < ·) := by
  obtain ⟨⟨i, -, rfl⟩, -⟩ := mem_pendingClusters.mp h
  exact pairwise_membersOf u _ i

/-- The clusters are in the order of their first members. -/
theorem pendingClusters_ordered :
    (pendingClusters records u minSize).Pairwise fun a b => a.headD 0 < b.headD 0 := by
  have hsorted : (pendingClusters records u minSize).Pairwise fun a b => minIndex a ≤ minIndex b :=
    List.pairwise_insertionSort _ _
  refine (hsorted.and disjoint_pendingClusters).imp_of_mem fun {a b} ha hb hab => ?_
  obtain ⟨hle, hdisjoint⟩ := hab
  rw [← minIndex_eq_headD (pairwise_of_pending ha), ← minIndex_eq_headD (pairwise_of_pending hb)]
  refine lt_of_le_of_ne hle fun heq => ?_
  have hmem := (minIndex_spec (ne_nil_of_pending ha)).1
  exact hdisjoint hmem (heq ▸ (minIndex_spec (ne_nil_of_pending hb)).1)

/-- The members are in order already when they are sorted. -/
theorem memberIndices_buildClusters (rt : Runtime ν) (evidenceByPair : List DuplicateMatchEvidence) :
    (buildClusters rt records u evidenceByPair minSize).map (·.memberIndices) =
      pendingClusters records u minSize := by
  rw [buildClusters, List.map_map]
  refine (List.map_congr_left (g := Prod.fst) fun f hf => ?_).trans (List.zipIdx_map_fst 0 _)
  have hp := pairwise_of_pending (List.fst_mem_of_mem_zipIdx hf)
  exact (hp.imp fun hlt => hlt.le).insertionSort_eq

end Pending

/-! ## Components -/

/-- The members, in ascending order, are those of the first `n` records that are
connected to one of them. -/
structure IsComponent (linked : Nat → Nat → Prop) (n : Nat) (members : List Nat) : Prop where
  ascending : members.Pairwise (· < ·)
  connected : ∃ i < n, ∀ j, j ∈ members ↔ j < n ∧ EqvGen linked i j

section Detect

variable [LE ν] [DecidableLE ν] [NatCast ν] {rt : Runtime ν} {records : List (ImportEmployeeRecord ν)}
  {options : DuplicateClusterOptions ν}

/-- Two records are in one set when the links connect them. -/
theorem same_iff {i j : Nat} :
    (unionRecords (collectEvidence rt records options)).Same i j ↔ EqvGen (Linked rt records options) i j := by
  have hunion : unionRecords (collectEvidence rt records options) =
      .unionAll ((collectEvidence rt records options).map fun e => (e.leftIndex, e.rightIndex)) := by
    rw [UnionFind.unionAll, List.foldl_map, unionRecords]
  have hedge : (fun x y => (x, y) ∈ (collectEvidence rt records options).map fun e => (e.leftIndex, e.rightIndex)) =
      Edge (collectEvidence rt records options) := by
    funext x y
    simp only [Edge, List.mem_map, Prod.mk.injEq]
  rw [hunion, UnionFind.same_unionAll, ← connected_iff, hedge]

theorem isComponent_iff {members : List Nat} : IsComponent (Linked rt records options) records.length members ↔
    ∃ i < records.length,
      members = membersOf (unionRecords (collectEvidence rt records options)) records.length i := by
  constructor
  · intro h
    obtain ⟨i, hi, hmem⟩ := h.connected
    refine ⟨i, hi, h.ascending.eq_of_mem_iff (pairwise_membersOf _ _ i) fun j => ?_⟩
    rw [hmem, mem_membersOf, same_iff]
    exact and_congr_right fun _ => ⟨.symm i j, .symm j i⟩
  · intro h
    obtain ⟨i, hi, rfl⟩ := h
    refine ⟨pairwise_membersOf _ _ i, i, hi, fun j => ?_⟩
    rw [mem_membersOf, same_iff]
    exact and_congr_right fun _ => ⟨.symm j i, .symm i j⟩

/-- The clusters are the components that are large enough, apart from each other
and in the order of their first members, and their records are counted. -/
theorem clusters_are_components (rt : Runtime ν) (records : List (ImportEmployeeRecord ν))
    (options : DuplicateClusterOptions ν) :
    (∀ members, members ∈ (detectDuplicateClusters rt records options).clusters.map (·.memberIndices) ↔
      IsComponent (Linked rt records options) records.length members ∧
        JsNumber.le (minClusterSize options) (.finite (members.length : ν)) = true) ∧
      (detectDuplicateClusters rt records options).clusters.Pairwise
        (fun a b => a.memberIndices.Disjoint b.memberIndices) ∧
      (detectDuplicateClusters rt records options).clusters.Pairwise
        (fun a b => a.memberIndices.headD 0 < b.memberIndices.headD 0) ∧
      (detectDuplicateClusters rt records options).duplicateRowCount =
        ((detectDuplicateClusters rt records options).clusters.map (·.memberIndices.length)).sum := by
  have hmembers : (detectDuplicateClusters rt records options).clusters.map (·.memberIndices) =
      pendingClusters records (unionRecords (collectEvidence rt records options)) (minClusterSize options) :=
    memberIndices_buildClusters rt _
  have hdisjoint : ((detectDuplicateClusters rt records options).clusters.map (·.memberIndices)).Pairwise
      List.Disjoint := by
    rw [hmembers]
    exact disjoint_pendingClusters
  refine ⟨fun members => ?_, List.pairwise_map.mp hdisjoint, ?_, ?_⟩
  · rw [hmembers, mem_pendingClusters, isComponent_iff]
  · rw [← List.pairwise_map (f := DuplicateCluster.memberIndices) (R := fun a b => a.headD 0 < b.headD 0), hmembers]
    exact pendingClusters_ordered
  · have hnodup : ((detectDuplicateClusters rt records options).clusters.flatMap (·.memberIndices)).Nodup := by
      rw [List.flatMap_def, List.nodup_flatten]
      refine ⟨fun members hm => ?_, hdisjoint⟩
      rw [hmembers] at hm
      exact (pairwise_of_pending hm).imp fun hlt => hlt.ne
    have hcount : (detectDuplicateClusters rt records options).duplicateRowCount =
        ((detectDuplicateClusters rt records options).clusters.flatMap (·.memberIndices)).dedup.length := rfl
    rw [hcount, hnodup.dedup, List.length_flatMap]

end Detect

end ZkPayroll.Import
