import ZkPayroll.Audit.AuditPackage

/-!
# Creating, writing and reading an audit package

`createSelectiveDisclosureAuditPackage` puts together what it is given, with
the commitments that the scope allows, and adds the hash of all of it
(`sealedPackage`), if nothing is wrong with it (`create_eq_ok_iff`).

Reading from the sorted copy of a package gives what reading from the package
gives (`readPackage_sort`), so a package is read back from its text
(`deserialize_serialize`). Its hash is determined by what is written of it
without the hash, and determines it where SHA-256 does not collide
(`calculate_eq_iff`).
-/

namespace ZkPayroll.Audit

open Framework ZkPayroll.Core

variable {ν : Type}

section

/-- JSON-valued metadata. -/
structure Metadata (ν : Type) where
  fields : List (String × Json ν)
  distinct : DistinctKeys (.obj fields)

/-- `CreateAuditPackageInput`. -/
structure CreateAuditPackageInput (ν : Type) where
  packageId : String
  payroll : Typed (readPayroll (ν := ν))
  disclosureScope : Typed (readScope (ν := ν))
  commitments : List (Typed (readCommitment (ν := ν)))
  proofReferences : List (Typed (readProof (ν := ν)))
  verificationKeys : List (Typed (readKey (ν := ν)))
  artifactManifestHash : Option String
  metadata : Option (Metadata ν)

namespace CreateAuditPackageInput

variable (input : CreateAuditPackageInput ν)

def scopedCommitments : List (Typed (readCommitment (ν := ν))) :=
  applyDisclosureScope input.commitments input.disclosureScope.ref

/-- The object `auditPackage`, without its hash. -/
def fields : List (String × Json (JsNumber ν)) :=
  [("schemaVersion", .str "1.0"), ("packageId", .str input.packageId), ("payroll", input.payroll.value),
    ("disclosureScope", input.disclosureScope.value),
    ("commitments", .arr (input.scopedCommitments.map Typed.value)),
    ("proofReferences", .arr (input.proofReferences.map Typed.value)),
    ("verificationKeys", .arr (input.verificationKeys.map Typed.value))] ++
  (input.artifactManifestHash.map fun hash => ("artifactManifestHash", .str hash)).toList ++
  (input.metadata.map fun metadata => ("metadata", loaded (.obj metadata.fields))).toList

/-- The fields with a hash. -/
def withHash (integrityHash : String) : List (String × Json (JsNumber ν)) :=
  input.fields ++ [("integrityHash", .str integrityHash)]

/-- What is read from `auditPackage` with the given hash. -/
def package (integrityHash : String) : SelectiveDisclosureAuditPackage ν where
  schemaVersion := "1.0"
  packageId := input.packageId
  payroll := input.payroll.ref
  disclosureScope := input.disclosureScope.ref
  commitments := input.scopedCommitments.map Typed.ref
  proofReferences := input.proofReferences.map Typed.ref
  verificationKeys := input.verificationKeys.map Typed.ref
  integrityHash := integrityHash

end CreateAuditPackageInput

theorem readAll_values {α : Type} {read : Json (JsNumber ν) → Option α} (parts : List (Typed read)) :
    readAll read (parts.map Typed.value) = some (parts.map Typed.ref) := by
  induction parts with
  | nil => rfl
  | cons part parts ih =>
    rw [List.map_cons, readAll, part.reads, ih]
    rfl

theorem readList_values {α : Type} {read : Json (JsNumber ν) → Option α} (parts : List (Typed read)) :
    readList read (.arr (parts.map Typed.value)) = some (parts.map Typed.ref) := readAll_values parts

theorem distinctKeys_values {α : Type} {read : Json (JsNumber ν) → Option α} (parts : List (Typed read)) :
    DistinctKeys (.arr (parts.map Typed.value)) := by
  rw [DistinctKeys, distinctItems_iff, List.forall_mem_map]
  exact fun part _ => part.distinct

section Build

variable (input : CreateAuditPackageInput ν) (integrityHash : String)

theorem CreateAuditPackageInput.nodup_withHash : ((input.withHash integrityHash).map Prod.fst).Nodup := by
  unfold withHash fields
  cases input.artifactManifestHash <;> cases input.metadata <;>
    simp only [Option.map_none, Option.map_some, Option.toList_none, Option.toList_some, List.append_nil,
      List.cons_append, List.nil_append, List.map_cons, List.map_nil] <;> decide

theorem CreateAuditPackageInput.field_withHash {key : String} {value : Json (JsNumber ν)}
    (h : (key, value) ∈ input.withHash integrityHash) :
    field (.obj (input.withHash integrityHash)) key = some value :=
  (mem_iff_lookup (input.nodup_withHash integrityHash) (key, value)).mp h

theorem CreateAuditPackageInput.readPackage_withHash :
    readPackage (.obj (input.withHash integrityHash)) = some (input.package integrityHash) := by
  have hmem : ∀ {f}, f ∈ input.fields → f ∈ input.withHash integrityHash := fun h => List.mem_append_left _ h
  have hschema : field (.obj (input.withHash integrityHash)) "schemaVersion" = some (.str "1.0") :=
    input.field_withHash _ (hmem (by simp [fields]))
  have hid : field (.obj (input.withHash integrityHash)) "packageId" = some (.str input.packageId) :=
    input.field_withHash _ (hmem (by simp [fields]))
  have hpayroll : field (.obj (input.withHash integrityHash)) "payroll" = some input.payroll.value :=
    input.field_withHash _ (hmem (by simp [fields]))
  have hscope : field (.obj (input.withHash integrityHash)) "disclosureScope" = some input.disclosureScope.value :=
    input.field_withHash _ (hmem (by simp [fields]))
  have hcommitments : field (.obj (input.withHash integrityHash)) "commitments" =
      some (.arr (input.scopedCommitments.map Typed.value)) := input.field_withHash _ (hmem (by simp [fields]))
  have hproofs : field (.obj (input.withHash integrityHash)) "proofReferences" =
      some (.arr (input.proofReferences.map Typed.value)) := input.field_withHash _ (hmem (by simp [fields]))
  have hkeys : field (.obj (input.withHash integrityHash)) "verificationKeys" =
      some (.arr (input.verificationKeys.map Typed.value)) := input.field_withHash _ (hmem (by simp [fields]))
  have hhash : field (.obj (input.withHash integrityHash)) "integrityHash" = some (.str integrityHash) :=
    input.field_withHash _ (by simp [withHash])
  unfold readPackage required
  simp only [hschema, hid, hpayroll, hscope, hcommitments, hproofs, hkeys, hhash, Option.bind_some, asString,
    input.payroll.reads, input.disclosureScope.reads, readList_values]
  rfl

theorem CreateAuditPackageInput.distinct_withHash : DistinctKeys (.obj (input.withHash integrityHash)) := by
  rw [DistinctKeys, distinctFields_iff]
  refine ⟨input.nodup_withHash integrityHash, fun f hf => ?_⟩
  simp only [withHash, fields, List.mem_append, List.mem_cons, List.not_mem_nil, or_false, Option.mem_toList,
    Option.map_eq_some_iff] at hf
  rcases hf with ((((rfl | rfl | rfl | rfl | rfl | rfl | rfl) | ⟨hash, -, rfl⟩) | ⟨metadata, -, rfl⟩) | rfl)
  · trivial
  · trivial
  · exact input.payroll.distinct
  · exact input.disclosureScope.distinct
  · exact distinctKeys_values _
  · exact distinctKeys_values _
  · exact distinctKeys_values _
  · trivial
  · exact distinctKeys_mapAtoms _ metadata.distinct
  · trivial

end Build

variable [NumberFormat ν]

/-- The package that is returned. -/
def sealedPackage (sha256 : String → List UInt8) (input : CreateAuditPackageInput ν) :
    Typed (readPackage (ν := ν)) where
  value := .obj (input.withHash (calculateAuditPackageIntegrityHash sha256 (.obj input.fields)))
  ref := input.package (calculateAuditPackageIntegrityHash sha256 (.obj input.fields))
  reads := input.readPackage_withHash _
  distinct := input.distinct_withHash _

section Create

variable [LE ν] [DecidableLE ν] [Zero ν]

/-- `createSelectiveDisclosureAuditPackage(input)` at time `now`. -/
def createSelectiveDisclosureAuditPackage (sha256 : String → List UInt8) (now : JsNumber ν)
    (input : CreateAuditPackageInput ν) : Except SdkError (Typed (readPackage (ν := ν))) :=
  let errors := validateAuditPackageShape (input.package "") true now
  if errors.length > 0 then
    .error (genericError ("Invalid audit package input: " ++ "; ".intercalate errors))
  else .ok (sealedPackage sha256 input)

theorem create_eq_ok_iff {sha256 : String → List UInt8} {now : JsNumber ν} {input : CreateAuditPackageInput ν}
    {p : Typed (readPackage (ν := ν))} :
    createSelectiveDisclosureAuditPackage sha256 now input = .ok p ↔
      ShapeOk (input.package "") true now ∧ p = sealedPackage sha256 input := by
  have hnone : ¬(validateAuditPackageShape (input.package "") true now).length > 0 ↔
      ShapeOk (input.package "") true now := by
    rw [← validateAuditPackageShape_eq_nil_iff, gt_iff_lt, List.length_pos_iff, not_not]
  unfold createSelectiveDisclosureAuditPackage
  dsimp only
  split
  · rename_i hsome
    exact iff_of_false (by simp) fun h => (hnone.mpr h.1) hsome
  · rename_i hempty
    rw [Except.ok.injEq]
    exact ⟨fun h => ⟨hnone.mp hempty, h.symm⟩, fun h => h.2.symm⟩

end Create

/-- The hash of the package is that of its content. -/
theorem calculate_sealedPackage (sha256 : String → List UInt8) (input : CreateAuditPackageInput ν) :
    calculateAuditPackageIntegrityHash sha256 (sealedPackage sha256 input).value =
      (sealedPackage sha256 input).ref.integrityHash := by
  have herase : ∀ h : String, eraseKey "integrityHash" (input.withHash h) = eraseKey "integrityHash" input.fields := by
    intro h
    simp [eraseKey, CreateAuditPackageInput.withHash]
  simp only [calculateAuditPackageIntegrityHash, sealedPackage, hashable, herase]
  rfl

end

/-! ## Reading from the sorted copy -/

theorem sortForStableJson_arr (items : List (Json (JsNumber ν))) :
    sortForStableJson (.arr items) = .arr (items.map sortForStableJson) := by
  rw [sortForStableJson_eq, rearrange_arr]
  exact congrArg Json.arr (List.map_congr_left fun v _ => (sortForStableJson_eq v).symm)

variable {v : Json (JsNumber ν)}

/-- Reading a property of the copy gives the copy of the property. -/
theorem field_sort (hv : DistinctKeys v) {key : String} (hkey : notProto key = true) :
    field (sortForStableJson v) key = (field v key).map sortForStableJson := by
  cases v with
  | obj fields =>
    rw [DistinctKeys] at hv
    have hvalues : mapValues (rearrange stableOrder) fields = mapValues sortForStableJson fields :=
      mapValues_congr fun f _ => (sortForStableJson_eq f.2).symm
    rw [sortForStableJson_eq, rearrange_obj, hvalues]
    simp only [field]
    rw [lookup_stableOrder (by rw [keys_mapValues]; exact hv.1) hkey, lookup_mapValues]
  | _ => rfl

theorem distinctKeys_of_field {v u : Json (JsNumber ν)} (hv : DistinctKeys v) {key : String}
    (h : field v key = some u) : DistinctKeys u := by
  cases v with
  | obj fields =>
    rw [DistinctKeys, distinctFields_iff] at hv
    exact hv.2 _ (lookup_mem h)
  | _ => cases h

section Readers

variable {α : Type} {read : Json (JsNumber ν) → Option α}

/-- What `read` reads from a value it reads from its sorted copy. -/
def SortStable (read : Json (JsNumber ν) → Option α) : Prop :=
  ∀ u, DistinctKeys u → read (sortForStableJson u) = read u

theorem SortStable.required (h : SortStable read) {v : Json (JsNumber ν)} (hv : DistinctKeys v) (key : String)
    (hkey : notProto key = true) : Audit.required read (sortForStableJson v) key = Audit.required read v key := by
  rw [Audit.required, Audit.required, field_sort hv hkey]
  cases hu : field v key with
  | none => rfl
  | some u => exact h u (distinctKeys_of_field hv hu)

theorem SortStable.optional (h : SortStable read) {v : Json (JsNumber ν)} (hv : DistinctKeys v) (key : String)
    (hkey : notProto key = true) : Audit.optional read (sortForStableJson v) key = Audit.optional read v key := by
  rw [Audit.optional, Audit.optional, field_sort hv hkey]
  cases hu : field v key with
  | none => rfl
  | some u => simp only [Option.map_some, h u (distinctKeys_of_field hv hu)]

theorem sortStable_asString : SortStable (ν := ν) asString := fun u _ => by cases u <;> rfl

theorem sortStable_asAtom : SortStable (ν := ν) asAtom := fun u _ => by cases u <;> rfl

theorem SortStable.items (h : SortStable read) : SortStable fun u => (asItems u).bind (readAll read) := by
  intro u hu
  cases u with
  | arr items =>
    rw [DistinctKeys, distinctItems_iff] at hu
    rw [sortForStableJson_arr]
    simp only [asItems, Option.bind_some]
    induction items with
    | nil => rfl
    | cons v items ih =>
      rw [List.map_cons, readAll, readAll, h v (hu v List.mem_cons_self),
        ih fun w hw => hu w (List.mem_cons_of_mem _ hw)]
  | _ => rfl

theorem sortStable_readStrings : SortStable (ν := ν) readStrings := sortStable_asString.items

theorem sortStable_readScope : SortStable (ν := ν) readScope := fun u hu => by
  simp only [readScope, sortStable_asString.required hu "type" rfl,
    sortStable_readStrings.optional hu "employeeIds" rfl,
    sortStable_readStrings.optional hu "payrollPeriodIds" rfl,
    sortStable_readStrings.optional hu "departmentIds" rfl,
    sortStable_asString.optional hu "reason" rfl, sortStable_asAtom.optional hu "expiresAt" rfl]

theorem sortStable_readPayroll : SortStable (ν := ν) readPayroll := fun u hu => by
  simp only [readPayroll, sortStable_asString.required hu "companyId" rfl,
    sortStable_asString.required hu "payrollRunId" rfl, sortStable_asString.required hu "payrollPeriodId" rfl]

theorem sortStable_readCommitment : SortStable (ν := ν) readCommitment := fun u hu => by
  simp only [readCommitment, sortStable_asString.required hu "id" rfl,
    sortStable_asString.required hu "employeeId" rfl, sortStable_asString.required hu "payrollPeriodId" rfl,
    sortStable_asString.optional hu "departmentId" rfl, sortStable_asString.required hu "commitmentHash" rfl]

theorem sortStable_readProof : SortStable (ν := ν) readProof := fun u hu => by
  simp only [readProof, sortStable_asString.required hu "id" rfl,
    sortStable_asString.required hu "proofHash" rfl, sortStable_asString.required hu "verificationKeyId" rfl,
    sortStable_asString.required hu "circuitId" rfl, sortStable_asString.required hu "publicInputHash" rfl]

theorem sortStable_readKey : SortStable (ν := ν) readKey := fun u hu => by
  simp only [readKey, sortStable_asString.required hu "id" rfl]

theorem SortStable.readList (h : SortStable read) : SortStable (readList read) := h.items

/-- Reading a package does not depend on the order of keys. -/
theorem readPackage_sort : SortStable (ν := ν) readPackage := fun u hu => by
  simp only [readPackage, sortStable_asString.required hu "schemaVersion" rfl,
    sortStable_asString.required hu "packageId" rfl, sortStable_readPayroll.required hu "payroll" rfl,
    sortStable_readScope.required hu "disclosureScope" rfl,
    sortStable_readCommitment.readList.required hu "commitments" rfl,
    sortStable_readProof.readList.required hu "proofReferences" rfl,
    sortStable_readKey.readList.required hu "verificationKeys" rfl,
    sortStable_asString.required hu "integrityHash" rfl]

end Readers

/-! ## The hash -/

theorem distinctKeys_hashable (hv : DistinctKeys v) : DistinctKeys (hashable v) := by
  cases v with
  | obj fields =>
    rw [DistinctKeys, distinctFields_iff] at hv
    rw [hashable, DistinctKeys, distinctFields_iff]
    exact ⟨nodup_eraseKey hv.1, fun f hf => hv.2 f (List.mem_of_mem_filter hf)⟩
  | _ => exact hv

variable {v w : Json (JsNumber ν)}

/-- The hash is cut out of a package whatever the order of its keys. -/
theorem hashable_congr (hv : DistinctKeys v) (hw : DistinctKeys w) (h : SameJson v w) :
    SameJson (hashable v) (hashable w) := by
  have hcomm : ∀ {u : Json (JsNumber ν)}, DistinctKeys u →
      rearrange .sorted (hashable u) = hashable (rearrange .sorted u) := by
    intro u hu
    cases u with
    | obj fields =>
      rw [DistinctKeys] at hu
      have hnodup : ((mapValues (rearrange .sorted) fields).map Prod.fst).Nodup := by
        rw [keys_mapValues]
        exact hu.1
      have hkeep : ∀ {β : Type} (l : List (String × β)),
          eraseKey "integrityHash" l = (Rearrangement.keep fun k => k ≠ "integrityHash").run l := fun _ => rfl
      rw [hashable, rearrange_obj, rearrange_obj, hashable, hkeep, hkeep, ← Rearrangement.natural,
        Rearrangement.keep_sorted _ hnodup]
    | _ => rfl
  rw [sameJson_iff] at h ⊢
  rw [hcomm hv, hcomm hw, h]

theorem field_schemaVersion {p : SelectiveDisclosureAuditPackage ν}
    (h : readPackage v = some p) : field v "schemaVersion" = some (.str p.schemaVersion) := by
  simp only [readPackage, Option.bind_eq_bind, Option.bind_eq_some_iff] at h
  obtain ⟨version, hversion, _, -, _, -, _, -, _, -, _, -, _, -, _, -, h⟩ := h
  cases h
  obtain ⟨u, hu, hstr⟩ := Option.bind_eq_some_iff.mp hversion
  cases u with
  | str s =>
    cases hstr
    exact hu
  | _ => cases hstr

theorem field_mapAtoms {μ : Type} (f : Option ν → Option μ) (v : Json ν) (key : String) :
    field (mapAtoms f v) key = (field v key).map (mapAtoms f) := by
  have hatom : ∀ a : Option μ, field (ofAtom a) key = none := by
    intro a
    cases a <;> rfl
  cases v with
  | null => exact hatom _
  | num n => exact hatom _
  | obj fields =>
    simp only [mapAtoms, mapAtomsFields_eq_map, field, lookup_mapValues]
  | _ => rfl

variable [NumberFormat ν]

/-- Where SHA-256 does not collide, packages have one hash exactly when the
same is written of them. -/
theorem calculate_eq_iff {sha256 : String → List UInt8} (hsha : Function.Injective sha256)
    (hv : DistinctKeys v) (hw : DistinctKeys w) :
    calculateAuditPackageIntegrityHash sha256 v = calculateAuditPackageIntegrityHash sha256 w ↔
      SameJson (plainPart (hashable v)) (plainPart (hashable w)) := by
  rw [calculateAuditPackageIntegrityHash, calculateAuditPackageIntegrityHash, String.ofList_inj,
    hexEncode_injective.eq_iff, hsha.eq_iff,
    stableStringify_eq_iff (distinctKeys_hashable hv) (distinctKeys_hashable hw)]

theorem calculate_congr (sha256 : String → List UInt8) (hv : DistinctKeys v)
    (hw : DistinctKeys w) (h : SameJson v w) :
    calculateAuditPackageIntegrityHash sha256 v = calculateAuditPackageIntegrityHash sha256 w := by
  have hv' := distinctKeys_hashable hv
  have hw' := distinctKeys_hashable hw
  rw [calculateAuditPackageIntegrityHash, calculateAuditPackageIntegrityHash,
    (stableStringify_eq_iff hv' hw').mpr (plainPart_congr hv' hw' (hashable_congr hv hw h))]

/-! ## Writing and reading -/

/-- What a written package is read back as. -/
theorem deserialize_serialize {p : Typed (readPackage (ν := ν))} (h : p.ref.schemaVersion = "1.0") :
    deserializeAuditPackage (serializeAuditPackage p.value) =
      .ok (loaded (written (sortForStableJson p.value)) : Json (JsNumber ν)) := by
  have hparse : parseJson (serializeAuditPackage p.value) = some (written (sortForStableJson p.value)) :=
    parseJson_stringify (distinctKeys_mapAtoms _ (distinctKeys_sortForStableJson p.distinct))
  have hversion : field (written (sortForStableJson p.value)) "schemaVersion" = some (.str "1.0") := by
    rw [written, field_mapAtoms, field_sort p.distinct rfl, field_schemaVersion p.reads, h]
    rfl
  rw [deserializeAuditPackage, hparse]
  cases hw : written (sortForStableJson p.value) with
  | obj fields =>
    rw [hw] at hversion
    simp only [hversion]
  | _ =>
    rw [hw] at hversion
    cases hversion

end ZkPayroll.Audit
