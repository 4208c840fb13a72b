import ZkPayroll.Audit.PackageSeal

/-!
# When the seal of an audit package holds

`seal_holds_iff`: a created package has exactly the commitments in its scope;
it survives being written and read, and is then valid until its scope expires,
exactly when JSON keeps all of it; and a changed value that keeps the hash is
reported invalid exactly when the change shows in what is written, or the
value fails another check.
-/

namespace ZkPayroll.Audit

open Framework ZkPayroll.Core

variable {ν : Type} [NumberFormat ν] [LE ν] [DecidableLE ν] [Zero ν]

/-- What the seal of package `p`, created from `input`, is for: `p` has the
commitments in scope, survives a round trip, and `changed` does not pass for
`p` at time `time`. -/
structure SealHolds (sha256 : String → List UInt8) (input : CreateAuditPackageInput ν)
    (p changed : Typed (readPackage (ν := ν))) (time : JsNumber ν) : Prop where
  commitments : field p.value "commitments" = some (.arr ((input.commitments.filter fun c =>
    InScope input.disclosureScope.ref c.ref).map Typed.value))
  survives : ∃ q : Typed (readPackage (ν := ν)),
    deserializeAuditPackage (serializeAuditPackage p.value) = .ok q.value ∧ SameJson q.value p.value ∧
      ∀ t, p.ref.disclosureScope.expired t = false → (verifySelectiveDisclosureAuditPackage sha256 q t).valid = true
  noticed : changed.ref.integrityHash = p.ref.integrityHash → ¬SameJson changed.value p.value →
    (verifySelectiveDisclosureAuditPackage sha256 changed time).valid = false

/-- A change that keeps the hash shows in what is written, or the value fails
another check. -/
def ChangeShows (p changed : Typed (readPackage (ν := ν))) (time : JsNumber ν) : Prop :=
  changed.ref.integrityHash = p.ref.integrityHash → ShapeOk changed.ref false time →
    SameJson (plainPart (hashable changed.value)) (plainPart (hashable p.value)) →
      SameJson changed.value p.value

variable {sha256 : String → List UInt8} {now : JsNumber ν} {input : CreateAuditPackageInput ν}

omit [NumberFormat ν] in
theorem filter_scoped (h : ShapeOk (input.package "") true now) :
    input.scopedCommitments = input.commitments.filter fun c => InScope input.disclosureScope.ref c.ref := by
  refine List.filter_congr fun c _ => ?_
  have hallowed : allows input.disclosureScope.ref c.ref = true ↔ InScope input.disclosureScope.ref c.ref :=
    allows_iff_inScope h.wellFormed
  exact Bool.eq_iff_iff.mpr (hallowed.trans decide_eq_true_iff.symm)

/-- A created package is complete until its scope expires. -/
theorem shapeOk_sealed (hne : ∀ s, sha256 s ≠ []) (h : ShapeOk (input.package "") true now) {time : JsNumber ν}
    (ht : input.disclosureScope.ref.expired time = false) : ShapeOk (sealedPackage sha256 input).ref false time := by
  refine { h with integrityHash := fun _ hempty => ?_, notExpired := ht }
  have hchars : hexEncode (sha256 (stableStringify (hashable (.obj input.fields)))) = [] := by
    simpa [sealedPackage, CreateAuditPackageInput.package, calculateAuditPackageIntegrityHash] using hempty
  have hlength := length_hexEncode (sha256 (stableStringify (hashable (.obj input.fields))))
  rw [hchars, List.length_nil] at hlength
  exact hne (stableStringify (hashable (.obj input.fields))) (List.length_eq_zero_iff.mp (by omega))

/-- A package is read back, and valid, exactly when it is plain. -/
theorem survives_iff (hne : ∀ s, sha256 s ≠ []) (h : ShapeOk (input.package "") true now) :
    (∃ q : Typed (readPackage (ν := ν)),
      deserializeAuditPackage (serializeAuditPackage (sealedPackage sha256 input).value) = .ok q.value ∧
        SameJson q.value (sealedPackage sha256 input).value ∧
          ∀ t, (sealedPackage sha256 input).ref.disclosureScope.expired t = false →
            (verifySelectiveDisclosureAuditPackage sha256 q t).valid = true) ↔
      Plain (sealedPackage sha256 input).value := by
  have hdistinct := (sealedPackage sha256 input).distinct
  have hread := deserialize_serialize (p := sealedPackage sha256 input) rfl
  have hkept := sameJson_loaded_iff hdistinct
  rw [hread]
  constructor
  · rintro ⟨q, hq, hsame, -⟩
    rw [← hkept, Except.ok.inj hq]
    exact hsame
  · intro hplain
    have hcopy : loaded (written (sortForStableJson (sealedPackage sha256 input).value)) =
        sortForStableJson (sealedPackage sha256 input).value :=
      hplain.loaded_written_sort
    have hsame := hkept.mpr hplain
    rw [hcopy] at hsame ⊢
    refine ⟨⟨_, _, (readPackage_sort _ hdistinct).trans (sealedPackage sha256 input).reads,
      distinctKeys_sortForStableJson hdistinct⟩, rfl, hsame, fun t ht => verify_valid_iff.mpr ⟨?_, ?_⟩⟩
    · exact shapeOk_sealed hne h ht
    · exact (calculate_congr sha256 (distinctKeys_sortForStableJson hdistinct) hdistinct hsame).trans
        (calculate_sealedPackage sha256 input)

/-- The seal of a created package holds exactly when the package is plain and
the change shows. -/
theorem seal_holds_iff (hsha : Function.Injective sha256) (hne : ∀ s, sha256 s ≠ [])
    {p : Typed (readPackage (ν := ν))} (hcreate : createSelectiveDisclosureAuditPackage sha256 now input = .ok p)
    (changed : Typed (readPackage (ν := ν))) (time : JsNumber ν) :
    SealHolds sha256 input p changed time ↔ Plain p.value ∧ ChangeShows p changed time := by
  obtain ⟨hshape, rfl⟩ := create_eq_ok_iff.mp hcreate
  have hhash : ∀ {q : Typed (readPackage (ν := ν))},
      q.ref.integrityHash = (sealedPackage sha256 input).ref.integrityHash →
        (calculateAuditPackageIntegrityHash sha256 q.value = q.ref.integrityHash ↔
          SameJson (plainPart (hashable q.value)) (plainPart (hashable (sealedPackage sha256 input).value))) := by
    intro q hq
    rw [hq, ← calculate_sealedPackage, calculate_eq_iff hsha q.distinct (sealedPackage sha256 input).distinct]
  constructor
  · intro hs
    refine ⟨(survives_iff hne hshape).mp hs.survives, fun hq hok hsame => ?_⟩
    by_contra hother
    have hinvalid := hs.noticed hq hother
    rw [verify_valid_iff.mpr ⟨hok, (hhash hq).mpr hsame⟩] at hinvalid
    cases hinvalid
  · rintro ⟨hplain, hshows⟩
    refine ⟨?_, (survives_iff hne hshape).mpr hplain, fun hq hother => ?_⟩
    · rw [← filter_scoped hshape]
      exact input.field_withHash _ (List.mem_append_left _ (by simp [CreateAuditPackageInput.fields]))
    · by_contra hvalid
      obtain ⟨hok, hcalc⟩ := verify_valid_iff.mp (Bool.not_eq_false _ ▸ hvalid)
      exact hother (hshows hq hok ((hhash hq).mp hcalc))

/-! ## A package, and changes to it -/

/-- The employees' commitments, under the scope of the first. -/
def julyInput : CreateAuditPackageInput Int where
  packageId := "audit-1"
  payroll := payrollJuly
  disclosureScope := employeeOneScope
  commitments := [commitmentOf "c1" "employee-1" "h1", commitmentOf "c2" "employee-2" "h2"]
  proofReferences := [proofOne]
  verificationKeys := [keyOne]
  artifactManifestHash := none
  metadata := none

/-- The text that is hashed of the package, whose second commitment is left
out. -/
def julyText : String := stableStringify (hashable (.obj julyInput.fields))

def julySha256 : String → List UInt8 :=
  sha256On julyText "4ef49682f0bae2b3faa393701c5fb73d984daf51171052a7874ffb3baa7e5501"

/-- What is made of an input, with the hash of the package of July. -/
def julySealed (input : CreateAuditPackageInput Int) : Typed (readPackage (ν := Int)) where
  value := .obj (input.withHash (calculateAuditPackageIntegrityHash julySha256 (.obj julyInput.fields)))
  ref := input.package (calculateAuditPackageIntegrityHash julySha256 (.obj julyInput.fields))
  reads := input.readPackage_withHash _
  distinct := input.distinct_withHash _

theorem create_julyInput : createSelectiveDisclosureAuditPackage julySha256 (.finite 1783000000) julyInput =
    .ok (julySealed julyInput) :=
  create_eq_ok_iff.mpr ⟨validateAuditPackageShape_eq_nil_iff.mp (by decide), rfl⟩

/-- Another commitment in the place of the first. -/
def alteredInput : CreateAuditPackageInput Int :=
  { julyInput with commitments := [commitmentOf "c1" "employee-1" "h2"] }

/-- The package of July is sealed against another commitment. -/
theorem july_seal_holds :
    ∃ p, createSelectiveDisclosureAuditPackage julySha256 (.finite 1783000000) julyInput = .ok p ∧
      SealHolds julySha256 julyInput p (julySealed alteredInput) (.finite 1784000000) := by
  have hlen : (digest "4ef49682f0bae2b3faa393701c5fb73d984daf51171052a7874ffb3baa7e5501").length = 32 := by
    decide +kernel
  refine ⟨_, create_julyInput, (seal_holds_iff (sha256On_injective hlen julyText) (sha256On_ne_nil hlen julyText)
    create_julyInput _ _).mpr ⟨⟨?_, ?_⟩, ?_⟩⟩
  · decide
  · decide
  · intro _ _ hsame
    revert hsame
    decide

/-- Payroll metadata with a property named `__proto__`. -/
def payrollProto : Typed (readPayroll (ν := Int)) where
  value := .obj [("companyId", .str "company-1"), ("payrollRunId", .str "run-1"),
    ("payrollPeriodId", .str "2026-07"), ("generatedAt", .num (.finite 1782000000)), ("__proto__", .str "forged")]
  ref := payrollJuly.ref
  reads := rfl
  distinct := by simp [DistinctKeys, DistinctFields]

/-- The property can be added to the package unnoticed. -/
theorem proto_unnoticed :
    ∃ p, createSelectiveDisclosureAuditPackage julySha256 (.finite 1783000000) julyInput = .ok p ∧
      ∃ changed : Typed (readPackage (ν := Int)), changed.ref.integrityHash = p.ref.integrityHash ∧
        ¬SameJson changed.value p.value ∧
          (verifySelectiveDisclosureAuditPackage julySha256 changed (.finite 1784000000)).valid = true := by
  have hlen : (digest "4ef49682f0bae2b3faa393701c5fb73d984daf51171052a7874ffb3baa7e5501").length = 32 := by
    decide +kernel
  have hshape : ShapeOk (julyInput.package "") true (.finite 1783000000) := (create_eq_ok_iff.mp create_julyInput).1
  have hplain : Plain (julySealed julyInput).value := ⟨by decide, by decide⟩
  refine ⟨_, create_julyInput, julySealed { julyInput with payroll := payrollProto }, rfl, fun hsame => ?_,
    verify_valid_iff.mpr ⟨?_, ?_⟩⟩
  · refine (hplain.of_sameJson hsame).keys ?_
    decide
  · exact shapeOk_sealed (sha256On_ne_nil hlen julyText) hshape (by decide)
  · have hdistinct := distinctKeys_hashable (julySealed { julyInput with payroll := payrollProto }).distinct
    have hfields := distinctKeys_hashable (julySealed julyInput).distinct
    have htext := (stableStringify_eq_iff hdistinct hfields).mpr (by decide)
    exact congrArg (fun text => String.ofList (hexEncode (julySha256 text))) htext

end ZkPayroll.Audit
