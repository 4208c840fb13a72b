import ZkPayroll.Audit.AuditPackage

/-!
# Packages received from anywhere

`verifySelectiveDisclosureAuditPackage` of any value that JSON can make,
whether or not it is of the declared type. No property can be read of
`undefined` or `null`, and what is of another type is converted as the language
does it (`Conversions`). Of a value of the declared type it is the verifier of
`AuditPackage` (`verifyReceived_typed`).

A valid verdict means what it should exactly for packages that keep to their
scope, expire at a number if at all and name a key for each proof, or fail one
of the checks (`valid_enforces_iff`).
-/

namespace ZkPayroll.Audit

open Framework ZkPayroll.Core

variable {ν : Type}

/-- What JSON can make. -/
abbrev Parsed (ν : Type) : Type := Json (JsNumber ν)

/-! ## Reading values of any type -/

def typeError (message : String) : SdkError where
  kind := .error
  name := "TypeError"
  message := message

/-- `value.key`, where the value may be `undefined`. -/
def property (value : Option (Parsed ν)) (key : String) : Except SdkError (Option (Parsed ν)) :=
  match value with
  | none => .error (typeError s!"Cannot read properties of undefined (reading '{key}')")
  | some .null => .error (typeError s!"Cannot read properties of null (reading '{key}')")
  | some v => .ok (field v key)

/-- The property of what is there. -/
def path (value : Option (Parsed ν)) (key : String) : Option (Parsed ν) := value.bind (field · key)

/-- The items of an array. -/
def itemsOf (value : Option (Parsed ν)) : List (Parsed ν) := (value.bind asItems).getD []

/-- `value === text`. -/
def isText (text : String) (value : Option (Parsed ν)) : Bool := value.bind asString == some text

/-- What `for (const item of value)` goes through. -/
def iterate : Option (Parsed ν) → Except SdkError (List (Parsed ν))
  | some (.arr items) => .ok items
  | some (.str s) => .ok (s.toList.map fun c => .str (String.singleton c))
  | _ => .error (typeError "value is not iterable")

/-- The checks in turn, each of which may throw. -/
def collect (checks : List (Except SdkError (List String))) : Except SdkError (List String) :=
  (allOk checks).map List.flatten

/-- An error is reported where the condition holds. -/
def report (condition : Bool) (message : Except SdkError String) : Except SdkError (List String) :=
  if condition then message.map fun text => [text] else .ok []

/-- What the language makes of a value that is no number, where it takes it for
one, and of one that is no text, in a template. -/
structure Conversions (ν : Type) where
  toNumber : Parsed ν → Except SdkError (JsNumber ν)
  toText : Option (Parsed ν) → Except SdkError String

namespace Conversions

variable (c : Conversions ν)

/-- The number that a value is taken for. -/
def number [Zero ν] : Parsed ν → Except SdkError (JsNumber ν)
  | .num n => .ok n
  | .null => .ok (.finite 0)
  | v => c.toNumber v

def text : Option (Parsed ν) → Except SdkError String
  | some (.str s) => .ok s
  | v => c.toText v

end Conversions

section Values

variable [LE ν] [DecidableLE ν] [Zero ν]

/-- The value counts as true. -/
def isTruthy : Option (Parsed ν) → Bool
  | none | some .null | some (.num .nan) => false
  | some (.bool b) => b
  | some (.num (.finite n)) => !(decide (n ≤ 0) && decide (0 ≤ n))
  | some (.str s) => s ≠ ""
  | some _ => true

/-- `value > 0`. -/
def isPositive : JsNumber ν → Bool
  | .finite n => !decide (n ≤ 0)
  | .infinity => true
  | _ => false

/-- `(list?.length ?? 0) > 0`. -/
def hasLength (c : Conversions ν) : Option (Parsed ν) → Except SdkError Bool
  | some (.arr items) => .ok (0 < items.length)
  | some (.str s) => .ok (s ≠ "")
  | some (.obj fields) =>
    match fields.lookup "length" with
    | none | some .null => .ok false
    | some v => (c.number v).map isPositive
  | _ => .ok false

/-- `expiresAt !== undefined && expiresAt <= now`. -/
def isExpired (c : Conversions ν) (expiresAt : Option (Parsed ν)) (now : JsNumber ν) : Except SdkError Bool :=
  match expiresAt with
  | none => .ok false
  | some v => (c.number v).map fun n => n.le now

/-- Equality of the keys of a `Set`, where every array and object is another one. -/
def sameValue [DecidableEq ν] : Option (Parsed ν) → Option (Parsed ν) → Bool
  | none, none | some .null, some .null => true
  | some (.bool a), some (.bool b) => a == b
  | some (.num a), some (.num b) => decide (a = b)
  | some (.str a), some (.str b) => a == b
  | _, _ => false

/-! ## The verifier -/

/-- `isDisclosureScopeWellFormed(scope)`. -/
def isWellFormed (c : Conversions ν) (scope : Option (Parsed ν)) : Except SdkError Bool :=
  if isText "employee_subset" (path scope "type") then hasLength c (path scope "employeeIds")
  else if isText "payroll_period" (path scope "type") then hasLength c (path scope "payrollPeriodIds")
  else if isText "department" (path scope "type") then hasLength c (path scope "departmentIds")
  else .ok (isText "reason" (path scope "type") && isTruthy (path scope "reason"))

/-- `verificationKeys.map((key) => key.id)`. -/
def keyIds : Option (Parsed ν) → Except SdkError (List (Option (Parsed ν)))
  | some (.arr keys) => allOk (keys.map fun key => property (some key) "id")
  | _ => .error (typeError "auditPackage.verificationKeys.map is not a function")

/-- `${value || "<unknown>"}`. -/
def Conversions.orUnknown (c : Conversions ν) (value : Option (Parsed ν)) : Except SdkError String :=
  if isTruthy value then c.text value else .ok "<unknown>"

/-- All of the properties are there, and neither empty nor zero. -/
def allThere (value : Parsed ν) (keys : List String) : Bool := keys.all fun key => isTruthy (field value key)

/-- What is wrong with a proof. -/
def proofErrors [DecidableEq ν] (c : Conversions ν) (ids : List (Option (Parsed ν)))
    (proof : Parsed ν) : Except SdkError (List String) :=
  collect [
    (property (some proof) "id").map fun _ => [],
    report (!allThere proof ["id", "proofHash", "publicInputHash", "circuitId"])
      ((c.orUnknown (field proof "id")).map fun id => "proofReference " ++ id ++ " is incomplete."),
    report (!ids.any (sameValue (field proof "verificationKeyId")))
      ((c.text (field proof "id")).map fun id => "proofReference " ++ id ++ " references missing verification key.")]

/-- What is wrong with a commitment. -/
def commitmentErrors (c : Conversions ν) (commitment : Parsed ν) : Except SdkError (List String) :=
  collect [
    (property (some commitment) "id").map fun _ => [],
    report (!allThere commitment ["id", "employeeId", "commitmentHash"])
      ((c.orUnknown (field commitment "id")).map fun id => "commitment " ++ id ++ " is incomplete.")]

/-- `if (!value) errors.push(message)`. -/
def demand (value : Except SdkError (Option (Parsed ν))) (message : String) :
    Except SdkError (List String) :=
  value.map fun v => complain (isTruthy v = false) message

/-- `validateAuditPackageShape(auditPackage, false, now)`. -/
def shapeErrors [DecidableEq ν] (c : Conversions ν) (auditPackage : Parsed ν) (now : JsNumber ν) :
    Except SdkError (List String) :=
  let payroll := field auditPackage "payroll"
  let scope := field auditPackage "disclosureScope"
  collect [
    demand (property (some auditPackage) "packageId") "packageId is required.",
    .ok (complain (isText "1.0" (field auditPackage "schemaVersion") = false) "schemaVersion must be 1.0."),
    demand (property payroll "companyId") "payroll.companyId is required.",
    demand (property payroll "payrollRunId") "payroll.payrollRunId is required.",
    demand (property payroll "payrollPeriodId") "payroll.payrollPeriodId is required.",
    demand (property scope "type") "disclosureScope.type is required.",
    demand (.ok (field auditPackage "integrityHash")) "integrityHash is required.",
    (isExpired c (path scope "expiresAt") now).map fun b => complain (b = true) "disclosureScope is expired.",
    (isWellFormed c scope).map fun b => complain (b = false) "disclosureScope is malformed for its type.",
    keyIds (field auditPackage "verificationKeys") >>= fun ids =>
      iterate (field auditPackage "proofReferences") >>= fun proofs => collect (proofs.map (proofErrors c ids)),
    iterate (field auditPackage "commitments") >>= fun commitments =>
      collect (commitments.map (commitmentErrors c)),
    (iterate (field auditPackage "proofReferences")).map fun proofs =>
      complain (proofs.length = 0) "At least one proof reference is required."]

section Verify

variable [DecidableEq ν] [NumberFormat ν]

/-- The errors of the shape, and that of the hash. -/
def receivedErrors (sha256 : String → List UInt8) (c : Conversions ν) (auditPackage : Parsed ν)
    (now : JsNumber ν) : Except SdkError (List String) :=
  let expectedHash := calculateAuditPackageIntegrityHash sha256 auditPackage
  collect [
    shapeErrors c auditPackage now,
    .ok (complain (isText expectedHash (field auditPackage "integrityHash") = false)
      "Audit package integrity hash does not match package content.")]

/-- `verifySelectiveDisclosureAuditPackage(auditPackage, now)`, of any value. -/
def verifyReceived (sha256 : String → List UInt8) (c : Conversions ν) (auditPackage : Parsed ν)
    (now : JsNumber ν) : Except SdkError AuditPackageVerificationResult :=
  (receivedErrors sha256 c auditPackage now).map fun errors => { valid := errors.isEmpty, errors }

end Verify

/-! ## What is checked -/

@[simp] theorem collect_nil : collect [] = .ok [] := rfl

/-- Nothing is reported, and nothing throws, exactly if no check does. -/
@[simp] theorem collect_cons_eq_nil_iff {x : Except SdkError (List String)} {checks : List (Except SdkError (List String))} :
    collect (x :: checks) = .ok [] ↔ x = .ok [] ∧ collect checks = .ok [] := by
  unfold collect
  rw [allOk]
  cases x with
  | error e =>
    refine iff_of_false (fun h => ?_) fun h => ?_
    · cases h
    · cases h.1
  | ok errors =>
    cases allOk checks with
    | error e =>
      refine iff_of_false (fun h => ?_) fun h => ?_
      · cases h
      · cases h.2
    | ok rest =>
      show Except.ok (errors ++ rest.flatten) = .ok [] ↔ Except.ok errors = .ok [] ∧ Except.ok rest.flatten = .ok []
      simp only [Except.ok.injEq, List.append_eq_nil_iff]

theorem collect_map_eq_nil_iff {α : Type} {f : α → Except SdkError (List String)} {xs : List α} :
    collect (xs.map f) = .ok [] ↔ ∀ x ∈ xs, f x = .ok [] := by
  induction xs with
  | nil => simp
  | cons x xs ih => rw [List.map_cons, collect_cons_eq_nil_iff, ih, List.forall_mem_cons]

theorem report_eq_nil_iff {condition : Bool} {message : Except SdkError String} :
    report condition message = .ok [] ↔ condition = false := by
  cases condition <;> cases message <;> simp [report, Except.map]

theorem map_complain_eq_nil_iff {x : Except SdkError Bool} {b : Bool} {message : String} :
    (x.map fun a => complain (a = b) message) = .ok [] ↔ x = .ok !b := by
  cases x with
  | error e => exact iff_of_false nofun nofun
  | ok a =>
    show Except.ok (complain (a = b) message) = .ok [] ↔ Except.ok a = .ok !b
    rw [Except.ok.injEq, Except.ok.injEq, complain_eq_nil_iff]
    cases a <;> cases b <;> decide

variable {value : Option (Parsed ν)}

theorem demand_eq_nil_iff {key message : String} :
    demand (property value key) message = .ok [] ↔ isTruthy (path value key) = true := by
  unfold property
  split
  · exact iff_of_false nofun (by simp [path, isTruthy])
  · exact iff_of_false nofun (by simp [path, field, isTruthy])
  · simp [demand, Except.map, complain_eq_nil_iff, path]

/-- What has a property that is not empty is not `null`. -/
theorem property_of_allThere {value : Parsed ν} {key : String} {keys : List String}
    (h : allThere value (key :: keys) = true) : property (some value) key = .ok (field value key) := by
  cases value with
  | null => simp [allThere, field, isTruthy] at h
  | _ => rfl

omit [LE ν] [DecidableLE ν] [Zero ν] in
/-- The items of an array pass, or there are none of a text. -/
theorem iterate_collect_iff {f : Parsed ν → Except SdkError (List String)} (hf : ∀ s, f (.str s) ≠ .ok [])
    :
    (iterate value >>= fun items => collect (items.map f)) = .ok [] ↔
      value = some (.str "") ∨ ∃ items, value = some (.arr items) ∧ ∀ item ∈ items, f item = .ok [] := by
  unfold iterate
  split
  · rename_i items
    show collect (items.map f) = .ok [] ↔ _
    simp [collect_map_eq_nil_iff]
  · rename_i s
    show collect ((s.toList.map fun c => Json.str (String.singleton c)).map f) = .ok [] ↔ _
    rw [collect_map_eq_nil_iff, List.forall_mem_map]
    constructor
    · intro h
      have hnil : s.toList = [] := List.eq_nil_iff_forall_not_mem.mpr fun c hc => hf _ (h c hc)
      exact .inl (by rw [String.toList_eq_nil_iff.mp hnil])
    · rintro (h | ⟨items, h, -⟩)
      · cases h
        exact fun c hc => absurd hc (by simp)
      · cases h
  · rename_i hno_items hno_text
    refine iff_of_false nofun ?_
    rintro (rfl | ⟨items, rfl, -⟩)
    · exact hno_text _ rfl
    · exact hno_items _ rfl

theorem not_allThere_str (s key : String) (keys : List String) :
    allThere (Json.str s : Parsed ν) (key :: keys) = false := rfl

variable {c : Conversions ν} {c : Conversions ν}

theorem commitmentErrors_eq_nil_iff {commitment : Parsed ν} :
    commitmentErrors c commitment = .ok [] ↔ allThere commitment ["id", "employeeId", "commitmentHash"] = true := by
  simp only [commitmentErrors, collect_cons_eq_nil_iff, collect_nil, report_eq_nil_iff, Bool.not_eq_false', and_true]
  refine and_iff_right_of_imp fun h => ?_
  rw [property_of_allThere h]
  rfl

theorem proofErrors_eq_nil_iff [DecidableEq ν] {ids : List (Option (Parsed ν))}
    {proof : Parsed ν} :
    proofErrors c ids proof = .ok [] ↔
      allThere proof ["id", "proofHash", "publicInputHash", "circuitId"] = true ∧
        ids.any (sameValue (field proof "verificationKeyId")) = true := by
  simp only [proofErrors, collect_cons_eq_nil_iff, collect_nil, report_eq_nil_iff, Bool.not_eq_false', and_true]
  refine and_iff_right_of_imp fun h => ?_
  rw [property_of_allThere h.1]
  rfl

/-- The package passes every check but that of its hash. -/
structure ReceivedOk [DecidableEq ν] (c : Conversions ν) (p : Parsed ν) (now : JsNumber ν) : Prop where
  packageId : isTruthy (field p "packageId") = true
  schemaVersion : isText "1.0" (field p "schemaVersion") = true
  payroll : ∀ key ∈ ["companyId", "payrollRunId", "payrollPeriodId"], isTruthy (path (field p "payroll") key) = true
  integrityHash : isTruthy (field p "integrityHash") = true
  notExpired : isExpired c (path (field p "disclosureScope") "expiresAt") now = .ok false
  wellFormed : isWellFormed c (field p "disclosureScope") = .ok true
  proofs : ∃ proofs, field p "proofReferences" = some (.arr proofs) ∧ proofs ≠ [] ∧
    ∃ ids, keyIds (field p "verificationKeys") = .ok ids ∧
      ∀ proof ∈ proofs, allThere proof ["id", "proofHash", "publicInputHash", "circuitId"] = true ∧
        ids.any (sameValue (field proof "verificationKeyId")) = true
  /-- The empty text has no commitments either. -/
  commitments : field p "commitments" = some (.str "") ∨
    ∃ commitments, field p "commitments" = some (.arr commitments) ∧
      ∀ commitment ∈ commitments, allThere commitment ["id", "employeeId", "commitmentHash"] = true

/-- The proofs that are there name keys. -/
theorem proofs_eq_nil_iff [DecidableEq ν] {keys proofs : Option (Parsed ν)}
    {message : String} :
    (keyIds keys >>= fun ids => iterate proofs >>= fun items => collect (items.map (proofErrors c ids))) = .ok [] ∧
        ((iterate proofs).map fun items => complain (items.length = 0) message) = .ok [] ↔
      ∃ items, proofs = some (.arr items) ∧ items ≠ [] ∧ ∃ ids, keyIds keys = .ok ids ∧
        ∀ proof ∈ items, allThere proof ["id", "proofHash", "publicInputHash", "circuitId"] = true ∧
          ids.any (sameValue (field proof "verificationKeyId")) = true := by
  have hstr : ∀ ids s, proofErrors c ids (.str s) ≠ .ok [] := fun ids s h => by
    simp [proofErrors_eq_nil_iff, not_allThere_str] at h
  constructor
  · rintro ⟨h, hsome⟩
    obtain ⟨ids, hids, h⟩ := except_bind_eq_ok.mp h
    rcases (iterate_collect_iff (hstr ids)).mp h with rfl | ⟨items, rfl, hitems⟩
    · cases hsome
    · refine ⟨items, rfl, ?_, ids, hids, fun proof hproof => proofErrors_eq_nil_iff.mp (hitems proof hproof)⟩
      rintro rfl
      cases hsome
  · rintro ⟨items, rfl, hne, ids, hids, hitems⟩
    refine ⟨except_bind_eq_ok.mpr ⟨ids, hids, (iterate_collect_iff (hstr ids)).mpr (.inr ⟨items, rfl, ?_⟩)⟩, ?_⟩
    · exact fun proof hproof => proofErrors_eq_nil_iff.mpr (hitems proof hproof)
    · show Except.ok (complain _ _) = .ok []
      rw [complain_eq_nil_iff.mpr (mt List.length_eq_zero_iff.mp hne)]

omit [LE ν] [DecidableLE ν] [Zero ν] in
theorem isText_eq_true_iff {text : String} :
    isText text value = true ↔ value = some (.str text) := by
  unfold isText
  constructor
  · intro h
    obtain ⟨v, rfl, hv⟩ := Option.bind_eq_some_iff.mp (beq_iff_eq.mp h)
    cases v <;> cases hv
    rfl
  · rintro rfl
    exact beq_self_eq_true (some text)

/-- A well-formed scope has a type. -/
theorem isTruthy_type {scope : Option (Parsed ν)} (h : isWellFormed c scope = .ok true) :
    isTruthy (path scope "type") = true := by
  have htext : ∀ {text : String}, text ≠ "" → isText text (path scope "type") = true → isTruthy (path scope "type") = true := by
    intro text hne htype
    rw [isText_eq_true_iff.mp htype]
    exact decide_eq_true hne
  unfold isWellFormed at h
  split at h
  · rename_i htype
    exact htext (by simp) htype
  split at h
  · rename_i htype
    exact htext (by simp) htype
  split at h
  · rename_i htype
    exact htext (by simp) htype
  simp only [Except.ok.injEq, Bool.and_eq_true] at h
  exact htext (by simp) h.1

theorem shapeErrors_eq_nil_iff [DecidableEq ν] {p : Parsed ν} {now : JsNumber ν} :
    shapeErrors c p now = .ok [] ↔ ReceivedOk c p now := by
  have hstr : ∀ s, commitmentErrors c (.str s) ≠ .ok [] := fun s h => by
    simp [commitmentErrors_eq_nil_iff, not_allThere_str] at h
  simp only [shapeErrors, collect_cons_eq_nil_iff, collect_nil, and_true, demand_eq_nil_iff, map_complain_eq_nil_iff]
  simp only [iterate_collect_iff hstr, commitmentErrors_eq_nil_iff]
  constructor
  · rintro ⟨hid, hversion, hcompany, hrun, hperiod, -, hhash, hexpired, hformed, hkeys, hcommitments, hsome⟩
    simp only [Except.ok.injEq, complain_eq_nil_iff, Bool.not_eq_false] at hversion
    simp only [demand, Except.map, Except.ok.injEq, complain_eq_nil_iff, Bool.not_eq_false] at hhash
    exact ⟨hid, hversion, by simp [hcompany, hrun, hperiod], hhash, hexpired, hformed,
      proofs_eq_nil_iff.mp ⟨hkeys, hsome⟩, hcommitments⟩
  · intro h
    obtain ⟨hkeys, hsome⟩ := proofs_eq_nil_iff.mpr h.proofs
    refine ⟨h.packageId, ?_, h.payroll _ (by simp), h.payroll _ (by simp), h.payroll _ (by simp),
      isTruthy_type h.wellFormed, ?_, h.notExpired, h.wellFormed, hkeys, h.commitments, hsome⟩
    · rw [h.schemaVersion, complain_eq_nil_iff.mpr (by decide)]
    · simp [demand, Except.map, complain_eq_nil_iff, h.integrityHash]

/-! ## Valid verdicts -/

section Valid

variable [DecidableEq ν] [NumberFormat ν]

/-- What is checked of a package: its shape, its expiry and its hash. -/
structure Received (sha256 : String → List UInt8) (c : Conversions ν) (p : Parsed ν) (now : JsNumber ν) : Prop
    extends ReceivedOk c p now where
  hash : field p "integrityHash" = some (.str (calculateAuditPackageIntegrityHash sha256 p))

/-- The verifier reports that the package is valid. -/
def ReportsValid (verdict : Except SdkError AuditPackageVerificationResult) : Prop :=
  ∃ result, verdict = .ok result ∧ result.valid = true

variable {c : Conversions ν} {c : Conversions ν}

theorem reportsValid_iff {sha256 : String → List UInt8} {p : Parsed ν} {now : JsNumber ν} :
    ReportsValid (verifyReceived sha256 c p now) ↔ Received sha256 c p now := by
  have hnil : ReportsValid (verifyReceived sha256 c p now) ↔ receivedErrors sha256 c p now = .ok [] := by
    unfold ReportsValid verifyReceived
    cases receivedErrors sha256 c p now with
    | error e => exact iff_of_false (fun ⟨_, h, _⟩ => nomatch h) nofun
    | ok errors =>
      constructor
      · rintro ⟨_, h, hvalid⟩
        cases h
        rw [List.isEmpty_iff.mp hvalid]
      · intro h
        cases h
        exact ⟨_, rfl, rfl⟩
  rw [hnil, receivedErrors, collect_cons_eq_nil_iff, collect_cons_eq_nil_iff, shapeErrors_eq_nil_iff,
    Except.ok.injEq, complain_eq_nil_iff, Bool.not_eq_false, isText_eq_true_iff]
  exact ⟨fun h => ⟨h.1, h.2.1⟩, fun h => ⟨h.toReceivedOk, h.hash, rfl⟩⟩

/-- The id is one of those listed. -/
def listed (ids id : Option (Parsed ν)) : Bool := (itemsOf ids).any fun x => sameValue id (some x)

/-- The commitments that the filter of `applyDisclosureScope` keeps, where the ids
are those of an array. -/
def keeps (scope : Option (Parsed ν)) (commitment : Parsed ν) : Bool :=
  if isText "employee_subset" (path scope "type") && isTruthy (path scope "employeeIds") then
    listed (path scope "employeeIds") (field commitment "employeeId")
  else if isText "payroll_period" (path scope "type") && isTruthy (path scope "payrollPeriodIds") then
    listed (path scope "payrollPeriodIds") (field commitment "payrollPeriodId")
  else if isText "department" (path scope "type") && isTruthy (path scope "departmentIds") then
    listed (path scope "departmentIds") (field commitment "departmentId")
  else true

/-- The commitment lies within the scope, according to the scope's type. -/
structure LiesIn (scope : Option (Parsed ν)) (commitment : Parsed ν) : Prop where
  employee : isText "employee_subset" (path scope "type") = true →
    listed (path scope "employeeIds") (field commitment "employeeId") = true
  period : isText "payroll_period" (path scope "type") = true →
    listed (path scope "payrollPeriodIds") (field commitment "payrollPeriodId") = true
  department : isText "department" (path scope "type") = true →
    listed (path scope "departmentIds") (field commitment "departmentId") = true

/-- The time is absent, or a number that can be compared with `now`. -/
def isTime (now : JsNumber ν) : Option (Parsed ν) → Bool
  | none => true
  | some (.num n) => n ≠ .nan && now ≠ .nan
  | _ => false

/-- The proof names a key at all. -/
def hasName (proof : Parsed ν) : Bool :=
  match field proof "verificationKeyId" with
  | none | some .null => false
  | _ => true

/-- What a valid verdict is to mean. -/
structure Enforced (p : Parsed ν) (now : JsNumber ν) : Prop where
  inScope : ∀ commitment ∈ itemsOf (field p "commitments"), LiesIn (field p "disclosureScope") commitment
  notExpired : ∀ time, path (field p "disclosureScope") "expiresAt" = some time →
    ∃ n, time = .num n ∧ n ≠ .nan ∧ now ≠ .nan ∧ n.le now = false
  keysNamed : ∀ proof ∈ itemsOf (field p "proofReferences"), hasName proof = true ∧
    ∃ key ∈ itemsOf (field p "verificationKeys"), sameValue (field proof "verificationKeyId") (field key "id") = true

/-- The package keeps to its scope, the time of its expiry is one, and its proofs
name keys. -/
structure KeepsToScope (p : Parsed ν) (now : JsNumber ν) : Prop where
  commitments : (itemsOf (field p "commitments")).all (keeps (field p "disclosureScope")) = true
  time : isTime now (path (field p "disclosureScope") "expiresAt") = true
  names : (itemsOf (field p "proofReferences")).all hasName = true

omit [DecidableEq ν] [NumberFormat ν] in
theorem isTruthy_of_hasLength {ids : Option (Parsed ν)} (h : hasLength c ids = .ok true) :
    isTruthy ids = true := by
  unfold hasLength at h
  split at h
  · rfl
  · exact Except.ok.inj h
  · rfl
  · cases h

omit [NumberFormat ν] in
/-- In a well-formed scope, the filter of the creator keeps what lies in it. -/
theorem keeps_iff_liesIn {scope : Option (Parsed ν)}
    (hw : isWellFormed c scope = .ok true) {commitment : Parsed ν} :
    keeps scope commitment = true ↔ LiesIn scope commitment := by
  have hiff : LiesIn scope commitment ↔
      (isText "employee_subset" (path scope "type") = true →
        listed (path scope "employeeIds") (field commitment "employeeId") = true) ∧
      (isText "payroll_period" (path scope "type") = true →
        listed (path scope "payrollPeriodIds") (field commitment "payrollPeriodId") = true) ∧
      (isText "department" (path scope "type") = true →
        listed (path scope "departmentIds") (field commitment "departmentId") = true) :=
    ⟨fun h => ⟨h.employee, h.period, h.department⟩, fun h => ⟨h.1, h.2.1, h.2.2⟩⟩
  rw [hiff]
  unfold keeps
  unfold isWellFormed at hw
  by_cases hemployee : isText "employee_subset" (path scope "type") = true
  · have htype := isText_eq_true_iff.mp hemployee
    rw [if_pos hemployee] at hw
    simp [htype, isText, asString, isTruthy_of_hasLength hw]
  by_cases hperiod : isText "payroll_period" (path scope "type") = true
  · have htype := isText_eq_true_iff.mp hperiod
    rw [if_neg hemployee, if_pos hperiod] at hw
    simp [htype, isText, asString, isTruthy_of_hasLength hw]
  by_cases hdepartment : isText "department" (path scope "type") = true
  · have htype := isText_eq_true_iff.mp hdepartment
    rw [if_neg hemployee, if_neg hperiod, if_pos hdepartment] at hw
    simp [htype, isText, asString, isTruthy_of_hasLength hw]
  simp [hemployee, hperiod, hdepartment]

theorem map_eq_of_allOk {α β : Type} {f : α → Except SdkError β} {g : α → β} (hf : ∀ x b, f x = .ok b → b = g x) :
    ∀ {xs : List α} {bs : List β}, allOk (xs.map f) = .ok bs → bs = xs.map g
  | [], bs, h => by
    cases h
    rfl
  | x :: xs, bs, h => by
    obtain ⟨b, hb, h⟩ := except_bind_eq_ok.mp h
    obtain ⟨rest, hrest, h⟩ := except_bind_eq_ok.mp h
    cases h
    rw [hf x b hb, map_eq_of_allOk hf hrest, List.map_cons]

omit [LE ν] [DecidableLE ν] [Zero ν] [DecidableEq ν] [NumberFormat ν] in
theorem keyIds_eq_ok {keys : Option (Parsed ν)} {ids : List (Option (Parsed ν))}
    (h : keyIds keys = .ok ids) : ids = (itemsOf keys).map (field · "id") := by
  unfold keyIds at h
  split at h
  · refine map_eq_of_allOk (fun key id hid => ?_) h
    cases key <;> cases hid <;> rfl
  · cases h

/-- A valid verdict means what it should exactly for a package that keeps to its
scope, expires at a number if at all and names a key for each proof, or which
fails one of the checks. -/
theorem valid_enforces_iff (sha256 : String → List UInt8) (c : Conversions ν) (p : Parsed ν)
    (now : JsNumber ν) :
    (ReportsValid (verifyReceived sha256 c p now) → Enforced p now) ↔
      KeepsToScope p now ∨ ¬Received sha256 c p now := by
  rw [reportsValid_iff]
  by_cases hc : Received sha256 c p now
  · rw [or_iff_left (not_not.mpr hc)]
    constructor
    · intro h
      obtain ⟨hscope, htime, hnames⟩ := h hc
      refine ⟨List.all_eq_true.mpr fun x hx => (keeps_iff_liesIn hc.wellFormed).mpr (hscope x hx), ?_,
        List.all_eq_true.mpr fun proof hproof => (hnames proof hproof).1⟩
      cases hexpires : path (field p "disclosureScope") "expiresAt" with
      | none => rfl
      | some time =>
        obtain ⟨n, rfl, hn, hnow, -⟩ := htime time hexpires
        simp [isTime, hn, hnow]
    · intro h _
      refine ⟨fun x hx => (keeps_iff_liesIn hc.wellFormed).mp (List.all_eq_true.mp h.commitments x hx),
        fun time htime => ?_, fun proof hproof => ⟨List.all_eq_true.mp h.names proof hproof, ?_⟩⟩
      · have hnumber := h.time
        have hexpired := hc.notExpired
        rw [htime] at hnumber hexpired
        cases time with
        | num n =>
          simp only [isTime, Bool.and_eq_true, decide_eq_true_eq] at hnumber
          exact ⟨n, rfl, hnumber.1, hnumber.2, Except.ok.inj hexpired⟩
        | _ => cases hnumber
      · obtain ⟨proofs, hproofs, -, ids, hids, hall⟩ := hc.proofs
        rw [hproofs] at hproof
        obtain ⟨id, hid, hsame⟩ := List.any_eq_true.mp (hall proof hproof).2
        rw [keyIds_eq_ok hids] at hid
        obtain ⟨key, hkey, rfl⟩ := List.mem_map.mp hid
        exact ⟨key, hkey, hsame⟩
  · exact iff_of_true (fun h => absurd h hc) (.inr hc)

end Valid

/-! ## Values of the declared type -/

section Typed

variable {c : Conversions ν} {v : Parsed ν}

omit [LE ν] [DecidableLE ν] [Zero ν] in
theorem field_of_required {key s : String} (h : required asString v key = some s) : field v key = some (.str s) := by
  obtain ⟨u, hu, hs⟩ := Option.bind_eq_some_iff.mp h
  cases u <;> cases hs
  exact hu

theorem report_ok (condition : Bool) (message : String) :
    report condition (.ok message) = .ok (complain (condition = true) message) := by
  cases condition <;> rfl

omit [LE ν] [DecidableLE ν] [Zero ν] in
theorem collect_typed {α : Type} {read : Parsed ν → Option α}
    {f : Parsed ν → Except SdkError (List String)} {g : α → List String}
    (hfg : ∀ v a, read v = some a → f v = .ok (g a)) :
    ∀ {items : List (Parsed ν)} {as : List α}, readAll read items = some as →
      collect (items.map f) = .ok (as.flatMap g)
  | [], as, h => by
    cases h
    rfl
  | item :: items, as, h => by
    obtain ⟨a, ha, h⟩ := Option.bind_eq_some_iff.mp h
    obtain ⟨rest, hrest, h⟩ := Option.bind_eq_some_iff.mp h
    cases h
    have hitems := collect_typed hfg hrest
    unfold collect at hitems ⊢
    rw [List.map_cons, allOk, hfg item a ha]
    cases hall : allOk (items.map f) with
    | error e =>
      rw [hall] at hitems
      cases hitems
    | ok errors =>
      rw [hall] at hitems
      exact congrArg (fun l => Except.ok (g a ++ l)) (Except.ok.inj hitems)

omit [LE ν] [DecidableLE ν] [Zero ν] in
theorem property_of_field {key : String} {u : Parsed ν} (h : field v key = some u) :
    property (some v) key = .ok (some u) := by
  cases v <;> first | exact congrArg Except.ok h | cases h

theorem demand_typed {key s message : String} (h : required asString v key = some s) :
    demand (property (some v) key) message = .ok (complain (s = "") message) := by
  rw [property_of_field (field_of_required h)]
  simp [demand, Except.map, isTruthy]

theorem orUnknown_str (s : String) : c.orUnknown (some (.str s)) = .ok (orUnknown s) := by
  by_cases h : s = "" <;> simp [Conversions.orUnknown, orUnknown, isTruthy, Conversions.text, h]

theorem commitmentErrors_typed {commitment : AuditCommitmentReference} (h : readCommitment v = some commitment) :
    commitmentErrors c v = .ok commitment.errors := by
  simp only [readCommitment, Option.bind_eq_bind, Option.bind_eq_some_iff] at h
  obtain ⟨id, hid, employeeId, hemployee, _, -, _, -, commitmentHash, hhash, h⟩ := h
  cases h
  rw [commitmentErrors, property_of_field (field_of_required hid), field_of_required hid, orUnknown_str]
  simp only [allThere, List.all_cons, List.all_nil, field_of_required hid, field_of_required hemployee,
    field_of_required hhash, isTruthy, Except.map, report_ok, AuditCommitmentReference.errors]
  simp [collect, allOk, Except.map, complain, bind, Except.bind, pure, Except.pure]

theorem proofErrors_typed [DecidableEq ν] {keys : List AuditVerificationKeyReference} {proof : AuditProofReference}
    (h : readProof v = some proof) :
    proofErrors c (keys.map fun key => some (.str key.id)) v = .ok (proof.errors keys) := by
  simp only [readProof, Option.bind_eq_bind, Option.bind_eq_some_iff] at h
  obtain ⟨id, hid, proofHash, hproof, verificationKeyId, hkey, circuitId, hcircuit, publicInputHash, hinput, h⟩ := h
  cases h
  have hnamed : (keys.map fun key => (some (.str key.id) : Option (Parsed ν))).any
      (sameValue (some (.str verificationKeyId))) =
        (keys.map AuditVerificationKeyReference.id).contains verificationKeyId := by
    rw [List.any_map, List.contains_eq_any_beq, List.any_map]
    rfl
  rw [proofErrors, property_of_field (field_of_required hid), field_of_required hid, field_of_required hkey, hnamed,
    orUnknown_str]
  simp only [allThere, List.all_cons, List.all_nil, field_of_required hid, field_of_required hproof,
    field_of_required hcircuit, field_of_required hinput, isTruthy, Except.map, Conversions.text, report_ok,
    AuditProofReference.errors]
  simp [collect, allOk, Except.map, complain, bind, Except.bind, pure, Except.pure]

omit [LE ν] [DecidableLE ν] [Zero ν] in
theorem keyIds_typed : ∀ {items : List (Parsed ν)} {keys : List AuditVerificationKeyReference},
    readAll readKey items = some keys → keyIds (some (.arr items)) = .ok (keys.map fun key => some (.str key.id))
  | [], keys, h => by
    cases h
    rfl
  | item :: items, keys, h => by
    obtain ⟨key, hkey, h⟩ := Option.bind_eq_some_iff.mp h
    obtain ⟨rest, hrest, h⟩ := Option.bind_eq_some_iff.mp h
    cases h
    obtain ⟨id, hid, hkey⟩ := Option.bind_eq_some_iff.mp hkey
    cases hkey
    have hids : allOk (items.map fun key => property (some key) "id") = .ok (rest.map fun key => some (.str key.id)) :=
      keyIds_typed hrest
    rw [keyIds, List.map_cons, allOk, property_of_field (field_of_required hid), hids]
    rfl

omit [LE ν] [DecidableLE ν] [Zero ν] in
theorem length_of_readAll {α : Type} {read : Parsed ν → Option α} :
    ∀ {items : List (Parsed ν)} {as : List α}, readAll read items = some as → as.length = items.length
  | [], as, h => by
    cases h
    rfl
  | item :: items, as, h => by
    obtain ⟨a, -, h⟩ := Option.bind_eq_some_iff.mp h
    obtain ⟨rest, hrest, h⟩ := Option.bind_eq_some_iff.mp h
    cases h
    rw [List.length_cons, List.length_cons, length_of_readAll hrest]

theorem hasLength_typed {key : String} {ids : Option (List String)} (h : optional readStrings v key = some ids) :
    hasLength c (field v key) = .ok (decide (0 < (ids.getD []).length)) := by
  unfold optional at h
  cases hfield : field v key with
  | none =>
    rw [hfield] at h
    cases h
    rfl
  | some u =>
    rw [hfield] at h
    obtain ⟨strings, hstrings, rfl⟩ := Option.map_eq_some_iff.mp h
    obtain ⟨items, hitems, hread⟩ := Option.bind_eq_some_iff.mp hstrings
    cases u <;> cases hitems
    rw [hasLength, Option.getD_some, length_of_readAll hread]

theorem isExpired_typed {scope : AuditDisclosureScope ν} (h : readScope v = some scope) (now : JsNumber ν) :
    isExpired c (field v "expiresAt") now = .ok (scope.expired now) := by
  simp only [readScope, Option.bind_eq_bind, Option.bind_eq_some_iff] at h
  obtain ⟨_, -, _, -, _, -, _, -, _, -, expiresAt, hexpires, h⟩ := h
  cases h
  unfold optional at hexpires
  cases hfield : field v "expiresAt" with
  | none =>
    rw [hfield] at hexpires
    cases hexpires
    rfl
  | some u =>
    rw [hfield] at hexpires
    obtain ⟨time, htime, rfl⟩ := Option.map_eq_some_iff.mp hexpires
    cases u <;> cases htime <;> rfl

theorem isWellFormed_typed {scope : AuditDisclosureScope ν} (h : readScope v = some scope) :
    isWellFormed c (some v) = .ok (isDisclosureScopeWellFormed scope) := by
  simp only [readScope, Option.bind_eq_bind, Option.bind_eq_some_iff] at h
  obtain ⟨type, htype, employeeIds, hemployees, payrollPeriodIds, hperiods, departmentIds, hdepartments, reason, hreason,
    _, -, h⟩ := h
  cases h
  have hpath : ∀ key, path (some v) key = field v key := fun _ => rfl
  have htext : ∀ text, isText text (field v "type") = decide (type = text) := by
    intro text
    rw [field_of_required htype]
    exact Bool.eq_iff_iff.mpr (by simp [isText, asString])
  have hgiven : isTruthy (field v "reason") = decide (reason.getD "" ≠ "") := by
    unfold optional at hreason
    cases hfield : field v "reason" with
    | none =>
      rw [hfield] at hreason
      cases hreason
      rfl
    | some u =>
      rw [hfield] at hreason
      obtain ⟨text, htext, rfl⟩ := Option.map_eq_some_iff.mp hreason
      cases u <;> cases htext
      rfl
  simp only [isWellFormed, isDisclosureScopeWellFormed, htext, hpath, hasLength_typed hemployees,
    hasLength_typed hperiods, hasLength_typed hdepartments, hgiven, decide_eq_true_eq]
  split_ifs <;> simp_all

omit [LE ν] [DecidableLE ν] [Zero ν] in
theorem items_of_required {α : Type} {read : Parsed ν → Option α} {key : String} {as : List α}
    (h : required (readList read) v key = some as) :
    ∃ items, field v key = some (.arr items) ∧ readAll read items = some as := by
  obtain ⟨u, hu, h⟩ := Option.bind_eq_some_iff.mp h
  obtain ⟨items, hitems, h⟩ := Option.bind_eq_some_iff.mp h
  cases u <;> cases hitems
  exact ⟨items, hu, h⟩

omit [LE ν] [DecidableLE ν] [Zero ν] in
theorem complain_isText (text s message : String) :
    complain (isText text (some (.str s : Parsed ν)) = false) message = complain (s ≠ text) message := by
  by_cases h : s = text <;> simp [complain, isText, asString, h]

theorem shapeErrors_typed [DecidableEq ν] {p : SelectiveDisclosureAuditPackage ν} (h : readPackage v = some p)
    (now : JsNumber ν) : shapeErrors c v now = .ok (validateAuditPackageShape p false now) := by
  simp only [readPackage, Option.bind_eq_bind, Option.bind_eq_some_iff] at h
  obtain ⟨version, hversion, packageId, hid, payroll, hpayroll, scope, hscope, commitments, hcommitments, proofs, hproofs,
    keys, hkeys, integrityHash, hhash, h⟩ := h
  cases h
  obtain ⟨payrollValue, hpayrollField, hread⟩ := Option.bind_eq_some_iff.mp hpayroll
  obtain ⟨scopeValue, hscope, hscopeRead⟩ := Option.bind_eq_some_iff.mp hscope
  obtain ⟨commitmentItems, hcommitments, hcommitmentsRead⟩ := items_of_required hcommitments
  obtain ⟨proofItems, hproofs, hproofsRead⟩ := items_of_required hproofs
  obtain ⟨keyItems, hkeys, hkeysRead⟩ := items_of_required hkeys
  have htype : required asString scopeValue "type" = some scope.type := by
    simp only [readScope, Option.bind_eq_bind, Option.bind_eq_some_iff] at hscopeRead
    obtain ⟨type, htype, _, -, _, -, _, -, _, -, _, -, h⟩ := hscopeRead
    cases h
    exact htype
  simp only [readPayroll, Option.bind_eq_bind, Option.bind_eq_some_iff] at hread
  obtain ⟨companyId, hcompany, runId, hrun, periodId, hperiod, h⟩ := hread
  cases h
  have hdemand : demand (.ok (field v "integrityHash")) "integrityHash is required." =
      .ok (complain (integrityHash = "") "integrityHash is required.") := by
    rw [field_of_required hhash]
    simp [demand, Except.map, isTruthy]
  have hpath : path (some scopeValue) "expiresAt" = field scopeValue "expiresAt" := rfl
  have hproofErrors : collect (proofItems.map (proofErrors c (keys.map fun key => some (.str key.id)))) =
      .ok (proofs.flatMap (AuditProofReference.errors keys)) :=
    collect_typed (fun _ _ h => proofErrors_typed h) hproofsRead
  have hcommitmentErrors : collect (commitmentItems.map (commitmentErrors c)) =
      .ok (commitments.flatMap AuditCommitmentReference.errors) :=
    collect_typed (fun _ _ h => commitmentErrors_typed h) hcommitmentsRead
  simp only [shapeErrors, demand_typed hid, hpayrollField, demand_typed hcompany, demand_typed hrun, demand_typed hperiod,
    hscope, demand_typed htype, hdemand, hpath, isExpired_typed hscopeRead, isWellFormed_typed hscopeRead, hkeys,
    keyIds_typed hkeysRead, hproofs, hcommitments, iterate, field_of_required hversion]
  simp only [bind, Except.bind, Except.map, hproofErrors, hcommitmentErrors, ← length_of_readAll hproofsRead]
  rw [complain_isText]
  show Except.ok (List.flatten [_, _, _, _, _, _, _, _, _, _, _, _]) = _
  simp [validateAuditPackageShape]

/-- Of a package of the declared type, it is the verifier of such packages. -/
theorem verifyReceived_typed [DecidableEq ν] [NumberFormat ν] (sha256 : String → List UInt8)
    (p : Typed (readPackage (ν := ν))) (now : JsNumber ν) :
    verifyReceived sha256 c p.value now = .ok (verifySelectiveDisclosureAuditPackage sha256 p now) := by
  have hhash : field p.value "integrityHash" = some (.str p.ref.integrityHash) := by
    have h := p.reads
    simp only [readPackage, Option.bind_eq_bind, Option.bind_eq_some_iff] at h
    obtain ⟨_, -, _, -, _, -, _, -, _, -, _, -, _, -, integrityHash, hhash, h⟩ := h
    rw [← Option.some.inj h]
    exact field_of_required hhash
  simp only [verifyReceived, receivedErrors, shapeErrors_typed p.reads, hhash, collect, allOk, bind, Except.bind, pure,
    Except.pure, Except.map, complain_isText]
  simp [verifySelectiveDisclosureAuditPackage, ne_comm]

end Typed

end Values

/-- Conversions that throw. -/
def noConversions : Conversions Int where
  toNumber _ := .error (typeError "Cannot convert object to primitive value")
  toText _ := .error (typeError "Cannot convert object to primitive value")

/-- The package passes, with a commitment outside of its scope. -/
theorem leaking_package_valid :
    ReportsValid (verifyReceived
        (sha256On leakingText "8cb0b99f8528b8ac8cb1b2658c44685b1e521aa2092a5548965688287d1f9c39") noConversions
        leakingPackage.value (.finite 1783000000)) ∧
      ¬Enforced leakingPackage.value (.finite 1783000000) := by
  refine ⟨⟨_, verifyReceived_typed _ leakingPackage _, ?_⟩, fun h => ?_⟩
  · refine verify_valid_iff.mpr ⟨validateAuditPackageShape_eq_nil_iff.mp (by decide), ?_⟩
    rw [calculateAuditPackageIntegrityHash, ← leakingText, sha256On_self]
    decide +kernel
  · have hitems : itemsOf (field leakingPackage.value "commitments") = [(commitmentOf "c2" "employee-2" "h2").value] :=
      rfl
    have hscope := h.inScope (commitmentOf "c2" "employee-2" "h2").value (by rw [hitems]; exact List.mem_singleton_self _)
    have hlisted := hscope.employee rfl
    revert hlisted
    decide

end ZkPayroll.Audit
