import ZkPayroll.Framework.Firsts
import ZkPayroll.Framework.Grouping
import ZkPayroll.Framework.UnionFind
import ZkPayroll.Import.FuzzyMatch

/-!
# Clusters of duplicate records

`detectDuplicateClusters` of `import/ImportDuplicateClusterDetector.ts`. The
evidence is collected first here and then given to the sink, in the same order.
The redacted previews of the members are left out.
-/

namespace ZkPayroll.Import

open Framework

variable {ν : Type}

/-! ## Data -/

/-- A salary as it is imported. -/
inductive Salary (ν : Type) where
  | bigint (n : Int)
  | number (n : JsNumber ν)
  | text (s : String)

/-- A field that is absent is `none`. -/
structure ImportEmployeeRecord (ν : Type) where
  employeeId : Option String := none
  walletAddress : Option String := none
  emailHash : Option String := none
  externalId : Option String := none
  name : Option String := none
  department : Option String := none
  salary : Option (Salary ν) := none
  asset : Option String := none

inductive DuplicateConfidence where
  | exact
  | high
  | medium
  | low
  deriving DecidableEq, Repr

/-- `CONFIDENCE_RANK`. -/
def DuplicateConfidence.rank : DuplicateConfidence → Nat
  | .exact => 3
  | .high => 2
  | .medium => 1
  | .low => 0

inductive DuplicateReasonCode where
  | exact_employee_id
  | exact_wallet_address
  | exact_email_hash
  | exact_external_id
  | case_insensitive_employee_id
  | case_insensitive_wallet_address
  | case_insensitive_external_id
  | same_name_department_salary_asset
  | similar_name_same_department
  | similar_name_same_salary_asset
  | similar_name_only
  deriving DecidableEq, Repr

def DuplicateReasonCode.toString : DuplicateReasonCode → String
  | .exact_employee_id => "exact_employee_id"
  | .exact_wallet_address => "exact_wallet_address"
  | .exact_email_hash => "exact_email_hash"
  | .exact_external_id => "exact_external_id"
  | .case_insensitive_employee_id => "case_insensitive_employee_id"
  | .case_insensitive_wallet_address => "case_insensitive_wallet_address"
  | .case_insensitive_external_id => "case_insensitive_external_id"
  | .same_name_department_salary_asset => "same_name_department_salary_asset"
  | .similar_name_same_department => "similar_name_same_department"
  | .similar_name_same_salary_asset => "similar_name_same_salary_asset"
  | .similar_name_only => "similar_name_only"

inductive DuplicateMatchField where
  | employeeId
  | walletAddress
  | emailHash
  | externalId
  | name
  deriving DecidableEq, Repr

def DuplicateMatchField.toString : DuplicateMatchField → String
  | .employeeId => "employeeId"
  | .walletAddress => "walletAddress"
  | .emailHash => "emailHash"
  | .externalId => "externalId"
  | .name => "name"

inductive DuplicateMatchKind where
  | exact
  | normalized
  | fuzzy
  deriving DecidableEq, Repr

structure DuplicateMatchEvidence where
  leftIndex : Nat
  rightIndex : Nat
  field : DuplicateMatchField
  kind : DuplicateMatchKind
  confidence : DuplicateConfidence
  reason : DuplicateReasonCode
  deriving DecidableEq, Repr

structure DuplicateCluster where
  id : String
  memberIndices : List Nat
  confidence : DuplicateConfidence
  reasons : List DuplicateReasonCode
  evidence : List DuplicateMatchEvidence
  deriving DecidableEq, Repr

structure DuplicateClusterOptions (ν : Type) where
  fuzzyNameThreshold : Option (JsNumber ν) := none
  treatNormalizedAsExact : Option Bool := none
  minClusterSize : Option (JsNumber ν) := none

structure ImportDuplicateAnalysis where
  clusters : List DuplicateCluster
  totalRecords : Nat
  duplicateRowCount : Nat
  hasDuplicates : Bool
  deriving DecidableEq, Repr

/-- What the detector uses of the language. -/
structure Runtime (ν : Type) where
  toLowerCase : String → String
  /-- `String(n)`. -/
  numberToString : ν → String
  /-- `a.localeCompare(b)`. -/
  localeCompare : String → String → Int

/-! ## Evidence of identity -/

/-- A field by which records are identified, with the reasons that it gives. -/
structure IdentityTarget where
  field : DuplicateMatchField
  exactReason : DuplicateReasonCode
  normalizedReason : Option DuplicateReasonCode

/-- The fields by which records are matched. -/
def identityTargets : List IdentityTarget :=
  [⟨.employeeId, .exact_employee_id, some .case_insensitive_employee_id⟩,
    ⟨.walletAddress, .exact_wallet_address, some .case_insensitive_wallet_address⟩,
    ⟨.emailHash, .exact_email_hash, none⟩,
    ⟨.externalId, .exact_external_id, some .case_insensitive_external_id⟩]

def ImportEmployeeRecord.get (record : ImportEmployeeRecord ν) : DuplicateMatchField → Option String
  | .employeeId => record.employeeId
  | .walletAddress => record.walletAddress
  | .emailHash => record.emailHash
  | .externalId => record.externalId
  | .name => record.name

def safeString : Option String → String
  | some value => trim value
  | none => ""

/-- All pairs of a list, the earlier element first. -/
def pairs {α : Type} : List α → List (α × α)
  | [] => []
  | a :: l => l.map (fun b => (a, b)) ++ pairs l

/-- `Math.min(...indices)`. -/
def minIndex (indices : List Nat) : Nat := indices.min?.getD 0

/-- The indices of a group, with the normalized text. -/
def withNormalized (toLowerCase : String → String) (g : String × List Nat) : List (String × Nat) :=
  match normalizeIdentifier toLowerCase (some g.1) with
  | none => []
  | some normalized => g.2.map fun i => (normalized, i)

section Identity

variable (records : List (ImportEmployeeRecord ν))

/-- `records[i][field]`. -/
def fieldAt (field : DuplicateMatchField) (i : Nat) : Option String := records[i]?.bind fun r => r.get field

/-- `safeString(records[i][field])`. -/
def rawAt (field : DuplicateMatchField) (i : Nat) : String := safeString (fieldAt records field i)

/-- Records grouped by the text of a field. -/
def rawGroups (field : DuplicateMatchField) : List (String × List Nat) :=
  groupBy (rawAt records field) id ((List.range records.length).filter fun i => rawAt records field i ≠ "")

/-- Pass 1: records with the same text. -/
def exactEvidence (target : IdentityTarget) : List DuplicateMatchEvidence :=
  (rawGroups records target.field).flatMap fun g => (consecutive g.2).map fun e =>
    { leftIndex := e.1
      rightIndex := e.2
      field := target.field
      kind := .exact
      confidence := .exact
      reason := target.exactReason }

variable (toLowerCase : String → String)

/-- The indices with the normalized texts of their groups. -/
def normalizedIndices (field : DuplicateMatchField) : List (String × Nat) :=
  (rawGroups records field).flatMap (withNormalized toLowerCase)

/-- `sortedNormalizedGroups(normalizedGroups)`. -/
def sortedNormalizedGroups (field : DuplicateMatchField) : List (String × List Nat) :=
  (groupBy Prod.fst Prod.snd (normalizedIndices records toLowerCase field)).insertionSort fun f g =>
    minIndex f.2 ≤ minIndex g.2

/-- Pass 2: records with texts that differ and are normalized alike. -/
def normalizedEvidence (normalizedAsExact : Bool) (field : DuplicateMatchField)
    (reason : DuplicateReasonCode) : List DuplicateMatchEvidence :=
  (sortedNormalizedGroups records toLowerCase field).flatMap fun g => (pairs g.2).filterMap fun e =>
    if rawAt records field e.1 = rawAt records field e.2 then none
    else some
      { leftIndex := e.1
        rightIndex := e.2
        field := field
        kind := .normalized
        confidence := if normalizedAsExact then .exact else .high
        reason := reason }

def collectIdentityEvidence (normalizedAsExact : Bool) : List DuplicateMatchEvidence :=
  identityTargets.flatMap fun target =>
    exactEvidence records target ++
      match target.normalizedReason with
      | none => []
      | some reason => normalizedEvidence records toLowerCase normalizedAsExact target.field reason

end Identity

/-! ## Evidence of names -/

/-- `/^\d+(\.\d+)?$/.test(s)`. -/
def isDecimal (cs : List Char) : Bool :=
  let whole := cs.takeWhile Char.isDigit
  let rest := cs.dropWhile Char.isDigit
  !whole.isEmpty &&
    match rest with
    | [] => true
    | c :: fraction => c == '.' && !fraction.isEmpty && fraction.all Char.isDigit

def normalizeAmount (rt : Runtime ν) : Option (Salary ν) → Option String
  | some (.bigint n) => some (toString n)
  | some (.number (.finite n)) => some (rt.numberToString n)
  | some (.text s) => if isDecimal (trimChars s.toList) then some (trim s) else none
  | _ => none

/-- `a !== null && a === b`. -/
def agree (a b : Option String) : Bool := a.isSome && a == b

/-- The confidence and the reason for records with similar names. -/
def nameEvidence (rt : Runtime ν) (left right : ImportEmployeeRecord ν) :
    DuplicateConfidence × DuplicateReasonCode :=
  let normalize := normalizeIdentifier rt.toLowerCase
  let sameDepartment := agree (normalize left.department) (normalize right.department)
  let sameSalaryAsset := agree (normalizeAmount rt left.salary) (normalizeAmount rt right.salary) &&
    agree (normalize left.asset) (normalize right.asset)
  if sameDepartment && sameSalaryAsset then (.high, .same_name_department_salary_asset)
  else if sameDepartment then (.medium, .similar_name_same_department)
  else if sameSalaryAsset then (.medium, .similar_name_same_salary_asset)
  else (.low, .similar_name_only)

section Detect

variable [LE ν] [DecidableLE ν] [NatCast ν] (rt : Runtime ν) (records : List (ImportEmployeeRecord ν))

def collectFuzzyNameEvidence (threshold : JsNumber ν) : List DuplicateMatchEvidence :=
  (pairs (List.range records.length)).filterMap fun e =>
    if namesAreSimilar rt.toLowerCase (fieldAt records .name e.1) (fieldAt records .name e.2) threshold then
      let found := nameEvidence rt (records.getD e.1 {}) (records.getD e.2 {})
      some
        { leftIndex := e.1
          rightIndex := e.2
          field := .name
          kind := .fuzzy
          confidence := found.1
          reason := found.2 }
    else none

/-! ## Clusters -/

/-- The sets that the evidence unites. -/
def unionRecords (evidence : List DuplicateMatchEvidence) : UnionFind :=
  evidence.foldl (fun u e => u.union e.leftIndex e.rightIndex) UnionFind.init

/-- `groupsByRoot`: `find` changes the structure as it goes. -/
def groupsByRoot (u : UnionFind) (indices : List Nat) : List (Nat × List Nat) :=
  (indices.foldl (fun s i => ((s.1.find i).2, pushToGroup s.2 (s.1.find i).1 i)) (u, [])).2

/-- `compareEvidence(a, b)`. -/
def compareEvidence (a b : DuplicateMatchEvidence) : Int :=
  if a.leftIndex ≠ b.leftIndex then a.leftIndex - b.leftIndex
  else if a.rightIndex ≠ b.rightIndex then a.rightIndex - b.rightIndex
  else if a.field ≠ b.field then rt.localeCompare a.field.toString b.field.toString
  else rt.localeCompare a.reason.toString b.reason.toString

/-- The stronger confidence, the first of two that are as strong. -/
def strongest (confidence : DuplicateConfidence) (item : DuplicateMatchEvidence) : DuplicateConfidence :=
  if item.confidence.rank > confidence.rank then item.confidence else confidence

/-- `s.padStart(3, "0")`. -/
def padStart3 (s : String) : String := String.ofList (List.replicate (3 - s.length) '0') ++ s

def buildCluster (evidenceByPair : List DuplicateMatchEvidence) (members : List Nat) (clusterOrdinal : Nat) :
    DuplicateCluster :=
  let evidence := evidenceByPair.filter fun e => e.leftIndex ∈ members ∧ e.rightIndex ∈ members
  { id := "dup-" ++ padStart3 (toString (clusterOrdinal + 1))
    memberIndices := members.insertionSort fun a b => a ≤ b
    confidence := evidence.foldl strongest .low
    reasons := (firsts id [] (evidence.map (·.reason))).insertionSort fun a b => leUnits a.toString b.toString
    evidence := evidence.insertionSort fun a b => compareEvidence rt a b ≤ 0 }

/-- The members of the clusters, ordered by the first of them. -/
def pendingClusters (u : UnionFind) (minClusterSize : JsNumber ν) : List (List Nat) :=
  let groups := (groupsByRoot u (List.range records.length)).map (·.2)
  (groups.filter fun members => JsNumber.le minClusterSize (.finite (members.length : ν))).insertionSort
    fun a b => minIndex a ≤ minIndex b

def buildClusters (u : UnionFind) (evidenceByPair : List DuplicateMatchEvidence) (minClusterSize : JsNumber ν) :
    List DuplicateCluster :=
  (pendingClusters records u minClusterSize).zipIdx.map fun f => buildCluster rt evidenceByPair f.1 f.2

variable (options : DuplicateClusterOptions ν)

/-- `Math.max(options.minClusterSize ?? 2, 2)`. -/
def minClusterSize : JsNumber ν :=
  JsNumber.max (options.minClusterSize.getD (.finite ((2 : Nat) : ν))) (.finite ((2 : Nat) : ν))

/-- `options.fuzzyNameThreshold ?? 2`. -/
def fuzzyThreshold : JsNumber ν := options.fuzzyNameThreshold.getD (.finite ((2 : Nat) : ν))

/-- All evidence, in the order in which the sink receives it. -/
def collectEvidence : List DuplicateMatchEvidence :=
  collectIdentityEvidence records rt.toLowerCase (options.treatNormalizedAsExact.getD false) ++
    collectFuzzyNameEvidence rt records (fuzzyThreshold options)

def detectDuplicateClusters : ImportDuplicateAnalysis :=
  let evidence := collectEvidence rt records options
  -- the first piece of evidence for each pair is kept
  let evidenceByPair := firsts (fun e => (e.leftIndex, e.rightIndex)) [] evidence
  let clusters := buildClusters rt records (unionRecords evidence) evidenceByPair (minClusterSize options)
  { clusters := clusters
    totalRecords := records.length
    duplicateRowCount := (clusters.flatMap (·.memberIndices)).dedup.length
    hasDuplicates := !clusters.isEmpty }

end Detect

end ZkPayroll.Import
