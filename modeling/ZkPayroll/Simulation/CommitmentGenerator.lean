import ZkPayroll.Framework.Json
import ZkPayroll.Framework.Separated

/-!
# Salary commitments

`generateCommitments` of `simulation/commitmentGenerator.ts`: the SHA-256 of
an employee's id and address, the period, the salary and the asset, joined by
`|`. What can be taken for the salary is a decimal integer, so a `|` in the
asset does harm only if such an integer stands before another `|` in it
(`SalaryUnambiguous`, `salary_fields_eq`, `salary_ambiguous`).
-/

namespace ZkPayroll.Simulation

open Framework

/-- `SimulationEmployeeRecord`, with the salary a `bigint`. -/
structure SimulationEmployeeRecord where
  id : String
  address : String
  salaryAmount : Int
  asset : String
  deriving DecidableEq

/-- `PayrollPeriodMetadata`. -/
structure PayrollPeriodMetadata where
  periodId : String
  startDate : String
  endDate : String
  deriving DecidableEq

/-- `SalaryCommitment`. -/
structure SalaryCommitment where
  employeeId : String
  commitmentHash : String
  asset : String
  deriving DecidableEq

/-- What `computeCommitmentHash` hashes. -/
def commitmentPayload (employee : SimulationEmployeeRecord) (period : PayrollPeriodMetadata) : String :=
  "|".intercalate
    ["zkpayroll-commitment-v1", employee.id, employee.address, period.periodId,
      String.ofList (integerText employee.salaryAmount), employee.asset]

/-- `computeCommitmentHash(employee, period)`, where `sha256` is the hash of
the UTF-8 encoding of a string. -/
def computeCommitmentHash (sha256 : String → List UInt8) (employee : SimulationEmployeeRecord)
    (period : PayrollPeriodMetadata) : String :=
  "commit:" ++ String.ofList (hexEncode (sha256 (commitmentPayload employee period)))

/-- `generateCommitments(employees, period)`. -/
def generateCommitments (sha256 : String → List UInt8) (employees : List SimulationEmployeeRecord)
    (period : PayrollPeriodMetadata) : List SalaryCommitment :=
  employees.map fun emp =>
    { employeeId := emp.id
      commitmentHash := computeCommitmentHash sha256 emp period
      asset := emp.asset }

/-- An employee in a period. -/
structure Line where
  employee : SimulationEmployeeRecord
  period : PayrollPeriodMetadata
  deriving DecidableEq

/-- `generateCommitments` gives the line this hash, in some list of
employees. -/
def CommitsTo (sha256 : String → List UInt8) (line : Line) (hash : String) : Prop :=
  ∃ (employees : List SimulationEmployeeRecord) (i : Nat) (commitment : SalaryCommitment),
    employees[i]? = some line.employee ∧
      (generateCommitments sha256 employees line.period)[i]? = some commitment ∧
        commitment.commitmentHash = hash

/-- The lines agree in what a commitment covers. -/
structure SameLine (l m : Line) : Prop where
  id : l.employee.id = m.employee.id
  address : l.employee.address = m.employee.address
  periodId : l.period.periodId = m.period.periodId
  salaryAmount : l.employee.salaryAmount = m.employee.salaryAmount
  asset : l.employee.asset = m.employee.asset

/-- A decimal integer stands between two separators, or at the start, of the
text. -/
def HasIntegerField (cs : List Char) : Prop :=
  ∃ (n : Int) (post : List Char), cs = integerText n ++ '|' :: post ∨
    ∃ pre, cs = pre ++ '|' :: (integerText n ++ '|' :: post)

/-- No field before the salary has a `|`, and the asset has none after a
decimal integer. -/
structure SalaryUnambiguous (l : Line) : Prop where
  id : '|' ∉ l.employee.id.toList
  address : '|' ∉ l.employee.address.toList
  periodId : '|' ∉ l.period.periodId.toList
  asset : ¬HasIntegerField l.employee.asset.toList

variable (l : Line)

/-- The fields before the salary. -/
def Line.leading : List (List Char) :=
  [l.employee.id.toList, l.employee.address.toList, l.period.periodId.toList]

/-- What is written of the salary and the asset. -/
def Line.trailing : List Char :=
  integerText l.employee.salaryAmount ++ '|' :: l.employee.asset.toList

/-- What is written after the prefix. -/
def Line.text : List Char := separate '|' l.leading ++ '|' :: l.trailing

theorem toList_commitmentPayload :
    (commitmentPayload l.employee l.period).toList = "zkpayroll-commitment-v1".toList ++ l.text := by
  have h := toList_intercalate_cons '|' "zkpayroll-commitment-v1"
    [l.employee.id, l.employee.address, l.period.periodId,
      String.ofList (integerText l.employee.salaryAmount), l.employee.asset]
  refine h.trans ?_
  simp [Line.text, Line.leading, Line.trailing]

/-- The hash of a line does not depend on the list that it is in. -/
theorem commitsTo_iff {sha256 : String → List UInt8} {l : Line} {hash : String} :
    CommitsTo sha256 l hash ↔ computeCommitmentHash sha256 l.employee l.period = hash := by
  constructor
  · rintro ⟨employees, i, commitment, hemp, hgen, rfl⟩
    rw [generateCommitments, List.getElem?_map, hemp] at hgen
    cases hgen
    rfl
  · rintro rfl
    exact ⟨[l.employee], 0, ⟨l.employee.id, computeCommitmentHash sha256 l.employee l.period, l.employee.asset⟩,
      rfl, rfl, rfl⟩

/-- Where SHA-256 does not collide, lines have one hash exactly when they are
written alike. -/
theorem computeCommitmentHash_eq_iff {sha256 : String → List UInt8} (hsha : Function.Injective sha256)
    {l m : Line} :
    computeCommitmentHash sha256 l.employee l.period = computeCommitmentHash sha256 m.employee m.period ↔
      l.text = m.text := by
  simp only [computeCommitmentHash, String.append_right_inj, String.ofList_inj, hexEncode_injective.eq_iff,
    hsha.eq_iff]
  rw [← String.toList_inj, toList_commitmentPayload, toList_commitmentPayload, List.append_right_inj]

theorem bar_notMem_integerText (n : Int) : '|' ∉ integerText n := by
  intro h
  have := NumberFormat.toText_chars n _ h
  revert this
  decide

theorem integerText_injective {m n : Int} (h : integerText m = integerText n) : m = n := by
  rw [← readInteger_integerText m, h, readInteger_integerText]

/-- The fields of an unambiguous line are found again. -/
theorem salary_fields_eq {l m : Line} (hu : SalaryUnambiguous l) (h : m.text = l.text) : SameLine m l := by
  have hfree : ∀ x ∈ l.leading, '|' ∉ x := by
    simpa [Line.leading] using ⟨hu.id, hu.address, hu.periodId⟩
  have hbar := bar_notMem_integerText l.employee.salaryAmount
  have hlen : l.leading.length = m.leading.length := rfl
  rcases separate_append_cases hlen hfree h.symm with ⟨hlead, htrail⟩ | ⟨mid, -, hmid⟩
  · simp only [Line.leading, List.cons.injEq, String.toList_inj, and_true] at hlead
    have htail : ∀ {s : String}, ∀ c ∈ ('|' :: s.toList).head?, c = '|' := by simp
    obtain ⟨hnum, hasset⟩ := eq_of_append_eq hbar (bar_notMem_integerText m.employee.salaryAmount)
      htail htail htrail
    exact ⟨hlead.1.symm, hlead.2.1.symm, hlead.2.2.symm, (integerText_injective hnum).symm,
      (String.toList_inj.mp (List.cons.inj hasset).2).symm⟩
  · -- the leading fields of the other line reach into the asset
    unfold Line.trailing at hmid
    rcases append_cons_eq_cases hmid with ⟨-, hasset⟩ | ⟨es, hnum, -⟩ | ⟨es, -, hasset⟩
    · exact absurd ⟨_, _, .inl hasset⟩ hu.asset
    · exact absurd (by rw [hnum]; simp) hbar
    · exact absurd ⟨_, _, .inr ⟨es, hasset⟩⟩ hu.asset

/-- Text moves across a `|` into the field beside it, and fields move across a
decimal integer in the asset. -/
theorem salary_ambiguous {l : Line} (hu : ¬SalaryUnambiguous l) : ∃ m : Line, m.text = l.text ∧ ¬SameLine m l := by
  obtain ⟨employee, period⟩ := l
  by_cases hid : '|' ∈ employee.id.toList
  · obtain ⟨pre, post, hsplit⟩ := List.append_of_mem hid
    refine ⟨⟨{ employee with
      id := String.ofList pre
      address := String.ofList (post ++ '|' :: employee.address.toList) }, period⟩, ?_, fun h => ?_⟩
    · simp [Line.text, Line.leading, Line.trailing, hsplit]
    · have := congrArg String.toList h.id
      simp [hsplit] at this
  by_cases haddress : '|' ∈ employee.address.toList
  · obtain ⟨pre, post, hsplit⟩ := List.append_of_mem haddress
    refine ⟨⟨{ employee with address := String.ofList pre },
      { period with periodId := String.ofList (post ++ '|' :: period.periodId.toList) }⟩, ?_, fun h => ?_⟩
    · simp [Line.text, Line.leading, Line.trailing, hsplit]
    · have := congrArg String.toList h.address
      simp [hsplit] at this
  by_cases hperiod : '|' ∈ period.periodId.toList
  · obtain ⟨pre, post, hsplit⟩ := List.append_of_mem hperiod
    refine ⟨⟨{ employee with address := String.ofList (employee.address.toList ++ '|' :: pre) },
      { period with periodId := String.ofList post }⟩, ?_, fun h => ?_⟩
    · simp [Line.text, Line.leading, Line.trailing, hsplit]
    · have := congrArg String.toList h.address
      simp at this
  by_cases hasset : HasIntegerField employee.asset.toList
  · -- the integer in the asset is taken for the salary, and what is before it for the period
    obtain ⟨n, post, hfirst | ⟨pre, hlater⟩⟩ := hasset
    · refine ⟨⟨{ id := String.ofList (employee.id.toList ++ '|' :: employee.address.toList)
                 address := period.periodId
                 salaryAmount := n
                 asset := String.ofList post },
        { period with periodId := String.ofList (integerText employee.salaryAmount) }⟩, ?_, fun h => ?_⟩
      · simp [Line.text, Line.leading, Line.trailing, hfirst]
      · have := congrArg String.toList h.id
        simp at this
    · refine ⟨⟨{ id := String.ofList (employee.id.toList ++ '|' :: employee.address.toList)
                 address := period.periodId
                 salaryAmount := n
                 asset := String.ofList post },
        { period with periodId := String.ofList (integerText employee.salaryAmount ++ '|' :: pre) }⟩, ?_, fun h => ?_⟩
      · simp [Line.text, Line.leading, Line.trailing, hlater]
      · have := congrArg String.toList h.id
        simp at this
  exact absurd ⟨hid, haddress, hperiod, hasset⟩ hu

end ZkPayroll.Simulation
