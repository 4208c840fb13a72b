import Mathlib.Algebra.Ring.Int.Defs
import ZkPayroll.Framework.Json

/-!
# Compliance holds

The holds of `compliance/types.ts`, and what is done with them:
`parseHoldStatus` reads a hold from a response, `isPayrollActionBlocked` looks
among holds for one that blocks an action. Responses are JSON values with
numbers of type `ν`.

The parser gives a response whose target cannot be read that of a hold on the
employer "unknown", which the checker compares with the ids of the action like
any other. So the check of responses fails closed exactly when all can be read,
or the action is blocked anyway (`failClosed_iff`).
-/

namespace ZkPayroll.Compliance

open Framework

section

/-! ## Data -/

inductive HoldScope where
  | employer
  | period
  | batch
  | employee
  deriving DecidableEq, Repr

inductive HoldState where
  | active
  | released
  | unknown
  deriving DecidableEq, Repr

inductive HoldReasonCode where
  | KYC_REVIEW_PENDING
  | SANCTIONS_SCREENING
  | TAX_WITHHOLDING_DISCREPANCY
  | REGULATORY_INVESTIGATION
  | DUPLICATE_PAYMENT_SUSPECTED
  | MANUAL_REVIEW_REQUESTED
  | OTHER
  deriving DecidableEq, Repr

structure HoldTarget where
  scope : HoldScope
  id : String
  deriving DecidableEq, Repr

variable {ν : Type}

structure ComplianceHold (ν : Type) where
  holdId : String
  target : HoldTarget
  state : HoldState
  reasonCode : HoldReasonCode
  note : Option String := none
  placedBy : String
  placedAt : ν
  releasedBy : Option String := none
  releasedAt : Option ν := none
  releaseReason : Option String := none
  deriving DecidableEq

structure PayrollActionScope where
  employer : String
  period : Option String := none
  batch : Option String := none
  employee : Option String := none

structure HoldCheckResult (ν : Type) where
  blocked : Bool
  hold : Option (ComplianceHold ν) := none
  explanation : String

/-! ## The strings of the enumerations -/

def HoldScope.toString : HoldScope → String
  | .employer => "employer"
  | .period => "period"
  | .batch => "batch"
  | .employee => "employee"

def HoldState.toString : HoldState → String
  | .active => "active"
  | .released => "released"
  | .unknown => "unknown"

def HoldReasonCode.toString : HoldReasonCode → String
  | .KYC_REVIEW_PENDING => "KYC_REVIEW_PENDING"
  | .SANCTIONS_SCREENING => "SANCTIONS_SCREENING"
  | .TAX_WITHHOLDING_DISCREPANCY => "TAX_WITHHOLDING_DISCREPANCY"
  | .REGULATORY_INVESTIGATION => "REGULATORY_INVESTIGATION"
  | .DUPLICATE_PAYMENT_SUSPECTED => "DUPLICATE_PAYMENT_SUSPECTED"
  | .MANUAL_REVIEW_REQUESTED => "MANUAL_REVIEW_REQUESTED"
  | .OTHER => "OTHER"

/-- `VALID_SCOPES`. -/
def validScopes : List HoldScope := [.employer, .period, .batch, .employee]

/-- `VALID_STATES`. -/
def validStates : List HoldState := [.active, .released, .unknown]

/-- `VALID_REASON_CODES`. -/
def validReasonCodes : List HoldReasonCode :=
  [.KYC_REVIEW_PENDING, .SANCTIONS_SCREENING, .TAX_WITHHOLDING_DISCREPANCY, .REGULATORY_INVESTIGATION,
    .DUPLICATE_PAYMENT_SUSPECTED, .MANUAL_REVIEW_REQUESTED, .OTHER]

/-! ## Reading a response -/

/-- The properties of a response; a value that is no object has none of those
that are read. -/
def record : Json ν → List (String × Json ν)
  | .obj fields => fields
  | _ => []

/-- The element of an enumeration that a property names. -/
def namedBy {α : Type} (valid : List α) (toString : α → String) : Option (Json ν) → Option α
  | some (.str s) => valid.find? fun a => toString a == s
  | _ => none

def asNonEmptyString : Option (Json ν) → Option String
  | some (.str s) => if trim s ≠ "" then some s else none
  | _ => none

/-- The numbers of a response are finite. -/
def asFiniteNumber : Option (Json ν) → Option ν
  | some (.num n) => some n
  | _ => none

/-- The scope that a response states. -/
def statedScope (raw : Json ν) : Option HoldScope :=
  namedBy validScopes HoldScope.toString ((record raw).lookup "scope")

/-- The target id that a response states. -/
def statedTargetId (raw : Json ν) : Option String := asNonEmptyString ((record raw).lookup "targetId")

/-- The state that a response states. -/
def statedState (raw : Json ν) : Option HoldState :=
  namedBy validStates HoldState.toString ((record raw).lookup "state")

def parseHoldStatus [Zero ν] (raw : Json ν) : ComplianceHold ν :=
  let record := record raw
  let scope := statedScope raw
  let targetId := statedTargetId raw
  let state : HoldState :=
    match scope, targetId, statedState raw with
    | some _, some _, some state => state
    | _, _, _ => .unknown
  let released := state == .released
  { holdId := (asNonEmptyString (record.lookup "holdId")).getD "unknown"
    target := { scope := scope.getD .employer, id := targetId.getD "unknown" }
    state := state
    reasonCode :=
      (namedBy validReasonCodes HoldReasonCode.toString (record.lookup "reasonCode")).getD .OTHER
    note := asNonEmptyString (record.lookup "note")
    placedBy := (asNonEmptyString (record.lookup "placedBy")).getD "unknown"
    placedAt := (asFiniteNumber (record.lookup "placedAt")).getD 0
    releasedBy := if released then asNonEmptyString (record.lookup "releasedBy") else none
    releasedAt := if released then asFiniteNumber (record.lookup "releasedAt") else none
    releaseReason := if released then asNonEmptyString (record.lookup "releaseReason") else none }

/-! ## Blocking an action -/

/-- `HOLD_REASON_EXPLANATIONS`. -/
def holdReasonExplanation : HoldReasonCode → String
  | .KYC_REVIEW_PENDING =>
    "Payroll is on hold pending identity verification (KYC) review for the affected party."
  | .SANCTIONS_SCREENING => "Payroll is on hold while sanctions/watchlist screening is completed."
  | .TAX_WITHHOLDING_DISCREPANCY =>
    "Payroll is on hold due to a discrepancy in required tax withholding."
  | .REGULATORY_INVESTIGATION => "Payroll is on hold as part of an active regulatory investigation."
  | .DUPLICATE_PAYMENT_SUSPECTED => "Payroll is on hold because a duplicate payment is suspected."
  | .MANUAL_REVIEW_REQUESTED => "Payroll is on hold pending manual review by a compliance officer."
  | .OTHER => "Payroll is on hold for a compliance reason not covered by a standard code."

def explainHold (hold : ComplianceHold ν) : String :=
  let scopeLabel := s!"{hold.target.scope.toString} \"{hold.target.id}\""
  match hold.state with
  | .active =>
    let explanation := holdReasonExplanation hold.reasonCode
    s!"{explanation} (scope: {scopeLabel}, hold {hold.holdId})"
  | .released =>
    let releasedBy := ((hold.releasedBy.filter (· ≠ "")).map (" by " ++ ·)).getD ""
    s!"The hold on {scopeLabel} (hold {hold.holdId}) was released{releasedBy} and no longer blocks payroll."
  | .unknown =>
    s!"The status of hold {hold.holdId} on {scopeLabel} could not be determined. " ++
      "Treating payroll as blocked until the hold status is confirmed."

/-- `SCOPE_CHECK_ORDER`, from the broadest to the narrowest. -/
def scopeCheckOrder : List HoldScope := [.employer, .period, .batch, .employee]

/-- `getId` of `SCOPE_CHECK_ORDER`. -/
def PayrollActionScope.getId (target : PayrollActionScope) : HoldScope → Option String
  | .employer => some target.employer
  | .period => target.period
  | .batch => target.batch
  | .employee => target.employee

def isBlocking (hold : ComplianceHold ν) : Bool := hold.state == .active || hold.state == .unknown

/-- The first hold of a scope that blocks the action. -/
def findBlockingAt (target : PayrollActionScope) (holds : List (ComplianceHold ν)) (scope : HoldScope) :
    Option (ComplianceHold ν) :=
  match target.getId scope with
  | none => none
  | some id => holds.find? fun h => h.target.scope == scope && h.target.id == id && isBlocking h

def findBlockingHold (target : PayrollActionScope) (holds : List (ComplianceHold ν)) :
    Option (ComplianceHold ν) :=
  scopeCheckOrder.findSome? (findBlockingAt target holds)

def isPayrollActionBlocked (target : PayrollActionScope) (holds : List (ComplianceHold ν)) :
    HoldCheckResult ν :=
  match findBlockingHold target holds with
  | none =>
    { blocked := false
      explanation := "No active or unresolved compliance holds apply to this payroll action." }
  | some hold => { blocked := true, hold := some hold, explanation := explainHold hold }

end

section

variable {ν : Type}

/-! ## What the checker finds -/

/-- The hold applies to the action and blocks it. -/
def Blocks (target : PayrollActionScope) (h : ComplianceHold ν) : Prop :=
  target.getId h.target.scope = some h.target.id ∧ isBlocking h = true

/-- How narrow a scope is. -/
def HoldScope.rank : HoldScope → Nat
  | .employer => 0
  | .period => 1
  | .batch => 2
  | .employee => 3

variable {holds : List (ComplianceHold ν)} {target : PayrollActionScope}

theorem findBlockingAt_eq_none_iff {scope : HoldScope} :
    findBlockingAt target holds scope = none ↔ ∀ h ∈ holds, h.target.scope = scope → ¬Blocks target h := by
  unfold findBlockingAt Blocks
  split
  · rename_i hid
    refine iff_of_true rfl fun h _ hs hb => ?_
    rw [hs, hid] at hb
    cases hb.1
  · rename_i id hid
    rw [List.find?_eq_none]
    refine forall₂_congr fun h _ => ?_
    simp only [Bool.and_eq_true, beq_iff_eq, not_and]
    constructor
    · rintro hn rfl hb
      rw [hid] at hb
      exact hn ⟨rfl, (Option.some.inj hb).symm⟩
    · rintro hn ⟨rfl, rfl⟩
      exact hn rfl hid

theorem blocks_of_findBlockingAt {scope : HoldScope} {hold : ComplianceHold ν}
    (h : findBlockingAt target holds scope = some hold) :
    hold ∈ holds ∧ hold.target.scope = scope ∧ Blocks target hold := by
  unfold findBlockingAt at h
  split at h
  · cases h
  · rename_i id hid
    have hmem := List.mem_of_find?_eq_some h
    have hp := List.find?_some h
    simp only [Bool.and_eq_true, beq_iff_eq] at hp
    obtain ⟨⟨rfl, rfl⟩, hb⟩ := hp
    exact ⟨hmem, rfl, hid, hb⟩

/-- An action is blocked exactly when a hold blocks it. -/
theorem isPayrollActionBlocked_iff :
    (isPayrollActionBlocked target holds).blocked = true ↔ ∃ h ∈ holds, Blocks target h := by
  have hnone : findBlockingHold target holds = none ↔ ∀ h ∈ holds, ¬Blocks target h := by
    simp only [findBlockingHold, List.findSome?_eq_none_iff, findBlockingAt_eq_none_iff]
    refine ⟨fun hn h hh => hn h.target.scope ?_ h hh rfl, fun hn _ _ h hh _ => hn h hh⟩
    cases h.target.scope <;> decide
  unfold isPayrollActionBlocked
  cases hf : findBlockingHold target holds with
  | none => simpa using hnone.mp hf
  | some hold =>
    refine iff_of_true rfl ?_
    by_contra hn
    rw [hnone.mpr fun h hh hb => hn ⟨h, hh, hb⟩] at hf
    cases hf

/-- What stands in the order before a scope is broader than it, and what is
broader stands before it. -/
theorem mem_of_rank_lt {pre post : List HoldScope} {scope scope' : HoldScope}
    (h : scopeCheckOrder = pre ++ scope :: post) (hlt : scope'.rank < scope.rank) : scope' ∈ pre := by
  have hsorted : scopeCheckOrder.Pairwise fun s s' => s.rank < s'.rank := by decide
  have hmem : scope' ∈ scopeCheckOrder := by cases scope' <;> decide
  rw [h] at hsorted hmem
  rcases List.mem_append.mp hmem with hpre | hpost
  · exact hpre
  · have hle : scope.rank ≤ scope'.rank := by
      rcases List.mem_cons.mp hpost with rfl | hpost
      · exact le_rfl
      · exact (List.rel_of_pairwise_cons (List.pairwise_append.mp hsorted).2.1 hpost).le
    omega

/-- The hold that is returned blocks the action, and none that blocks it is
broader. -/
theorem broadest_of_blocked {hold : ComplianceHold ν} (h : (isPayrollActionBlocked target holds).hold = some hold) :
    hold ∈ holds ∧ Blocks target hold ∧
      ∀ h ∈ holds, Blocks target h → hold.target.scope.rank ≤ h.target.scope.rank := by
  have hfind : findBlockingHold target holds = some hold := by
    unfold isPayrollActionBlocked at h
    split at h
    · cases h
    · rename_i hold' hf
      rw [hf, ← h]
  obtain ⟨pre, scope, post, horder, hat, hpre⟩ := List.findSome?_eq_some_iff.mp hfind
  obtain ⟨hmem, rfl, hb⟩ := blocks_of_findBlockingAt hat
  refine ⟨hmem, hb, fun h hh hblocks => ?_⟩
  by_contra hlt
  have hnone := hpre h.target.scope (mem_of_rank_lt horder (not_le.mp hlt))
  exact findBlockingAt_eq_none_iff.mp hnone h hh rfl hblocks

/-! ## What is read of a response -/

/-- The state, the scope and the target id of the response can be read. -/
structure Readable (raw : Json ν) : Prop where
  scope : (statedScope raw).isSome = true
  targetId : (statedTargetId raw).isSome = true
  state : (statedState raw).isSome = true

/-- The response releases its hold. -/
structure Released (raw : Json ν) : Prop where
  scope : (statedScope raw).isSome = true
  targetId : (statedTargetId raw).isSome = true
  state : statedState raw = some .released

/-- The response is about something that the action does not touch. -/
structure Elsewhere (target : PayrollActionScope) (raw : Json ν) : Prop where
  scope : (statedScope raw).isSome = true
  targetId : (statedTargetId raw).isSome = true
  other : ∀ scope, statedScope raw = some scope → target.getId scope ≠ statedTargetId raw

variable [Zero ν] {target : PayrollActionScope} {raw : Json ν}

/-- The hold that is read blocks unless the response releases it. -/
theorem isBlocking_parseHoldStatus : isBlocking (parseHoldStatus raw) = true ↔ ¬Released raw := by
  have hrel : Released raw ↔ (parseHoldStatus raw).state = .released := by
    constructor
    · rintro ⟨hs, ht, hst⟩
      obtain ⟨scope, hs⟩ := Option.isSome_iff_exists.mp hs
      obtain ⟨id, ht⟩ := Option.isSome_iff_exists.mp ht
      simp only [parseHoldStatus, hs, ht, hst]
    · intro h
      unfold parseHoldStatus at h
      dsimp only at h
      split at h
      · rename_i hs ht hst
        exact ⟨by rw [hs]; rfl, by rw [ht]; rfl, by rw [hst, h]⟩
      · cases h
  rw [hrel]
  unfold isBlocking
  cases (parseHoldStatus raw).state <;> decide

/-- The hold that is read blocks the action exactly when the response does not
release it and its target, or what stands in for it, is of the action. -/
theorem blocks_parseHoldStatus :
    Blocks target (parseHoldStatus raw) ↔
      target.getId ((statedScope raw).getD .employer) = some ((statedTargetId raw).getD "unknown") ∧
        ¬Released raw :=
  and_congr Iff.rfl isBlocking_parseHoldStatus

/-- A response that can be read and does not block is released or about
something else. -/
theorem Readable.released_or_elsewhere (hr : Readable raw) (hb : ¬Blocks target (parseHoldStatus raw)) :
    Released raw ∨ Elsewhere target raw := by
  by_cases hrel : Released raw
  · exact .inl hrel
  · refine .inr ⟨hr.scope, hr.targetId, fun scope hs ht => hb (blocks_parseHoldStatus.mpr ⟨?_, hrel⟩)⟩
    obtain ⟨id, hid⟩ := Option.isSome_iff_exists.mp hr.targetId
    rw [hs, hid]
    exact ht.trans hid

/-- The check of the responses fails closed. -/
structure FailClosed (target : PayrollActionScope) (raws : List (Json ν)) : Prop where
  /-- An action that is not blocked has a response neither against it nor
  unclear. -/
  unblocked : (isPayrollActionBlocked target (raws.map parseHoldStatus)).blocked = false →
    ∀ raw ∈ raws, Released raw ∨ Elsewhere target raw
  unreadable : ∀ raw ∈ raws, ¬Readable raw →
    (isPayrollActionBlocked target (raws.map parseHoldStatus)).blocked = true
  broadest : (isPayrollActionBlocked target (raws.map parseHoldStatus)).blocked = true →
    ∃ hold ∈ raws.map parseHoldStatus,
      (isPayrollActionBlocked target (raws.map parseHoldStatus)).hold = some hold ∧ Blocks target hold ∧
        ∀ h ∈ raws.map parseHoldStatus, Blocks target h → hold.target.scope.rank ≤ h.target.scope.rank

/-- The check fails closed exactly when all responses can be read, or one that
is not released has a target of the action, or a stand-in for one. -/
theorem failClosed_iff (target : PayrollActionScope) (raws : List (Json ν)) :
    FailClosed target raws ↔
      (∀ raw ∈ raws, Readable raw) ∨ ∃ raw ∈ raws, ¬Released raw ∧
        target.getId ((statedScope raw).getD .employer) = some ((statedTargetId raw).getD "unknown") := by
  have hblocked : (isPayrollActionBlocked target (raws.map parseHoldStatus)).blocked = true ↔
      ∃ raw ∈ raws, ¬Released raw ∧
        target.getId ((statedScope raw).getD .employer) = some ((statedTargetId raw).getD "unknown") := by
    rw [isPayrollActionBlocked_iff]
    simp only [List.mem_map, exists_exists_and_eq_and, blocks_parseHoldStatus]
    exact exists_congr fun raw => and_congr_right fun _ => and_comm
  rw [← hblocked]
  constructor
  · intro h
    by_contra hn
    rw [not_or] at hn
    obtain ⟨hread, hb⟩ := hn
    exact hread fun raw hraw => by_contra fun hr => hb (h.unreadable raw hraw hr)
  · intro h
    refine ⟨fun hb raw hraw => ?_, fun raw hraw hr => ?_, fun hb => ?_⟩
    · have hread := h.resolve_right (by rw [hb]; decide) raw hraw
      refine hread.released_or_elsewhere fun hblocks => ?_
      have := isPayrollActionBlocked_iff.mpr ⟨_, List.mem_map_of_mem hraw, hblocks⟩
      rw [hb] at this
      cases this
    · exact h.resolve_left fun hread => hr (hread raw hraw)
    · cases hhold : (isPayrollActionBlocked target (raws.map parseHoldStatus)).hold with
      | none =>
        unfold isPayrollActionBlocked at hb hhold
        split at hb
        · cases hb
        · rename_i hf
          rw [hf] at hhold
          cases hhold
      | some hold =>
        obtain ⟨hmem, hblocks, hbroad⟩ := broadest_of_blocked hhold
        exact ⟨hold, hmem, rfl, hblocks, hbroad⟩

/-- A hold on an employer whose id was lost. -/
def holdWithoutTarget : Json Int :=
  .obj [("holdId", .str "h1"), ("scope", .str "employer"), ("state", .str "active"),
    ("placedBy", .str "ops")]

/-- It does not block the payroll of the employer. -/
theorem acme_not_blocked :
    (isPayrollActionBlocked { employer := "acme" } [parseHoldStatus holdWithoutTarget]).blocked = false ∧
      ¬Readable holdWithoutTarget := by
  have hmissing : (statedTargetId holdWithoutTarget).isSome = false := rfl
  refine ⟨by decide, fun h => ?_⟩
  rw [h.targetId] at hmissing
  cases hmissing

end

end ZkPayroll.Compliance
