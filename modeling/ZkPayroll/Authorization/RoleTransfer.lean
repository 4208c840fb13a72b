import Mathlib.Algebra.Order.Ring.Int
import ZkPayroll.Framework.JsArithmetic
import ZkPayroll.Sessions.QuorumSessionManager

/-!
# Transfers of a role

The calls of `authorization/roleTransfer.ts`: the holder of a role proposes a
transfer, the nominee accepts it, the holder finalizes or cancels it. A call
returns a new record or an error with its message. The clock is the argument
`now`, and the identifier that `generateId` makes is an argument too.

Anybody attempts to accept, finalize or cancel a transfer, any number of times,
and each call is made with the record of the last call that succeeded
(`run`). In every run the calls that succeed are, in order, an acceptance, then
a finalization or a cancellation, or a cancellation alone (`Tracks`,
`tracks_run`). What is promised of a run (`TransferSafe`) holds in all runs of a
proposal exactly when its window is not `NaN`, which is within the bounds of a
window but never elapses (`transferSafe_iff`).
-/

namespace ZkPayroll.Authorization

open Framework
open Sessions (SignerRole)

variable {ν : Type}

/-! ## Data -/

inductive RoleTransferStatus where
  | pending
  | accepted
  | finalized
  | cancelled
  | expired
  deriving DecidableEq

def RoleTransferStatus.name : RoleTransferStatus → String
  | .pending => "pending"
  | .accepted => "accepted"
  | .finalized => "finalized"
  | .cancelled => "cancelled"
  | .expired => "expired"

structure RoleTransferRecord (ν : Type) where
  id : String
  role : SignerRole
  fromAddress : String
  toAddress : String
  status : RoleTransferStatus
  proposedAt : JsNumber ν
  expiresAt : JsNumber ν
  acceptedAt : Option (JsNumber ν) := none
  finalizedAt : Option (JsNumber ν) := none
  cancelledAt : Option (JsNumber ν) := none
  reason : Option String := none
  deriving DecidableEq

structure ProposeRoleTransferInput (ν : Type) where
  role : String
  fromAddress : String
  toAddress : String
  acceptanceWindowMs : Option (JsNumber ν) := none
  reason : Option String := none

inductive RoleTransferErrorCode where
  | invalid_role
  | same_address
  | invalid_window
  | not_pending
  | not_accepted
  | already_finalized
  | expired
  | not_current_holder
  | not_nominee
  | invalid_address
  deriving DecidableEq

/-- A typed error and its message. -/
structure RoleTransferError where
  error : RoleTransferErrorCode
  message : String
  deriving DecidableEq

abbrev RoleTransferResult (α : Type) := Except RoleTransferError α

def fail {α : Type} (error : RoleTransferErrorCode) (message : String) : RoleTransferResult α :=
  .error ⟨error, message⟩

/-! ## Checks of a proposal -/

def SIGNER_ROLE_GROUPS : List SignerRole :=
  [.payroll_admin, .treasury_operator, .compliance_reviewer, .emergency_approver]

/-- The role that a string names, where `isSignerRole` holds of it. -/
def isSignerRole (value : String) : Option SignerRole := SIGNER_ROLE_GROUPS.find? fun role => role.name == value

def isValidAddress (address : String) : Bool := matchesAddress address

section Propose

variable [CommRing ν] [LinearOrder ν]

/-- 48 hours. -/
def DEFAULT_ACCEPTANCE_WINDOW_MS : JsNumber ν := .finite 172800000

/-- 5 minutes. -/
def MIN_ACCEPTANCE_WINDOW_MS : ν := 300000

/-- 30 days. -/
def MAX_ACCEPTANCE_WINDOW_MS : ν := 2592000000

def proposeRoleTransfer (generatedId : String) (input : ProposeRoleTransferInput ν) (now : JsNumber ν) :
    RoleTransferResult (RoleTransferRecord ν) :=
  match isSignerRole input.role with
  | none => fail .invalid_role ("\"" ++ input.role ++ "\" is not a recognized signer role")
  | some role =>
    if isValidAddress input.fromAddress = false then
      fail .invalid_address "fromAddress must be a valid Stellar/Soroban address"
    else if isValidAddress input.toAddress = false then
      fail .invalid_address "toAddress must be a valid Stellar/Soroban address"
    else if input.fromAddress = input.toAddress then
      fail .same_address "fromAddress and toAddress must be different"
    else
      let windowMs := input.acceptanceWindowMs.getD DEFAULT_ACCEPTANCE_WINDOW_MS
      -- no comparison with `NaN` holds, so it passes both bounds
      if JsNumber.lt windowMs (.finite MIN_ACCEPTANCE_WINDOW_MS) ||
          JsNumber.lt (.finite MAX_ACCEPTANCE_WINDOW_MS) windowMs then
        fail .invalid_window "acceptanceWindowMs must be between 300000 and 2592000000 ms"
      else
        .ok
          { id := generatedId
            role := role
            fromAddress := input.fromAddress
            toAddress := input.toAddress
            status := .pending
            proposedAt := now
            expiresAt := now.add windowMs
            reason := input.reason }

/-- What a proposal is. -/
theorem proposeRoleTransfer_eq_ok {generatedId : String} {input : ProposeRoleTransferInput ν} {now : JsNumber ν}
    {record : RoleTransferRecord ν} (h : proposeRoleTransfer generatedId input now = .ok record) :
    record.status = .pending ∧ record.proposedAt = now ∧
      record.acceptedAt = none ∧ record.finalizedAt = none ∧
      record.expiresAt = now.add (input.acceptanceWindowMs.getD DEFAULT_ACCEPTANCE_WINDOW_MS) ∧
      JsNumber.lt (input.acceptanceWindowMs.getD DEFAULT_ACCEPTANCE_WINDOW_MS)
        (.finite MIN_ACCEPTANCE_WINDOW_MS) = false ∧
      JsNumber.lt (.finite MAX_ACCEPTANCE_WINDOW_MS)
        (input.acceptanceWindowMs.getD DEFAULT_ACCEPTANCE_WINDOW_MS) = false := by
  rw [proposeRoleTransfer] at h
  split at h
  · cases h
  split at h
  · cases h
  split at h
  · cases h
  split at h
  · cases h
  dsimp only at h
  split at h
  · cases h
  · rename_i hwindow
    cases h
    obtain ⟨hmin, hmax⟩ := Bool.or_eq_false_iff.mp (Bool.eq_false_iff.mpr hwindow)
    exact ⟨rfl, rfl, rfl, rfl, rfl, hmin, hmax⟩

end Propose

/-! ## Calls on a proposal -/

section Calls

variable [LinearOrder ν]

def acceptRoleTransfer (record : RoleTransferRecord ν) (acceptorAddress : String) (now : JsNumber ν) :
    RoleTransferResult (RoleTransferRecord ν) :=
  if record.status = .expired ∨ JsNumber.le record.expiresAt now = true then
    fail .expired "Role transfer proposal has expired"
  else if record.status ≠ .pending then
    fail .not_pending ("Role transfer cannot be accepted in \"" ++ record.status.name ++ "\" state")
  else if acceptorAddress ≠ record.toAddress then
    fail .not_nominee "Only the nominated successor may accept this role transfer"
  else
    .ok { record with status := .accepted, acceptedAt := some now }

def finalizeRoleTransfer (record : RoleTransferRecord ν) (finalizerAddress : String) (now : JsNumber ν) :
    RoleTransferResult (RoleTransferRecord ν) :=
  if record.status = .finalized then
    fail .already_finalized "Role transfer has already been finalized"
  else if record.status ≠ .accepted then
    fail .not_accepted ("Role transfer cannot be finalized in \"" ++ record.status.name ++ "\" state")
  else if finalizerAddress ≠ record.fromAddress then
    fail .not_current_holder "Only the original proposer may finalize this role transfer"
  else
    .ok { record with status := .finalized, finalizedAt := some now }

def cancelRoleTransfer (record : RoleTransferRecord ν) (cancellerAddress : String) (now : JsNumber ν) :
    RoleTransferResult (RoleTransferRecord ν) :=
  if record.status = .finalized then
    fail .already_finalized "A finalized role transfer cannot be cancelled"
  else if record.status = .cancelled then
    fail .not_pending "Role transfer is already cancelled"
  else if cancellerAddress ≠ record.fromAddress then
    fail .not_current_holder "Only the original proposer may cancel this role transfer"
  else
    .ok { record with status := .cancelled, cancelledAt := some now }

/-! What a call that succeeds checks and does. -/

variable {record record' : RoleTransferRecord ν} {now : JsNumber ν}

theorem acceptRoleTransfer_eq_ok {acceptorAddress : String}
    (h : acceptRoleTransfer record acceptorAddress now = .ok record') :
    record.status = .pending ∧ JsNumber.le record.expiresAt now = false ∧ acceptorAddress = record.toAddress ∧
      record' = { record with status := .accepted, acceptedAt := some now } := by
  rw [acceptRoleTransfer] at h
  split at h
  · cases h
  rename_i hexpired
  split at h
  · cases h
  rename_i hpending
  split at h
  · cases h
  rename_i hnominee
  cases h
  exact ⟨not_not.mp hpending, Bool.eq_false_iff.mpr (not_or.mp hexpired).2, not_not.mp hnominee, rfl⟩

omit [LinearOrder ν] in
theorem finalizeRoleTransfer_eq_ok {finalizerAddress : String}
    (h : finalizeRoleTransfer record finalizerAddress now = .ok record') :
    record.status = .accepted ∧ finalizerAddress = record.fromAddress ∧
      record' = { record with status := .finalized, finalizedAt := some now } := by
  rw [finalizeRoleTransfer] at h
  split at h
  · cases h
  split at h
  · cases h
  rename_i haccepted
  split at h
  · cases h
  rename_i hholder
  cases h
  exact ⟨not_not.mp haccepted, not_not.mp hholder, rfl⟩

omit [LinearOrder ν] in
theorem cancelRoleTransfer_eq_ok {cancellerAddress : String}
    (h : cancelRoleTransfer record cancellerAddress now = .ok record') :
    record.status ≠ .finalized ∧ record.status ≠ .cancelled ∧
      record' = { record with status := .cancelled, cancelledAt := some now } := by
  rw [cancelRoleTransfer] at h
  split at h
  · cases h
  rename_i hfinalized
  split at h
  · cases h
  rename_i hcancelled
  split at h
  · cases h
  cases h
  exact ⟨hfinalized, hcancelled, rfl⟩

end Calls

/-! ## Runs -/

/-- A call on a transfer. -/
inductive TransferCall where
  | accept
  | finalize
  | cancel
  deriving DecidableEq

/-- A call by somebody at some time. -/
structure Attempt (ν : Type) where
  call : TransferCall
  address : String
  now : JsNumber ν
  deriving DecidableEq

/-- The record of the last call that succeeded, and the calls that did. -/
structure Progress (ν : Type) where
  record : RoleTransferRecord ν
  succeeded : List (Attempt ν)

/-- The record after an acceptance. -/
def acceptedRecord (start : RoleTransferRecord ν) (now : JsNumber ν) : RoleTransferRecord ν :=
  { start with status := .accepted, acceptedAt := some now }

/-- The record after a finalization. -/
def finalizedRecord (start : RoleTransferRecord ν) (acceptedAt now : JsNumber ν) : RoleTransferRecord ν :=
  { start with status := .finalized, acceptedAt := some acceptedAt, finalizedAt := some now }

/-- The record cancelled, accepted before or not. -/
def cancelledRecord (start : RoleTransferRecord ν) (acceptedAt : Option (JsNumber ν)) (now : JsNumber ν) :
    RoleTransferRecord ν :=
  { start with status := .cancelled, acceptedAt := acceptedAt, cancelledAt := some now }

variable [LinearOrder ν]

def Attempt.on (a : Attempt ν) (record : RoleTransferRecord ν) : RoleTransferResult (RoleTransferRecord ν) :=
  match a.call with
  | .accept => acceptRoleTransfer record a.address a.now
  | .finalize => finalizeRoleTransfer record a.address a.now
  | .cancel => cancelRoleTransfer record a.address a.now

/-- A call is tried. -/
def Progress.next (p : Progress ν) (a : Attempt ν) : Progress ν :=
  match a.on p.record with
  | .ok record => ⟨record, p.succeeded ++ [a]⟩
  | .error _ => p

/-- The attempts, one after the other, on a proposal. -/
def run (start : RoleTransferRecord ν) (attempts : List (Attempt ν)) : Progress ν :=
  attempts.foldl Progress.next ⟨start, []⟩

/-- No attempt is earlier than the proposal or than an attempt before it. -/
def NonDecreasing (start : RoleTransferRecord ν) (attempts : List (Attempt ν)) : Prop :=
  (start.proposedAt :: attempts.map Attempt.now).Pairwise fun a b => JsNumber.le a b = true

/-- What a run promises: a finalized transfer was accepted by the nominee
before it expired and then finalized by the holder, with no other call that
succeeded; finalized and cancelled are the end; what is transferred stays, and
the times are in order. -/
structure TransferSafe (start : RoleTransferRecord ν) (attempts : List (Attempt ν)) : Prop where
  finalized : (run start attempts).record.status = .finalized → ∃ t₁ t₂,
    (run start attempts).succeeded =
      [⟨.accept, start.toAddress, t₁⟩, ⟨.finalize, start.fromAddress, t₂⟩] ∧
    JsNumber.lt t₁ start.expiresAt = true ∧
    (run start attempts).record.acceptedAt = some t₁ ∧ (run start attempts).record.finalizedAt = some t₂
  terminal : (run start attempts).record.status ∈ [RoleTransferStatus.finalized, .cancelled] →
    ∀ more, run start (attempts ++ more) = run start attempts
  kept : (run start attempts).record.role = start.role ∧
    (run start attempts).record.fromAddress = start.fromAddress ∧
    (run start attempts).record.toAddress = start.toAddress ∧
    (run start attempts).record.proposedAt = start.proposedAt ∧
    (run start attempts).record.expiresAt = start.expiresAt
  acceptedAt : ∀ t₁, (run start attempts).record.acceptedAt = some t₁ → JsNumber.le start.proposedAt t₁ = true
  finalizedAt : ∀ t₂, (run start attempts).record.finalizedAt = some t₂ →
    ∃ t₁, (run start attempts).record.acceptedAt = some t₁ ∧ JsNumber.le t₁ t₂ = true

/-! ## Steps -/

/-- How far a proposal can have come, and by which calls. -/
inductive Tracks (start : RoleTransferRecord ν) : Progress ν → Prop where
  | pending : Tracks start ⟨start, []⟩
  | accepted {t : JsNumber ν} (unexpired : JsNumber.le start.expiresAt t = false) :
    Tracks start ⟨acceptedRecord start t, [⟨.accept, start.toAddress, t⟩]⟩
  | finalized {t₁ t₂ : JsNumber ν} (unexpired : JsNumber.le start.expiresAt t₁ = false) :
    Tracks start ⟨finalizedRecord start t₁ t₂,
      [⟨.accept, start.toAddress, t₁⟩, ⟨.finalize, start.fromAddress, t₂⟩]⟩
  | cancelled {address : String} {t : JsNumber ν} :
    Tracks start ⟨cancelledRecord start none t, [⟨.cancel, address, t⟩]⟩
  | withdrawn {address : String} {t₁ t₂ : JsNumber ν} :
    Tracks start ⟨cancelledRecord start (some t₁) t₂,
      [⟨.accept, start.toAddress, t₁⟩, ⟨.cancel, address, t₂⟩]⟩

/-- A proposal that nobody has called yet. -/
structure Untouched (start : RoleTransferRecord ν) : Prop where
  status : start.status = .pending
  acceptedAt : start.acceptedAt = none
  finalizedAt : start.finalizedAt = none

variable {start : RoleTransferRecord ν} {p : Progress ν}

/-- A call that succeeds. -/
theorem Tracks.succeed (hs : Untouched start) (h : Tracks start p) {a : Attempt ν} {record : RoleTransferRecord ν}
    (ha : a.on p.record = .ok record) : Tracks start ⟨record, p.succeeded ++ [a]⟩ := by
  obtain ⟨call, address, now⟩ := a
  cases call with
  | accept =>
    obtain ⟨hpending, hunexpired, hnominee, rfl⟩ := acceptRoleTransfer_eq_ok ha
    cases h with
    | pending =>
      rw [show address = start.toAddress from hnominee]
      exact .accepted hunexpired
    | _ => cases hpending
  | finalize =>
    obtain ⟨haccepted, hholder, rfl⟩ := finalizeRoleTransfer_eq_ok ha
    cases h with
    | accepted hunexpired =>
      rw [show address = start.fromAddress from hholder]
      exact .finalized hunexpired
    | pending =>
      have hstatus : start.status = .accepted := haccepted
      rw [hs.status] at hstatus
      cases hstatus
    | _ => cases haccepted
  | cancel =>
    obtain ⟨hfinalized, hcancelled, rfl⟩ := cancelRoleTransfer_eq_ok ha
    cases h with
    | pending =>
      rw [show { start with status := .cancelled, cancelledAt := some now } = cancelledRecord start none now from by
        rw [cancelledRecord, ← hs.acceptedAt]]
      exact .cancelled
    | accepted => exact .withdrawn
    | finalized => exact absurd rfl hfinalized
    | cancelled => exact absurd rfl hcancelled
    | withdrawn => exact absurd rfl hcancelled

theorem Tracks.next (hs : Untouched start) (h : Tracks start p) (a : Attempt ν) : Tracks start (p.next a) := by
  rw [Progress.next]
  split
  case h_1 record ha => exact h.succeed hs ha
  case h_2 => exact h

/-- Every run tracks. -/
theorem tracks_run (hs : Untouched start) (attempts : List (Attempt ν)) : Tracks start (run start attempts) := by
  induction attempts using List.reverseRecOn with
  | nil => exact .pending
  | append_singleton attempts a ih =>
    rw [run, List.foldl_append]
    exact ih.next hs a

/-- No call on a finalized or a cancelled transfer succeeds. -/
theorem Progress.next_of_terminal (h : p.record.status ∈ [RoleTransferStatus.finalized, .cancelled])
    (a : Attempt ν) : p.next a = p := by
  rw [Progress.next]
  split
  case h_2 => rfl
  case h_1 record ha =>
    exfalso
    obtain ⟨call, address, now⟩ := a
    cases call with
    | accept =>
      obtain ⟨hpending, -⟩ := acceptRoleTransfer_eq_ok ha
      rw [hpending] at h
      simp at h
    | finalize =>
      obtain ⟨haccepted, -⟩ := finalizeRoleTransfer_eq_ok ha
      rw [haccepted] at h
      simp at h
    | cancel =>
      obtain ⟨hfinalized, hcancelled, -⟩ := cancelRoleTransfer_eq_ok ha
      simp [hfinalized, hcancelled] at h

variable {attempts : List (Attempt ν)}

theorem run_append_of_terminal (h : (run start attempts).record.status ∈ [RoleTransferStatus.finalized, .cancelled])
    (more : List (Attempt ν)) :
    run start (attempts ++ more) = run start attempts := by
  induction more using List.reverseRecOn with
  | nil => rw [List.append_nil]
  | append_singleton more a ih =>
    rw [← List.append_assoc, run, List.foldl_append]
    show (run start (attempts ++ more)).next a = _
    rw [ih]
    exact Progress.next_of_terminal h a

/-- The calls that succeed are among the attempts, in their order. -/
theorem succeeded_sublist (attempts : List (Attempt ν)) : (run start attempts).succeeded.Sublist attempts := by
  induction attempts using List.reverseRecOn with
  | nil => exact List.Sublist.slnil
  | append_singleton attempts a ih =>
    rw [run, List.foldl_append]
    show ((run start attempts).next a).succeeded.Sublist _
    rw [Progress.next]
    split
    case h_1 => exact ih.append (List.Sublist.refl _)
    case h_2 => exact ih.trans (List.sublist_append_left _ _)

/-- The times of the calls that succeed are in order. -/
theorem NonDecreasing.succeeded (h : NonDecreasing start attempts) :
    (start.proposedAt :: (run start attempts).succeeded.map Attempt.now).Pairwise
      fun a b => JsNumber.le a b = true :=
  h.sublist (((succeeded_sublist attempts).map _).cons_cons _)

/-! ## What a run promises -/

/-- A run of a proposal that expires at a time. -/
theorem transferSafe_of_expires (hs : Untouched start) (hexpires : start.proposedAt.isNaN = false →
      start.expiresAt.isNaN = false) (hmono : NonDecreasing start attempts) :
    TransferSafe start attempts := by
  have htracks := tracks_run hs attempts
  have htimes := hmono.succeeded
  have hterminal : (run start attempts).record.status ∈ [RoleTransferStatus.finalized, .cancelled] → _ :=
    run_append_of_terminal
  generalize hp : run start attempts = p at htracks htimes hterminal
  refine ⟨?finalized, ?terminal, ?kept, ?acceptedAt, ?finalizedAt⟩ <;> rw [hp]
  case finalized =>
    intro hstatus
    cases htracks with
    | pending => rw [hs.status] at hstatus; cases hstatus
    | @finalized t₁ t₂ hunexpired =>
      have hle : JsNumber.le start.proposedAt t₁ = true := List.rel_of_pairwise_cons htimes (by simp)
      obtain ⟨hproposed, ht₁⟩ := JsNumber.not_isNaN_of_le hle
      exact ⟨t₁, t₂, rfl, JsNumber.lt_of_not_le ht₁ (hexpires hproposed) hunexpired, rfl, rfl⟩
    | _ => cases hstatus
  case terminal => exact hterminal
  case kept => cases htracks <;> exact ⟨rfl, rfl, rfl, rfl, rfl⟩
  case acceptedAt =>
    intro t ht
    have hmem : t ∈ p.succeeded.map Attempt.now := by
      cases htracks with
      | pending => rw [hs.acceptedAt] at ht; cases ht
      | cancelled => cases ht
      | _ => cases ht; simp
    exact List.rel_of_pairwise_cons htimes hmem
  case finalizedAt =>
    intro t ht
    cases htracks with
    | pending => rw [hs.finalizedAt] at ht; cases ht
    | finalized =>
      cases ht
      exact ⟨_, rfl, List.rel_of_pairwise_cons htimes.of_cons (by simp)⟩
    | accepted => rw [acceptedRecord, hs.finalizedAt] at ht; cases ht
    | _ => rw [cancelledRecord, hs.finalizedAt] at ht; cases ht

/-- The nominee accepts and the holder finalizes. -/
def takenOver (start : RoleTransferRecord ν) (t : JsNumber ν) : List (Attempt ν) :=
  [⟨.accept, start.toAddress, t⟩, ⟨.finalize, start.fromAddress, t⟩]

theorem run_takenOver (hs : Untouched start) {t : JsNumber ν} (ht : JsNumber.le start.expiresAt t = false) :
    run start (takenOver start t) = ⟨finalizedRecord start t t, takenOver start t⟩ := by
  have haccept : acceptRoleTransfer start start.toAddress t = .ok (acceptedRecord start t) := by
    simp [acceptRoleTransfer, hs.status, ht, acceptedRecord]
  have hfinalize : finalizeRoleTransfer (acceptedRecord start t) start.fromAddress t =
      .ok (finalizedRecord start t t) := by
    simp [finalizeRoleTransfer, acceptedRecord, finalizedRecord]
  simp [run, takenOver, Progress.next, Attempt.on, haccept, hfinalize]

/-- A proposal that never expires is taken over at the time of the proposal. -/
theorem not_transferSafe_of_nan (hs : Untouched start) (ht : start.proposedAt.isNaN = false)
    (hnan : start.expiresAt = .nan) :
    NonDecreasing start (takenOver start start.proposedAt) ∧
      ¬TransferSafe start (takenOver start start.proposedAt) := by
  have hle : JsNumber.le start.proposedAt start.proposedAt = true := JsNumber.le_refl ht
  refine ⟨by simp [NonDecreasing, takenOver, hle], fun hsafe => ?_⟩
  have hrun : run start (takenOver start start.proposedAt) = _ :=
    run_takenOver hs (by rw [hnan]; rfl)
  obtain ⟨t₁, t₂, -, hlt, -⟩ := hsafe.finalized (by rw [hrun]; rfl)
  rw [hnan] at hlt
  cases t₁ <;> cases hlt

section Proposals

variable [CommRing ν]

/-- The runs of a proposal keep what is promised exactly when its window is a
number. -/
theorem transferSafe_iff {generatedId : String} {input : ProposeRoleTransferInput ν} {now : JsNumber ν}
    {start : RoleTransferRecord ν} (h : proposeRoleTransfer generatedId input now = .ok start) :
    (∀ attempts, NonDecreasing start attempts → TransferSafe start attempts) ↔
      now = .nan ∨ input.acceptanceWindowMs ≠ some .nan := by
  obtain ⟨hstatus, hproposed, haccepted, hfinalized, hexpires, hmin, hmax⟩ := proposeRoleTransfer_eq_ok h
  have hs : Untouched start := ⟨hstatus, haccepted, hfinalized⟩
  constructor
  · intro hsafe
    by_contra hnot
    obtain ⟨hnow, hwindow⟩ := not_or.mp hnot
    rw [not_not.mp hwindow, Option.getD_some, JsNumber.add_nan] at hexpires
    have hnan : start.proposedAt.isNaN = false := by
      rw [hproposed]
      cases now with
      | nan => exact absurd rfl hnow
      | _ => rfl
    obtain ⟨hmono, hunsafe⟩ := not_transferSafe_of_nan hs hnan hexpires
    exact hunsafe (hsafe _ hmono)
  · intro hok attempts hmono
    apply transferSafe_of_expires hs _ hmono
    intro hnow
    rw [hproposed] at hnow
    rw [hexpires]
    apply JsNumber.isNaN_add_of_between hnow hmin hmax
    have hwindow : input.acceptanceWindowMs ≠ some .nan :=
      hok.resolve_left fun hnan => by rw [hnan] at hnow; cases hnow
    cases hw : input.acceptanceWindowMs with
    | none => rfl
    | some w =>
      cases w with
      | nan => exact absurd hw hwindow
      | _ => rfl

end Proposals

/-! A proposal with the default window, and one with a window of `NaN`. -/

def adminProposal (acceptanceWindowMs : Option (JsNumber Int)) : ProposeRoleTransferInput Int where
  role := "payroll_admin"
  fromAddress := "GAAAAAAAAAAAAAAAAAAAAAAAAAAAAAAAAAAAAAAAAAAAAAAAAAAAAAAA"
  toAddress := "GBBBBBBBBBBBBBBBBBBBBBBBBBBBBBBBBBBBBBBBBBBBBBBBBBBBBBBB"
  acceptanceWindowMs := acceptanceWindowMs

def adminTransfer (expiresAt : JsNumber Int) : RoleTransferRecord Int where
  id := "rtx-0-00001"
  role := .payroll_admin
  fromAddress := "GAAAAAAAAAAAAAAAAAAAAAAAAAAAAAAAAAAAAAAAAAAAAAAAAAAAAAAA"
  toAddress := "GBBBBBBBBBBBBBBBBBBBBBBBBBBBBBBBBBBBBBBBBBBBBBBBBBBBBBBB"
  status := .pending
  proposedAt := .finite 0
  expiresAt := expiresAt

theorem default_window_safe : proposeRoleTransfer "rtx-0-00001" (adminProposal none) (.finite 0) =
      .ok (adminTransfer (.finite 172800000)) ∧
    ∀ attempts, NonDecreasing (adminTransfer (.finite 172800000)) attempts →
      TransferSafe (adminTransfer (.finite 172800000)) attempts := by
  have h : proposeRoleTransfer "rtx-0-00001" (adminProposal none) (.finite 0) =
      .ok (adminTransfer (.finite 172800000)) := by decide +kernel
  exact ⟨h, (transferSafe_iff h).mpr (Or.inr (by decide))⟩

/-- A window of `NaN` milliseconds is accepted, and a year later so is the
transfer. -/
theorem nan_window_unsafe : proposeRoleTransfer "rtx-0-00001" (adminProposal (some .nan)) (.finite 0) =
      .ok (adminTransfer .nan) ∧
    NonDecreasing (adminTransfer .nan) (takenOver (adminTransfer .nan) (.finite 31536000000)) ∧
    ¬TransferSafe (adminTransfer .nan) (takenOver (adminTransfer .nan) (.finite 31536000000)) := by
  refine ⟨by decide +kernel, by simp [NonDecreasing, takenOver, adminTransfer, JsNumber.le], fun hsafe => ?_⟩
  have hrun : run (adminTransfer .nan) (takenOver (adminTransfer .nan) (.finite 31536000000)) = _ :=
    run_takenOver ⟨rfl, rfl, rfl⟩ rfl
  obtain ⟨t₁, t₂, -, hlt, -⟩ := hsafe.finalized (by rw [hrun]; rfl)
  cases t₁ <;> cases hlt

end ZkPayroll.Authorization
