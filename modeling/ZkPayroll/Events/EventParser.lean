import ZkPayroll.Events.DraftExpiry
import ZkPayroll.Events.EmployeeStatus
import ZkPayroll.Events.Reservations
import ZkPayroll.Events.TreasuryDeposit

/-!
# The parser of contract events

`parseContractEvent` of `event-parser.ts` with the parsers of the kinds of
events, and what an event of each kind encodes. A parser of one kind returns
that when the data are readable (`returns_iff_of_exact`); apart from a
`registered` event without employer it never refuses, so that it is faithful
only where it returns.

For each of the three parsers, the events on which it is faithful: it returns
what is encoded or, where a required field is missing or has another type,
throws the error that it is documented to throw. On every other event it
returns something that is not encoded, mostly a default in place of a field
that it could not decode, or throws an error of another kind.
-/

namespace ZkPayroll.Events

section

open Framework DraftExpiry EmployeeStatus

/-! ## Typed events -/

structure RegisteredEvent extends Origin where
  employer : String
  employee : String
  salary : Int
  token : String

structure RegistryUpdatedEvent extends Origin where
  employer : String
  employee : String
  salary : Int

structure RegistryDeactivatedEvent extends Origin where
  employer : String
  employee : String

structure CommittedEvent extends Origin where
  employer : String
  employee : String
  commitmentHash : String
  cycleId : Int

structure SalaryRevealedEvent extends Origin where
  employer : String
  employee : String
  cycleId : Int
  actualAmount : Int

structure PaymentExecutedEvent extends Origin where
  recipient : String
  amount : Int
  asset : String
  txHash : String

structure PaymentScheduledEvent extends Origin where
  recipient : String
  amount : Int
  asset : String
  executeAt : Nat
  paymentId : Int

structure PaymentCancelledEvent extends Origin where
  paymentId : Int

inductive TypedContractEvent where
  | registered (e : RegisteredEvent)
  | registryUpdated (e : RegistryUpdatedEvent)
  | registryDeactivated (e : RegistryDeactivatedEvent)
  | committed (e : CommittedEvent)
  | salaryRevealed (e : SalaryRevealedEvent)
  | paymentExecuted (e : PaymentExecutedEvent)
  | paymentScheduled (e : PaymentScheduledEvent)
  | paymentCancelled (e : PaymentCancelledEvent)
  | employeeStatusUpdated (e : EmployeeStatusUpdatedEvent)
  | payrollDraftExpiry (e : PayrollDraftExpiryEvent)

/-! ## Parsers -/

def parseRegistered (event : RawContractEvent) : Except Thrown RegisteredEvent := do
  let employer := decodeAddress event.topics[1]?
  throwIf (employer = "") (.eventParsing "Missing required employer topic in registered event" none)
  let data ← decodeDataMap event.data
  .ok {
    toOrigin := event.origin
    employer
    employee := decodeAddress event.topics[2]?
    salary := decodeBigInt (data.lookup "salary")
    token := decodeAddress (data.lookup "token") }

def parseRegistryUpdated (event : RawContractEvent) : Except Thrown RegistryUpdatedEvent := do
  let data ← decodeDataMap event.data
  .ok {
    toOrigin := event.origin
    employer := decodeAddress event.topics[1]?
    employee := decodeAddress event.topics[2]?
    salary := decodeBigInt (data.lookup "salary") }

def parseRegistryDeactivated (event : RawContractEvent) : Except Thrown RegistryDeactivatedEvent :=
  .ok {
    toOrigin := event.origin
    employer := decodeAddress event.topics[1]?
    employee := decodeAddress event.topics[2]? }

def parseCommitted (event : RawContractEvent) : Except Thrown CommittedEvent := do
  let data ← decodeDataMap event.data
  let commitmentHash ← decodeBytes (data.lookup "commitment_hash")
  .ok {
    toOrigin := event.origin
    employer := decodeAddress event.topics[1]?
    employee := decodeAddress event.topics[2]?
    commitmentHash
    cycleId := decodeBigInt (data.lookup "cycle_id") }

def parseSalaryRevealed (event : RawContractEvent) : Except Thrown SalaryRevealedEvent := do
  let data ← decodeDataMap event.data
  .ok {
    toOrigin := event.origin
    employer := decodeAddress event.topics[1]?
    employee := decodeAddress event.topics[2]?
    cycleId := decodeBigInt (data.lookup "cycle_id")
    actualAmount := decodeBigInt (data.lookup "actual_amount") }

def parsePaymentExecuted (event : RawContractEvent) : Except Thrown PaymentExecutedEvent := do
  let data ← decodeDataMap event.data
  let txHash ← decodeBytes (data.lookup "tx_hash")
  .ok {
    toOrigin := event.origin
    recipient := decodeAddress event.topics[1]?
    amount := decodeBigInt (data.lookup "amount")
    asset := decodeAddress (data.lookup "asset")
    txHash }

def parsePaymentScheduled (event : RawContractEvent) : Except Thrown PaymentScheduledEvent := do
  let data ← decodeDataMap event.data
  let executeAt ← decodeU64AsNumber (data.lookup "execute_at")
  .ok {
    toOrigin := event.origin
    recipient := decodeAddress event.topics[1]?
    amount := decodeBigInt (data.lookup "amount")
    asset := decodeAddress (data.lookup "asset")
    executeAt
    paymentId := decodeBigInt (data.lookup "payment_id") }

def parsePaymentCancelled (event : RawContractEvent) : Except Thrown PaymentCancelledEvent := do
  let data ← decodeDataMap event.data
  .ok {
    toOrigin := event.origin
    paymentId := decodeBigInt ((data.lookup "payment_id").or event.topics[1]?) }

/-- The cases of the switch over the event's name. -/
inductive Kind where
  | registered
  | registryUpdated
  | registryDeactivated
  | committed
  | salaryRevealed
  | paymentExecuted
  | paymentScheduled
  | paymentCancelled
  | employeeStatus
  | draftExpiry

def Kind.ofName : String → Option Kind
  | "registered" => some .registered
  | "registry_updated" => some .registryUpdated
  | "registry_deactivated" => some .registryDeactivated
  | "committed" => some .committed
  | "salary_revealed" => some .salaryRevealed
  | "payment_executed" => some .paymentExecuted
  | "payment_scheduled" => some .paymentScheduled
  | "payment_cancelled" => some .paymentCancelled
  | "employee_status_updated" => some .employeeStatus
  | "employee_status_changed" => some .employeeStatus
  | "employee_suspended" => some .employeeStatus
  | "employee_reactivated" => some .employeeStatus
  | "employee_offboarded" => some .employeeStatus
  | "employee_created" => some .employeeStatus
  | "payroll_draft_expiry" => some .draftExpiry
  | _ => none

/-- The event read as one of a kind. -/
def parseKind (now : Nat) (event : RawContractEvent) : Kind → Except Thrown TypedContractEvent
  | .registered => .registered <$> parseRegistered event
  | .registryUpdated => .registryUpdated <$> parseRegistryUpdated event
  | .registryDeactivated => .registryDeactivated <$> parseRegistryDeactivated event
  | .committed => .committed <$> parseCommitted event
  | .salaryRevealed => .salaryRevealed <$> parseSalaryRevealed event
  | .paymentExecuted => .paymentExecuted <$> parsePaymentExecuted event
  | .paymentScheduled => .paymentScheduled <$> parsePaymentScheduled event
  | .paymentCancelled => .paymentCancelled <$> parsePaymentCancelled event
  | .employeeStatus => .employeeStatusUpdated <$> decodeEmployeeStatusUpdatedEvent now event
  | .draftExpiry => .payrollDraftExpiry <$> parseDraftExpiryEvent event

/-- `now` is `Date.now()`. -/
def parseContractEvent (now : Nat) (event : RawContractEvent) : Except Thrown TypedContractEvent :=
  match event.topics[0]? with
  | none => .error (.eventParsing "Event has no topics" event)
  | some topic =>
    let eventName := decodeEventName topic
    if eventName = "" then .error (.eventParsing "First topic is not a symbol" event)
    else
      match Kind.ofName eventName with
      | some kind => parseKind now event kind
      | none => .error (.eventParsing s!"Unknown event type: \"{eventName}\"" event)

/-! ## What an event encodes -/

/-- What the event encodes. -/
def encodedRegistered (event : RawContractEvent) : Option RegisteredEvent := do
  let employer ← addressOf event.topics[1]?
  let employee ← addressOf event.topics[2]?
  let salary ← integerOf (fieldOf event.data "salary")
  let token ← addressOf (fieldOf event.data "token")
  some { toOrigin := event.origin, employer, employee, salary, token }

/-- What the event encodes. -/
def encodedRegistryUpdated (event : RawContractEvent) : Option RegistryUpdatedEvent := do
  let employer ← addressOf event.topics[1]?
  let employee ← addressOf event.topics[2]?
  let salary ← integerOf (fieldOf event.data "salary")
  some { toOrigin := event.origin, employer, employee, salary }

/-- What the event encodes. -/
def encodedRegistryDeactivated (event : RawContractEvent) : Option RegistryDeactivatedEvent := do
  let employer ← addressOf event.topics[1]?
  let employee ← addressOf event.topics[2]?
  some { toOrigin := event.origin, employer, employee }

/-- What the event encodes. -/
def encodedCommitted (event : RawContractEvent) : Option CommittedEvent := do
  let employer ← addressOf event.topics[1]?
  let employee ← addressOf event.topics[2]?
  let commitmentHash ← bytesOf (fieldOf event.data "commitment_hash")
  let cycleId ← integerOf (fieldOf event.data "cycle_id")
  some { toOrigin := event.origin, employer, employee, commitmentHash, cycleId }

/-- What the event encodes. -/
def encodedSalaryRevealed (event : RawContractEvent) : Option SalaryRevealedEvent := do
  let employer ← addressOf event.topics[1]?
  let employee ← addressOf event.topics[2]?
  let cycleId ← integerOf (fieldOf event.data "cycle_id")
  let actualAmount ← integerOf (fieldOf event.data "actual_amount")
  some { toOrigin := event.origin, employer, employee, cycleId, actualAmount }

/-- What the event encodes. -/
def encodedPaymentExecuted (event : RawContractEvent) : Option PaymentExecutedEvent := do
  let recipient ← addressOf event.topics[1]?
  let amount ← integerOf (fieldOf event.data "amount")
  let asset ← addressOf (fieldOf event.data "asset")
  let txHash ← bytesOf (fieldOf event.data "tx_hash")
  some { toOrigin := event.origin, recipient, amount, asset, txHash }

/-- What the event encodes. -/
def encodedPaymentScheduled (event : RawContractEvent) : Option PaymentScheduledEvent := do
  let recipient ← addressOf event.topics[1]?
  let amount ← integerOf (fieldOf event.data "amount")
  let asset ← addressOf (fieldOf event.data "asset")
  let executeAt ← u64Of (fieldOf event.data "execute_at")
  let paymentId ← integerOf (fieldOf event.data "payment_id")
  some { toOrigin := event.origin, recipient, amount, asset, executeAt, paymentId }

/-- The identifier stands in the data, or in the topic when the data have none. -/
def encodedPaymentCancelled (event : RawContractEvent) : Option PaymentCancelledEvent := do
  let paymentId ← integerOf ((fieldOf event.data "payment_id").or event.topics[1]?)
  some { toOrigin := event.origin, paymentId }

/-- What an event of the kind encodes. -/
def encodedKind (eventName : String) (event : RawContractEvent) : Kind → Option TypedContractEvent
  | .registered => (encodedRegistered event).map .registered
  | .registryUpdated => (encodedRegistryUpdated event).map .registryUpdated
  | .registryDeactivated => (encodedRegistryDeactivated event).map .registryDeactivated
  | .committed => (encodedCommitted event).map .committed
  | .salaryRevealed => (encodedSalaryRevealed event).map .salaryRevealed
  | .paymentExecuted => (encodedPaymentExecuted event).map .paymentExecuted
  | .paymentScheduled => (encodedPaymentScheduled event).map .paymentScheduled
  | .paymentCancelled => (encodedPaymentCancelled event).map .paymentCancelled
  | .employeeStatus => (EmployeeStatus.encoded eventName event).map .employeeStatusUpdated
  | .draftExpiry => (DraftExpiry.encoded event).map .payrollDraftExpiry

/-- Nothing is encoded by an event without a name that is known. -/
def encodedContractEvent (event : RawContractEvent) : Option TypedContractEvent := do
  let topic ← event.topics[0]?
  let kind ← Kind.ofName (decodeEventName topic)
  encodedKind (decodeEventName topic) event kind

/-! ## The condition -/

/-- The condition on an event of a kind: the required fields are there with the right types, the data are
readable, and the numbers are doubles; a `registered` event can also lack the employer. -/
def KindCondition (eventName : String) (event : RawContractEvent) : Kind → Prop
  | .registered =>
    addressOf event.topics[1]? = none ∨ (encodedRegistered event).isSome ∧ Readable event.data
  | .registryUpdated => (encodedRegistryUpdated event).isSome ∧ Readable event.data
  | .registryDeactivated => (encodedRegistryDeactivated event).isSome
  | .committed => (encodedCommitted event).isSome ∧ Readable event.data
  | .salaryRevealed => (encodedSalaryRevealed event).isSome ∧ Readable event.data
  | .paymentExecuted => (encodedPaymentExecuted event).isSome ∧ Readable event.data
  | .paymentScheduled =>
    (encodedPaymentScheduled event).isSome ∧ Readable event.data ∧
      DoubleIfPresent (fieldOf event.data "execute_at")
  | .paymentCancelled => (encodedPaymentCancelled event).isSome ∧ Readable event.data
  | .employeeStatus =>
    (EmployeeStatus.encoded eventName event).isSome ∧ Readable event.data ∧
      DoubleIfPresent (fieldOf event.data "updated_at") ∧ DoubleIfPresent (fieldOf event.data "effective_date") ∧
      TextIfPresent ((fieldOf event.data "previous_status").or (fieldOf event.data "old_status")) ∧
      TextIfPresent (fieldOf event.data "reason")
  | .draftExpiry =>
    (DraftExpiry.encoded event).isSome ∧ Readable event.data ∧
      TimestampFits (fieldOf event.data "expiry_timestamp") ∧ TimestampFits (fieldOf event.data "expired_at")

/-- An event without a name that is known is always refused. -/
def ContractCondition (event : RawContractEvent) : Prop :=
  ∀ topic kind, event.topics[0]? = some topic → Kind.ofName (decodeEventName topic) = some kind →
    KindCondition (decodeEventName topic) event kind

/-! ## Kinds that only read -/

variable (event : RawContractEvent)

theorem registryUpdated_iff :
    Returns (encodedRegistryUpdated event) (parseRegistryUpdated event) ↔
      (encodedRegistryUpdated event).isSome ∧ Readable event.data := by
  apply returns_iff_of_exact
  intro e he data hdata
  obtain ⟨_, hemployer, he⟩ := Option.bind_eq_some_iff.mp he
  obtain ⟨_, hemployee, he⟩ := Option.bind_eq_some_iff.mp he
  obtain ⟨_, hsalary, he⟩ := Option.bind_eq_some_iff.mp he
  cases he
  rw [hdata "salary" (by decide), decodeAddress_of_address hemployer, decodeAddress_of_address hemployee,
    decodeBigInt_of_integer hsalary]

theorem registryDeactivated_iff :
    Returns (encodedRegistryDeactivated event) (parseRegistryDeactivated event) ↔
      (encodedRegistryDeactivated event).isSome := by
  unfold parseRegistryDeactivated
  rw [returns_ok]
  constructor
  · intro h
    rw [h]
    rfl
  · intro h
    obtain ⟨e, he⟩ := Option.isSome_iff_exists.mp h
    rw [he]
    obtain ⟨_, hemployer, he⟩ := Option.bind_eq_some_iff.mp he
    obtain ⟨_, hemployee, he⟩ := Option.bind_eq_some_iff.mp he
    cases he
    rw [decodeAddress_of_address hemployer, decodeAddress_of_address hemployee]

theorem committed_iff :
    Returns (encodedCommitted event) (parseCommitted event) ↔
      (encodedCommitted event).isSome ∧ Readable event.data := by
  apply returns_iff_of_exact
  intro e he data hdata
  obtain ⟨_, hemployer, he⟩ := Option.bind_eq_some_iff.mp he
  obtain ⟨_, hemployee, he⟩ := Option.bind_eq_some_iff.mp he
  obtain ⟨_, hhash, he⟩ := Option.bind_eq_some_iff.mp he
  obtain ⟨_, hcycle, he⟩ := Option.bind_eq_some_iff.mp he
  cases he
  rw [hdata "commitment_hash" (by decide), hdata "cycle_id" (by decide), decodeBytes_of_bytes hhash, ok_bind,
    decodeAddress_of_address hemployer, decodeAddress_of_address hemployee, decodeBigInt_of_integer hcycle]

theorem salaryRevealed_iff :
    Returns (encodedSalaryRevealed event) (parseSalaryRevealed event) ↔
      (encodedSalaryRevealed event).isSome ∧ Readable event.data := by
  apply returns_iff_of_exact
  intro e he data hdata
  obtain ⟨_, hemployer, he⟩ := Option.bind_eq_some_iff.mp he
  obtain ⟨_, hemployee, he⟩ := Option.bind_eq_some_iff.mp he
  obtain ⟨_, hcycle, he⟩ := Option.bind_eq_some_iff.mp he
  obtain ⟨_, hamount, he⟩ := Option.bind_eq_some_iff.mp he
  cases he
  rw [hdata "cycle_id" (by decide), hdata "actual_amount" (by decide), decodeAddress_of_address hemployer,
    decodeAddress_of_address hemployee, decodeBigInt_of_integer hcycle, decodeBigInt_of_integer hamount]

theorem paymentExecuted_iff :
    Returns (encodedPaymentExecuted event) (parsePaymentExecuted event) ↔
      (encodedPaymentExecuted event).isSome ∧ Readable event.data := by
  apply returns_iff_of_exact
  intro e he data hdata
  obtain ⟨_, hrecipient, he⟩ := Option.bind_eq_some_iff.mp he
  obtain ⟨_, hamount, he⟩ := Option.bind_eq_some_iff.mp he
  obtain ⟨_, hasset, he⟩ := Option.bind_eq_some_iff.mp he
  obtain ⟨_, hhash, he⟩ := Option.bind_eq_some_iff.mp he
  cases he
  rw [hdata "tx_hash" (by decide), hdata "amount" (by decide), hdata "asset" (by decide),
    decodeBytes_of_bytes hhash, ok_bind, decodeAddress_of_address hrecipient, decodeBigInt_of_integer hamount,
    decodeAddress_of_address hasset]

theorem paymentCancelled_iff :
    Returns (encodedPaymentCancelled event) (parsePaymentCancelled event) ↔
      (encodedPaymentCancelled event).isSome ∧ Readable event.data := by
  apply returns_iff_of_exact
  intro e he data hdata
  obtain ⟨_, hid, he⟩ := Option.bind_eq_some_iff.mp he
  cases he
  rw [hdata "payment_id" (by decide), decodeBigInt_of_integer hid]

/-- The time of execution is a word that becomes a double. -/
theorem paymentScheduled_iff :
    Returns (encodedPaymentScheduled event) (parsePaymentScheduled event) ↔
      (encodedPaymentScheduled event).isSome ∧ Readable event.data ∧
        DoubleIfPresent (fieldOf event.data "execute_at") := by
  cases henc : encodedPaymentScheduled event with
  | none => exact iff_of_false not_returns_none fun h => Bool.false_ne_true h.1
  | some e =>
    obtain ⟨_, hrecipient, he⟩ := Option.bind_eq_some_iff.mp henc
    obtain ⟨_, hamount, he⟩ := Option.bind_eq_some_iff.mp he
    obtain ⟨_, hasset, he⟩ := Option.bind_eq_some_iff.mp he
    obtain ⟨executeAt, htime, he⟩ := Option.bind_eq_some_iff.mp he
    obtain ⟨_, hid, he⟩ := Option.bind_eq_some_iff.mp he
    have hparse : parsePaymentScheduled event = decodeDataMap event.data >>= fun _ =>
        .ok { e with executeAt := toDouble executeAt } := by
      apply decodeDataMap_bind_congr
      intro data hdata
      cases he
      rw [hdata "execute_at" (by decide), hdata "amount" (by decide), hdata "asset" (by decide),
        hdata "payment_id" (by decide), decodeU64AsNumber_of_u64 htime, ok_bind, decodeAddress_of_address hrecipient,
        decodeBigInt_of_integer hamount, decodeAddress_of_address hasset, decodeBigInt_of_integer hid]
    rw [hparse, returns_decodeDataMap_bind, returns_ok, doubleIfPresent_iff htime, ← toDouble_eq_self_iff]
    cases he
    simp only [Option.some.injEq, PaymentScheduledEvent.mk.injEq, true_and, and_true, Option.isSome_some,
      eq_comm]

/-- Without an employer the event is refused; with one, it is only read. -/
theorem registered_iff :
    Faithful Thrown.IsEventParsing (encodedRegistered event) (parseRegistered event) ↔
      addressOf event.topics[1]? = none ∨ (encodedRegistered event).isSome ∧ Readable event.data := by
  unfold parseRegistered
  dsimp only
  cases hemployer : addressOf event.topics[1]? with
  | none =>
    rw [throwIf_bind_of (decodeAddress_eq_empty_iff.mpr hemployer)]
    refine iff_of_true (faithful_of_refused ?_ rfl trivial) (.inl rfl)
    exact Option.bind_eq_none_iff.mpr fun a ha => by cases hemployer.symm.trans ha
  | some employer =>
    rw [decodeAddress_of_address hemployer, throwIf_bind_of_not (addressOf_ne_empty hemployer)]
    have hdata := (throwsOnly_decodeDataMap event.data).mono not_isEventParsing_of_typeError
    rw [faithful_iff_returns (hdata.bind fun data => throwsOnly_ok _ _), returns_iff_of_exact]
    · exact ⟨.inr, fun h => h.resolve_left (by intro h; cases h)⟩
    · intro e he data hdata
      obtain ⟨_, hemployer', he⟩ := Option.bind_eq_some_iff.mp he
      obtain ⟨_, hemployee, he⟩ := Option.bind_eq_some_iff.mp he
      obtain ⟨_, hsalary, he⟩ := Option.bind_eq_some_iff.mp he
      obtain ⟨_, htoken, he⟩ := Option.bind_eq_some_iff.mp he
      cases he
      cases hemployer.symm.trans hemployer'
      rw [hdata "salary" (by decide), hdata "token" (by decide), decodeAddress_of_address hemployee,
        decodeBigInt_of_integer hsalary, decodeAddress_of_address htoken]

/-! ## Every event -/

theorem Kind.ofName_employeeStatus {eventName : String} (h : Kind.ofName eventName = some .employeeStatus) :
    eventName ∈ EMPLOYEE_STATUS_EVENT_NAMES := by
  unfold Kind.ofName at h
  split at h <;> first | decide | cases h

theorem Kind.ofName_draftExpiry {eventName : String} (h : Kind.ofName eventName = some .draftExpiry) :
    eventName = EVENT_NAME := by
  unfold Kind.ofName at h
  split at h <;> first | rfl | cases h

variable (now : Nat)

theorem kind_iff {event : RawContractEvent} {topic : ScVal} {kind : Kind}
    (htopic : event.topics[0]? = some topic) (hkind : Kind.ofName (decodeEventName topic) = some kind) :
    Faithful Thrown.IsEventParsing (encodedKind (decodeEventName topic) event kind) (parseKind now event kind) ↔
      KindCondition (decodeEventName topic) event kind := by
  have hdata := (throwsOnly_decodeDataMap event.data).mono not_isEventParsing_of_typeError
  have hbytes := fun v => (throwsOnly_decodeBytes v).mono not_isEventParsing_of_typeError
  have hnumber := fun v => (throwsOnly_decodeU64AsNumber v).mono not_isEventParsing_of_typeError
  cases kind with
  | registered => exact (faithful_map fun _ _ h => by injection h).trans (registered_iff event)
  | registryUpdated =>
    have honly : ThrowsOnly _ (parseRegistryUpdated event) := hdata.bind fun _ => throwsOnly_ok _ _
    apply (faithful_map fun _ _ h => by injection h).trans
    exact (faithful_iff_returns honly).trans (registryUpdated_iff event)
  | registryDeactivated =>
    apply (faithful_map fun _ _ h => by injection h).trans
    exact (faithful_iff_returns (throwsOnly_ok _ _)).trans (registryDeactivated_iff event)
  | committed =>
    have honly : ThrowsOnly _ (parseCommitted event) :=
      hdata.bind fun _ => (hbytes _).bind fun _ => throwsOnly_ok _ _
    apply (faithful_map fun _ _ h => by injection h).trans
    exact (faithful_iff_returns honly).trans (committed_iff event)
  | salaryRevealed =>
    have honly : ThrowsOnly _ (parseSalaryRevealed event) := hdata.bind fun _ => throwsOnly_ok _ _
    apply (faithful_map fun _ _ h => by injection h).trans
    exact (faithful_iff_returns honly).trans (salaryRevealed_iff event)
  | paymentExecuted =>
    have honly : ThrowsOnly _ (parsePaymentExecuted event) :=
      hdata.bind fun _ => (hbytes _).bind fun _ => throwsOnly_ok _ _
    apply (faithful_map fun _ _ h => by injection h).trans
    exact (faithful_iff_returns honly).trans (paymentExecuted_iff event)
  | paymentScheduled =>
    have honly : ThrowsOnly _ (parsePaymentScheduled event) :=
      hdata.bind fun _ => (hnumber _).bind fun _ => throwsOnly_ok _ _
    apply (faithful_map fun _ _ h => by injection h).trans
    exact (faithful_iff_returns honly).trans (paymentScheduled_iff event)
  | paymentCancelled =>
    have honly : ThrowsOnly _ (parsePaymentCancelled event) := hdata.bind fun _ => throwsOnly_ok _ _
    apply (faithful_map fun _ _ h => by injection h).trans
    exact (faithful_iff_returns honly).trans (paymentCancelled_iff event)
  | employeeStatus =>
    apply (faithful_map fun _ _ h => by injection h).trans
    apply (faithful_iff_returns (throwsOnly_decode now event)).trans
    exact EmployeeStatus.returns_iff now htopic (Kind.ofName_employeeStatus hkind)
  | draftExpiry =>
    apply (faithful_map fun _ _ h => by injection h).trans
    apply (faithful_iff_returns (throwsOnly_parse event)).trans
    exact DraftExpiry.returns_iff htopic (Kind.ofName_draftExpiry hkind)

theorem parseContractEvent_of_kind {event : RawContractEvent} {topic : ScVal} {kind : Kind}
    (htopic : event.topics[0]? = some topic) (hkind : Kind.ofName (decodeEventName topic) = some kind) :
    parseContractEvent now event = parseKind now event kind := by
  have hne : decodeEventName topic ≠ "" := by
    intro h
    rw [h] at hkind
    cases hkind
  unfold parseContractEvent
  rw [htopic]
  dsimp only
  rw [if_neg hne, hkind]

theorem parseContractEvent_refused {event : RawContractEvent}
    (h : ∀ topic, event.topics[0]? = some topic → Kind.ofName (decodeEventName topic) = none) :
    ∃ e, parseContractEvent now event = .error e ∧ e.IsEventParsing := by
  unfold parseContractEvent
  cases htopic : event.topics[0]? with
  | none => exact ⟨_, rfl, trivial⟩
  | some topic =>
    dsimp only
    rw [h topic htopic]
    split <;> exact ⟨_, rfl, trivial⟩

/-- The parser is faithful, with `EventParsingError` as its refusal, on the events that meet the condition of
their kind. -/
theorem faithful_parseContractEvent_iff (event : RawContractEvent) :
    Faithful Thrown.IsEventParsing (encodedContractEvent event) (parseContractEvent now event) ↔
      ContractCondition event := by
  by_cases hknown : ∃ topic kind, event.topics[0]? = some topic ∧ Kind.ofName (decodeEventName topic) = some kind
  · obtain ⟨topic, kind, htopic, hkind⟩ := hknown
    have henc : encodedContractEvent event = encodedKind (decodeEventName topic) event kind := by
      unfold encodedContractEvent
      rw [htopic]
      exact congrArg (Option.bind · _) hkind
    rw [parseContractEvent_of_kind now htopic hkind, henc, kind_iff now htopic hkind]
    constructor
    · intro h topic' kind' htopic' hkind'
      cases htopic.symm.trans htopic'
      cases hkind.symm.trans hkind'
      exact h
    · intro h
      exact h topic kind htopic hkind
  · have hunknown : ∀ topic, event.topics[0]? = some topic → Kind.ofName (decodeEventName topic) = none := by
      intro topic htopic
      by_contra h
      obtain ⟨kind, hkind⟩ := Option.ne_none_iff_exists'.mp h
      exact hknown ⟨topic, kind, htopic, hkind⟩
    obtain ⟨e, he, hrefusal⟩ := parseContractEvent_refused now hunknown
    refine iff_of_true (faithful_of_refused ?_ he hrefusal) fun topic kind htopic hkind => ?_
    · refine Option.bind_eq_none_iff.mpr fun topic htopic => Option.bind_eq_none_iff.mpr fun kind hkind => ?_
      exact absurd ⟨topic, kind, htopic, hkind⟩ hknown
    · exact absurd ⟨topic, kind, htopic, hkind⟩ hknown

end

section

open Framework TreasuryDeposit Reservations

theorem parsers_faithful_iff (now : Nat) (event : RawContractEvent) :
    (Faithful Thrown.IsEventParsing (encodedContractEvent event) (parseContractEvent now event) ↔
        ContractCondition event) ∧
      (Faithful Thrown.IsEventDecoding (TreasuryDeposit.encoded event) (parseTreasuryDepositEvent event) ↔
        TreasuryDeposit.Condition event) ∧
      (Faithful Thrown.IsReservationEventParsing (Reservations.encoded event)
          (parseFundingReservationCreatedEvent event) ↔ Reservations.Condition event) := by
  refine ⟨?_, ?_, ?_⟩
  · exact faithful_parseContractEvent_iff now event
  · exact TreasuryDeposit.faithful_parse_iff event
  · exact Reservations.faithful_parse_iff event

/-! ## Defaults in place of fields -/

def party : StrKey := ⟨"GPARTY", by decide⟩

def token : StrKey := ⟨"CTOKEN", by decide⟩

def rawEvent (eventName : String) (data : List (ScVal × ScVal)) : RawContractEvent where
  contractId := none
  topics := [.scvSymbol eventName, .scvAddress party]
  data := .scvMap (some data)
  ledger := none
  ledgerClosedAt := none

/-- A payment whose amount is a text. -/
def textAmount : RawContractEvent :=
  rawEvent "payment_executed"
    [(.scvSymbol "amount", .scvString "100"), (.scvSymbol "asset", .scvAddress token),
      (.scvSymbol "tx_hash", .scvBytes [0xab])]

/-- A deposit of which only the depositor is known. -/
def bareDeposit : RawContractEvent := rawEvent "treasury_deposited" []

/-- A reservation of an asset without amount. -/
def amountlessReservation : RawContractEvent :=
  rawEvent "funding_reservation_created"
    [(.scvSymbol "reservation_id", .scvString "r1"),
      (.scvSymbol "assets", .scvVec (some [.scvMap (some [(.scvSymbol "asset", .scvAddress token)])]))]

/-- The amount, the asset and the time that are not encoded come out as defaults. -/
theorem defaults_made_up :
    (¬Faithful Thrown.IsEventParsing (encodedContractEvent textAmount) (parseContractEvent 0 textAmount) ∧
      parseContractEvent 0 textAmount =
        .ok (.paymentExecuted {
          toOrigin := textAmount.origin, recipient := "GPARTY", amount := 0, asset := "CTOKEN", txHash := "ab" })) ∧
      (¬Faithful Thrown.IsEventDecoding (TreasuryDeposit.encoded bareDeposit) (parseTreasuryDepositEvent bareDeposit) ∧
        parseTreasuryDepositEvent bareDeposit =
          .ok {
            toOrigin := bareDeposit.origin, depositor := "GPARTY", asset := "native", amount := 0, memo := none,
            depositedAt := 0 }) ∧
      (¬Faithful Thrown.IsReservationEventParsing (Reservations.encoded amountlessReservation)
          (parseFundingReservationCreatedEvent amountlessReservation) ∧
        parseFundingReservationCreatedEvent amountlessReservation =
          .ok {
            toOrigin := amountlessReservation.origin, reservationId := "r1", employer := "GPARTY",
            assets := [{ asset := "CTOKEN", amount := 0 }], expirationUnixSeconds := 0 }) := by
  refine ⟨⟨?_, rfl⟩, ⟨?_, rfl⟩, ⟨?_, rfl⟩⟩
  · exact not_faithful_of_made_up rfl rfl
  · exact not_faithful_of_made_up rfl rfl
  · exact not_faithful_of_made_up rfl rfl

end

end ZkPayroll.Events
