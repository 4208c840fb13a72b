import ZkPayroll.Events.ScVal

/-!
# Changes of an employee's status

`decodeEmployeeStatusUpdatedEvent` of `events/employeeStatus.ts`, and what an
employee status event encodes.
-/

namespace ZkPayroll.Events.EmployeeStatus

open Framework

structure EmployeeStatusUpdatedEvent extends Origin where
  employee : String
  employer : Option String
  newStatus : String
  previousStatus : Option String
  updatedBy : Option String
  reason : Option String
  updatedAt : Nat
  effectiveDate : Option Nat

def EMPLOYEE_STATUS_EVENT_NAMES : List String :=
  ["employee_status_updated", "employee_status_changed", "employee_suspended", "employee_reactivated",
    "employee_offboarded", "employee_created"]

/-- A value that is no text is written as JavaScript writes an object. -/
def extractStatusString : ScVal → String
  | .scvSymbol s => s
  | .scvString s => s
  | _ => "[object Object]"

/-- The status that the name of the event says. -/
def impliedStatus (eventName : String) : Option String :=
  if eventName = "employee_suspended" then some "suspended"
  else if eventName = "employee_reactivated" ∨ eventName = "employee_created" then some "active"
  else if eventName = "employee_offboarded" then some "offboarded"
  else none

/-- `decodeAddress(scVal) || undefined`. -/
def addressOrUndefined (v : Option ScVal) : Option String :=
  if decodeAddress v = "" then none else some (decodeAddress v)

/-- `now` is `Date.now()`, in milliseconds. -/
def decodeEmployeeStatusUpdatedEvent (now : Nat) (event : RawContractEvent) :
    Except Thrown EmployeeStatusUpdatedEvent :=
  match event.topics[0]? with
  | none => .error (.eventDecoding "Event has no topics" event)
  | some topic => do
    let eventName := decodeEventName topic
    let names := ", ".intercalate EMPLOYEE_STATUS_EVENT_NAMES
    let got := if eventName = "" then "unknown" else eventName
    throwIf (eventName ∉ EMPLOYEE_STATUS_EVENT_NAMES)
      (.eventDecoding s!"Expected employee status event ({names}), got \"{got}\"" event)
    let employee := decodeAddress event.topics[1]?
    throwIf (employee = "")
      (.eventDecoding "Missing required employee address topic in employee status event" event)
    let employer := addressOrUndefined event.topics[2]?
    let data ← decodeDataMap event.data
    let newStatus := newStatusOf eventName ((data.lookup "new_status").or (data.lookup "status"))
    let previousStatus := ((data.lookup "previous_status").or (data.lookup "old_status")).map extractStatusString
    let updatedBy := addressOrUndefined ((data.lookup "updated_by").or (data.lookup "admin"))
    let reason := (data.lookup "reason").map extractStatusString
    let updatedAt ← updatedAtOf (data.lookup "updated_at")
    let effectiveDate ← effectiveDateOf (data.lookup "effective_date")
    .ok {
      toOrigin := event.origin
      employee
      employer := employer.or (addressOrUndefined (data.lookup "employer"))
      newStatus
      previousStatus
      updatedBy
      reason
      updatedAt
      effectiveDate }
where
  newStatusOf (eventName : String) : Option ScVal → String
    | some v => extractStatusString v
    | none => (impliedStatus eventName).getD "unknown"
  updatedAtOf : Option ScVal → Except Thrown Nat
    | some v => decodeU64AsNumber (some v)
    | none => .ok (now / 1000)
  effectiveDateOf : Option ScVal → Except Thrown (Option Nat)
    | some v => do .ok (some (← decodeU64AsNumber (some v)))
    | none => .ok none

/-- The new status, from the data or from the name of the event. -/
def statusOf (eventName : String) : Option ScVal → Option String
  | some v => textOf (some v)
  | none => impliedStatus eventName

/-- What the event encodes. The fields without which there is no event are the employee, the status, which the
name of the event can say, and the time of the change; of two names of a field, the second is read when the
first is absent. -/
def encoded (eventName : String) (event : RawContractEvent) : Option EmployeeStatusUpdatedEvent := do
  let field := fieldOf event.data
  let employee ← addressOf event.topics[1]?
  let newStatus ← statusOf eventName ((field "new_status").or (field "status"))
  let updatedAt ← u64Of (field "updated_at")
  some {
    toOrigin := event.origin
    employee
    employer := (addressOf event.topics[2]?).or (addressOf (field "employer"))
    newStatus
    previousStatus := textOf ((field "previous_status").or (field "old_status"))
    updatedBy := addressOf ((field "updated_by").or (field "admin"))
    reason := textOf (field "reason")
    updatedAt
    effectiveDate := u64Of (field "effective_date") }

theorem addressOrUndefined_eq (v : Option ScVal) : addressOrUndefined v = addressOf v := by
  unfold addressOrUndefined
  cases h : addressOf v with
  | none => exact if_pos (decodeAddress_eq_empty_iff.mpr h)
  | some a =>
    rw [decodeAddress_of_address h]
    exact if_neg (addressOf_ne_empty h)

variable {v : Option ScVal}

theorem map_extractStatusString_iff : textOf v = v.map extractStatusString ↔ TextIfPresent v := by
  cases v with
  | none => exact iff_of_true rfl fun h => absurd h Bool.false_ne_true
  | some v => cases v <;> simp [textOf, TextIfPresent, extractStatusString, ScVal.str?, ScVal.sym?]

theorem extractStatusString_of_text {v : ScVal} {s : String} (h : textOf (some v) = some s) :
    extractStatusString v = s := by
  cases v <;> cases h <;> rfl

theorem newStatusOf_eq {eventName : String} {s : String} (h : statusOf eventName v = some s) :
    decodeEmployeeStatusUpdatedEvent.newStatusOf eventName v = s := by
  cases v with
  | none =>
    show (impliedStatus eventName).getD "unknown" = s
    rw [show impliedStatus eventName = some s from h]
    rfl
  | some v => exact extractStatusString_of_text h

variable (now : Nat)

theorem updatedAtOf_eq {n : Nat} (h : u64Of v = some n) :
    decodeEmployeeStatusUpdatedEvent.updatedAtOf now v = .ok (toDouble n) := by
  cases v with
  | none => cases h
  | some v => exact decodeU64AsNumber_of_u64 h

theorem effectiveDateOf_iff :
    decodeEmployeeStatusUpdatedEvent.effectiveDateOf v = .ok (u64Of v) ↔ DoubleIfPresent v := by
  cases v with
  | none => exact iff_of_true rfl fun h => absurd h Bool.false_ne_true
  | some v =>
    have hpresent : DoubleIfPresent (some v) ↔ Returns (u64Of (some v)) (decodeU64AsNumber (some v)) := by
      rw [returns_decodeU64AsNumber]
      exact ⟨fun h => h rfl, fun h _ => h⟩
    rw [hpresent]
    constructor
    · intro h
      obtain ⟨n, hn, h⟩ := except_bind_eq_ok.mp h
      exact ⟨n, (Except.ok.inj h).symm, hn⟩
    · intro ⟨n, hn, hd⟩
      exact except_bind_eq_ok.mpr ⟨n, hd, by rw [hn]⟩

variable {e : EmployeeStatusUpdatedEvent} {event : RawContractEvent}

theorem fields_of_encoded {eventName : String} (h : encoded eventName event = some e) :
    addressOf event.topics[1]? = some e.employee ∧
      statusOf eventName ((fieldOf event.data "new_status").or (fieldOf event.data "status")) = some e.newStatus ∧
      u64Of (fieldOf event.data "updated_at") = some e.updatedAt ∧
      e = {
        toOrigin := event.origin
        employee := e.employee
        employer := (addressOf event.topics[2]?).or (addressOf (fieldOf event.data "employer"))
        newStatus := e.newStatus
        previousStatus := textOf ((fieldOf event.data "previous_status").or (fieldOf event.data "old_status"))
        updatedBy := addressOf ((fieldOf event.data "updated_by").or (fieldOf event.data "admin"))
        reason := textOf (fieldOf event.data "reason")
        updatedAt := e.updatedAt
        effectiveDate := u64Of (fieldOf event.data "effective_date") } := by
  obtain ⟨_, hemployee, h⟩ := Option.bind_eq_some_iff.mp h
  obtain ⟨_, hstatus, h⟩ := Option.bind_eq_some_iff.mp h
  obtain ⟨_, hupdated, h⟩ := Option.bind_eq_some_iff.mp h
  cases h
  exact ⟨hemployee, hstatus, hupdated, rfl⟩

/-- On an event whose fields have the right types, the decoder gives what is encoded but for the numbers, which
become doubles, and for the optional texts. -/
theorem decode_of_encoded {topic : ScVal}
    (htopic : event.topics[0]? = some topic) (hname : decodeEventName topic ∈ EMPLOYEE_STATUS_EVENT_NAMES)
    (henc : encoded (decodeEventName topic) event = some e) :
    decodeEmployeeStatusUpdatedEvent now event = (do
      let _ ← decodeDataMap event.data
      let effectiveDate ← decodeEmployeeStatusUpdatedEvent.effectiveDateOf (fieldOf event.data "effective_date")
      .ok { e with
        previousStatus := ((fieldOf event.data "previous_status").or (fieldOf event.data "old_status")).map
          extractStatusString
        reason := (fieldOf event.data "reason").map extractStatusString
        updatedAt := toDouble e.updatedAt
        effectiveDate }) := by
  obtain ⟨hemployee, hstatus, hupdated, he⟩ := fields_of_encoded henc
  have hne := addressOf_ne_empty hemployee
  unfold decodeEmployeeStatusUpdatedEvent
  rw [htopic]
  dsimp only
  rw [decodeAddress_of_address hemployee, throwIf_bind_of_not (not_not_intro hname), throwIf_bind_of_not hne]
  apply decodeDataMap_bind_congr
  intro data hdata
  rw [he]
  simp only [hdata, ne_eq, String.reduceEq, not_false_eq_true, addressOrUndefined_eq, newStatusOf_eq hstatus,
    updatedAtOf_eq now hupdated, ok_bind]

theorem eq_with_iff {previousStatus reason : Option String} {updatedAt : Nat}
    {effectiveDate : Option Nat} :
    e = { e with previousStatus, reason, updatedAt, effectiveDate } ↔
      e.previousStatus = previousStatus ∧ e.reason = reason ∧ e.updatedAt = updatedAt ∧
        e.effectiveDate = effectiveDate := by
  cases e
  simp only [EmployeeStatusUpdatedEvent.mk.injEq, true_and]

/-- The decoder returns what is encoded when the data are readable, the numbers are doubles, and the optional
texts are texts. -/
theorem returns_iff {topic : ScVal} (htopic : event.topics[0]? = some topic)
    (hname : decodeEventName topic ∈ EMPLOYEE_STATUS_EVENT_NAMES) :
    Returns (encoded (decodeEventName topic) event) (decodeEmployeeStatusUpdatedEvent now event) ↔
      (encoded (decodeEventName topic) event).isSome ∧ Readable event.data ∧
        DoubleIfPresent (fieldOf event.data "updated_at") ∧ DoubleIfPresent (fieldOf event.data "effective_date") ∧
        TextIfPresent ((fieldOf event.data "previous_status").or (fieldOf event.data "old_status")) ∧
        TextIfPresent (fieldOf event.data "reason") := by
  cases henc : encoded (decodeEventName topic) event with
  | none => exact iff_of_false not_returns_none fun h => Bool.false_ne_true h.1
  | some e =>
    obtain ⟨-, -, hupdated, he⟩ := fields_of_encoded henc
    have htime : DoubleIfPresent (fieldOf event.data "updated_at") ↔ e.updatedAt = toDouble e.updatedAt := by
      rw [eq_comm, toDouble_eq_self_iff]
      exact doubleIfPresent_iff hupdated
    have hprevious : e.previousStatus =
        textOf ((fieldOf event.data "previous_status").or (fieldOf event.data "old_status")) := by rw [he]
    have hreason : e.reason = textOf (fieldOf event.data "reason") := by rw [he]
    have hdate : e.effectiveDate = u64Of (fieldOf event.data "effective_date") := by rw [he]
    rw [decode_of_encoded now htopic hname henc, returns_decodeDataMap_bind, returns_bind]
    simp only [returns_ok, Option.some.injEq, eq_with_iff, hprevious, hreason, hdate, map_extractStatusString_iff]
    rw [htime, ← effectiveDateOf_iff]
    constructor
    · intro ⟨hread, date, hdate, hp, hr, hu, hd⟩
      rw [← hd] at hdate
      exact ⟨rfl, hread, hu, hdate, hp, hr⟩
    · intro ⟨_, hread, hu, hdate, hp, hr⟩
      exact ⟨hread, _, hdate, hp, hr, hu, rfl⟩

/-- The errors of this decoder are not those that `parseContractEvent` says it throws. -/
theorem throwsOnly_decode (event : RawContractEvent) :
    ThrowsOnly (fun e => ¬e.IsEventParsing) (decodeEmployeeStatusUpdatedEvent now event) := by
  have hdata := (throwsOnly_decodeDataMap event.data).mono not_isEventParsing_of_typeError
  have hnumber := fun v => (throwsOnly_decodeU64AsNumber v).mono not_isEventParsing_of_typeError
  have hupdated : ∀ v, ThrowsOnly (fun e => ¬e.IsEventParsing)
      (decodeEmployeeStatusUpdatedEvent.updatedAtOf now v) := by
    intro v
    cases v with
    | none => exact throwsOnly_ok _ _
    | some v => exact hnumber (some v)
  have hdate : ∀ v, ThrowsOnly (fun e => ¬e.IsEventParsing) (decodeEmployeeStatusUpdatedEvent.effectiveDateOf v) := by
    intro v
    cases v with
    | none => exact throwsOnly_ok _ _
    | some v => exact (hnumber (some v)).bind fun _ => throwsOnly_ok _ _
  unfold decodeEmployeeStatusUpdatedEvent
  split
  · exact throwsOnly_error id
  · refine (throwsOnly_throwIf id).bind fun _ => (throwsOnly_throwIf id).bind fun _ => hdata.bind fun data => ?_
    exact (hupdated _).bind fun updatedAt => (hdate _).bind fun effectiveDate => throwsOnly_ok _ _

end ZkPayroll.Events.EmployeeStatus
