import ZkPayroll.Events.ScVal

/-!
# Expired drafts

`parseDraftExpiryEvent` of `events/draftExpiry.ts`, and what a
`payroll_draft_expiry` event encodes.
-/

namespace ZkPayroll.Events.DraftExpiry

open Framework

structure PayrollDraftExpiryEvent extends Origin where
  employer : String
  draftId : String
  expiryTimestamp : Nat
  expiredAt : Nat
  autoCleaned : Bool

def EVENT_NAME : String := "payroll_draft_expiry"

def parseDraftExpiryEvent (event : RawContractEvent) : Except Thrown PayrollDraftExpiryEvent :=
  match event.topics[0]? with
  | none => .error (.eventDecoding "Event has no topics" event)
  | some topic => do
    let eventName := decodeEventName topic
    let got := if eventName = "" then "unknown" else eventName
    throwIf (eventName ≠ EVENT_NAME) (.eventDecoding s!"Expected \"{EVENT_NAME}\" event, got \"{got}\"" event)
    let employer := decodeAddress event.topics[1]?
    throwIf (employer = "") (.eventDecoding "Missing required employer topic in payroll_draft_expiry event" event)
    let data ← decodeDataMap event.data
    let draftId ← decodeStr (data.lookup "draft_id")
    throwIf (draftId.getD "" = "")
      (.eventDecoding "Missing required draft_id in payroll_draft_expiry event data" event)
    let expiryTimestamp ← decodeU64AsNumber (data.lookup "expiry_timestamp")
    throwIf (expiryTimestamp = 0)
      (.eventDecoding "Invalid or missing expiry_timestamp in payroll_draft_expiry event data" event)
    let expiredAt ← decodeU64AsNumber (data.lookup "expired_at")
    throwIf (expiredAt = 0)
      (.eventDecoding "Invalid or missing expired_at in payroll_draft_expiry event data" event)
    .ok {
      toOrigin := event.origin
      employer
      draftId := draftId.getD ""
      expiryTimestamp
      expiredAt
      autoCleaned := ((data.lookup "auto_cleaned").bind ScVal.b?).getD false }
where
  /-- `scVal?.str()?.toString()`. -/
  decodeStr : Option ScVal → Except Thrown (Option String)
    | none => .ok none
    | some v => v.str

/-- What the event encodes, when every field has the right type. -/
def encoded (event : RawContractEvent) : Option PayrollDraftExpiryEvent := do
  let employer ← addressOf event.topics[1]?
  let draftId ← stringIdOf (fieldOf event.data "draft_id")
  let expiryTimestamp ← u64Of (fieldOf event.data "expiry_timestamp")
  let expiredAt ← u64Of (fieldOf event.data "expired_at")
  let autoCleaned ← (fieldOf event.data "auto_cleaned").bind ScVal.b?
  some { toOrigin := event.origin, employer, draftId, expiryTimestamp, expiredAt, autoCleaned }

/-- A timestamp that is decoded as it is encoded: a double above zero. -/
def TimestampFits (v : Option ScVal) : Prop := ∃ n, u64Of v = some n ∧ FitsDouble n ∧ n ≠ 0

theorem decodeStr_of_stringId {v : Option ScVal} {s : String} (h : stringIdOf v = some s) :
    parseDraftExpiryEvent.decodeStr v = .ok (some s) ∧ s ≠ "" := by
  obtain ⟨hs, hne⟩ := Option.filter_eq_some_iff.mp h
  obtain ⟨w, rfl, hw⟩ := Option.bind_eq_some_iff.mp hs
  refine ⟨?_, of_decide_eq_true hne⟩
  cases w <;> cases hw
  rfl

theorem throwsOnly_decodeStr (v : Option ScVal) :
    ThrowsOnly (fun e => ¬e.IsEventParsing) (parseDraftExpiryEvent.decodeStr v) := by
  cases v with
  | none => exact throwsOnly_ok _ _
  | some v => exact (ScVal.throwsOnly_get _ _ v).mono not_isEventParsing_of_typeError

theorem timestampFits_iff {v : Option ScVal} {n : Nat} (h : u64Of v = some n) :
    TimestampFits v ↔ toDouble n = n ∧ toDouble n ≠ 0 := by
  rw [toDouble_eq_self_iff, Ne, toDouble_eq_zero_iff]
  constructor
  · intro ⟨m, hm, hfits⟩
    cases h.symm.trans hm
    exact hfits
  · intro hfits
    exact ⟨n, h, hfits⟩

variable {event : RawContractEvent}

theorem fields_of_encoded {e : PayrollDraftExpiryEvent} (h : encoded event = some e) :
    e.toOrigin = event.origin ∧ addressOf event.topics[1]? = some e.employer ∧
      stringIdOf (fieldOf event.data "draft_id") = some e.draftId ∧
      u64Of (fieldOf event.data "expiry_timestamp") = some e.expiryTimestamp ∧
      u64Of (fieldOf event.data "expired_at") = some e.expiredAt ∧
      (fieldOf event.data "auto_cleaned").bind ScVal.b? = some e.autoCleaned := by
  obtain ⟨_, hemployer, h⟩ := Option.bind_eq_some_iff.mp h
  obtain ⟨_, hid, h⟩ := Option.bind_eq_some_iff.mp h
  obtain ⟨_, hexpiry, h⟩ := Option.bind_eq_some_iff.mp h
  obtain ⟨_, hexpired, h⟩ := Option.bind_eq_some_iff.mp h
  obtain ⟨_, hcleaned, h⟩ := Option.bind_eq_some_iff.mp h
  cases h
  exact ⟨rfl, hemployer, hid, hexpiry, hexpired, hcleaned⟩

/-- On an event whose fields have the right types, the parser gives what is encoded, with doubles as its
timestamps, unless one of them is zero. -/
theorem parse_of_encoded {topic : ScVal} {e : PayrollDraftExpiryEvent}
    (htopic : event.topics[0]? = some topic) (hname : decodeEventName topic = EVENT_NAME)
    (henc : encoded event = some e) :
    parseDraftExpiryEvent event = (do
      let _ ← decodeDataMap event.data
      throwIf (toDouble e.expiryTimestamp = 0)
        (.eventDecoding "Invalid or missing expiry_timestamp in payroll_draft_expiry event data" event)
      throwIf (toDouble e.expiredAt = 0)
        (.eventDecoding "Invalid or missing expired_at in payroll_draft_expiry event data" event)
      .ok { e with expiryTimestamp := toDouble e.expiryTimestamp, expiredAt := toDouble e.expiredAt }) := by
  obtain ⟨horigin, hemployer, hid, hexpiry, hexpired, hcleaned⟩ := fields_of_encoded henc
  obtain ⟨hstr, hne⟩ := decodeStr_of_stringId hid
  unfold parseDraftExpiryEvent
  rw [htopic]
  dsimp only
  rw [hname, decodeAddress_of_address hemployer, throwIf_bind_of_not (not_not_intro rfl),
    throwIf_bind_of_not (addressOf_ne_empty hemployer)]
  apply decodeDataMap_bind_congr
  intro data hdata
  simp only [hdata, ne_eq, String.reduceEq, not_false_eq_true, hstr, decodeU64AsNumber_of_u64 hexpiry,
    decodeU64AsNumber_of_u64 hexpired, hcleaned, ok_bind, Option.getD_some, throwIf_bind_of_not hne, horigin]

/-- The parser returns what is encoded when the data are readable and the timestamps fit. -/
theorem returns_iff {topic : ScVal}
    (htopic : event.topics[0]? = some topic) (hname : decodeEventName topic = EVENT_NAME) :
    Returns (encoded event) (parseDraftExpiryEvent event) ↔
      (encoded event).isSome ∧ Readable event.data ∧ TimestampFits (fieldOf event.data "expiry_timestamp") ∧
        TimestampFits (fieldOf event.data "expired_at") := by
  cases henc : encoded event with
  | none => exact iff_of_false not_returns_none fun h => Bool.false_ne_true h.1
  | some e =>
    obtain ⟨-, -, -, hexpiry, hexpired, -⟩ := fields_of_encoded henc
    rw [parse_of_encoded htopic hname henc, returns_decodeDataMap_bind, returns_throwIf_bind, returns_throwIf_bind,
      returns_ok, timestampFits_iff hexpiry, timestampFits_iff hexpired]
    have hrecord : some e =
        some { e with expiryTimestamp := toDouble e.expiryTimestamp, expiredAt := toDouble e.expiredAt } ↔
        toDouble e.expiryTimestamp = e.expiryTimestamp ∧ toDouble e.expiredAt = e.expiredAt := by
      cases e
      simp only [Option.some.injEq, PayrollDraftExpiryEvent.mk.injEq, true_and, and_true, eq_comm]
    rw [hrecord]
    constructor
    · intro ⟨hread, hne, hne', h, h'⟩
      exact ⟨rfl, hread, ⟨h, hne⟩, h', hne'⟩
    · intro ⟨_, hread, ⟨h, hne⟩, h', hne'⟩
      exact ⟨hread, hne, hne', h, h'⟩

/-- The errors of this parser are not those that `parseContractEvent` says it throws. -/
theorem throwsOnly_parse (event : RawContractEvent) :
    ThrowsOnly (fun e => ¬e.IsEventParsing) (parseDraftExpiryEvent event) := by
  have hdata := (throwsOnly_decodeDataMap event.data).mono not_isEventParsing_of_typeError
  have hnumber := fun v => (throwsOnly_decodeU64AsNumber v).mono not_isEventParsing_of_typeError
  unfold parseDraftExpiryEvent
  split
  · exact throwsOnly_error id
  · refine (throwsOnly_throwIf id).bind fun _ => (throwsOnly_throwIf id).bind fun _ => hdata.bind fun data => ?_
    refine (throwsOnly_decodeStr _).bind fun draftId => (throwsOnly_throwIf id).bind fun _ => ?_
    refine (hnumber _).bind fun expiryTimestamp => (throwsOnly_throwIf id).bind fun _ => ?_
    exact (hnumber _).bind fun expiredAt => (throwsOnly_throwIf id).bind fun _ => throwsOnly_ok _ _

end ZkPayroll.Events.DraftExpiry
