import ZkPayroll.Events.ScVal

/-!
# Deposits to the treasury

`parseTreasuryDepositEvent` of `events/treasuryDeposit.ts`, and what a deposit
encodes. Of what can be missing the parser refuses only the depositor; the
asset, the amount and the time have defaults instead.
-/

namespace ZkPayroll.Events.TreasuryDeposit

open Framework

structure TreasuryDepositEvent extends Origin where
  depositor : String
  asset : String
  amount : Int
  memo : Option String
  depositedAt : Nat

def PRIMARY_EVENT_NAME : String := "treasury_deposited"

def ALIAS_EVENT_NAME : String := "treasury_deposit"

/-! ## The parser -/

/-- The depositor of the topic or, if there is none, of the data. -/
def parseDepositor (topic field : Option ScVal) : String :=
  let depositor := decodeAddress topic
  if depositor = "" then decodeAddress field else depositor

/-- `scVal.sym()?.toString() ?? ""`, and an error leaves the text empty. -/
def symbolText (v : ScVal) : String :=
  match v.sym with
  | .ok s => s.getD ""
  | .error _ => ""

/-- The asset of the topic, that of the data, or the default. -/
def parseAsset (topic field : Option ScVal) : String :=
  let asset := decodeAddress topic
  let asset := if asset = "" then dataAsset field else asset
  if asset = "" then "native" else asset
where
  dataAsset : Option ScVal → String
    | none => ""
    | some v => if decodeAddress (some v) = "" then symbolText v else decodeAddress (some v)

/-- `scVal.str()?.toString() || scVal.sym()?.toString()`, and an error leaves the memo undefined. -/
def parseMemo : Option ScVal → Option String
  | none => none
  | some v =>
    match text v with
    | .ok memo => memo
    | .error _ => none
where
  text (v : ScVal) : Except Thrown (Option String) := do
    let s ← v.str
    if s.getD "" = "" then v.sym else .ok s

/-- Without a timestamp the number stays zero. -/
def parseDepositedAt (field timestamp : Option ScVal) : Except Thrown Nat := do
  let depositedAt ← decodeU64AsNumber field
  if depositedAt = 0 then decodeU64AsNumber timestamp else .ok depositedAt

/-- What the parser does with the fields of the data. -/
def parseFields (event : RawContractEvent) (field : String → Option ScVal) : Except Thrown TreasuryDepositEvent := do
  let depositor := parseDepositor event.topics[1]? (field "depositor")
  throwIf (depositor = "")
    (.eventDecoding "Missing required depositor address in treasury deposit event" event)
  let depositedAt ← parseDepositedAt (field "deposited_at") (field "timestamp")
  .ok {
    toOrigin := event.origin
    depositor
    asset := parseAsset event.topics[2]? (field "asset")
    amount := decodeBigInt (field "amount")
    memo := parseMemo (field "memo")
    depositedAt }

def parseTreasuryDepositEvent (event : RawContractEvent) : Except Thrown TreasuryDepositEvent :=
  match event.topics[0]? with
  | none => .error (.eventDecoding "Event has no topics" event)
  | some topic => do
    let eventName := decodeEventName topic
    let got := if eventName = "" then "unknown" else eventName
    throwIf (eventName ≠ PRIMARY_EVENT_NAME ∧ eventName ≠ ALIAS_EVENT_NAME)
      (.eventDecoding
        s!"Expected \"{PRIMARY_EVENT_NAME}\" or \"{ALIAS_EVENT_NAME}\" event, got \"{got}\"" event)
    let data ← decodeDataMap event.data
    parseFields event fun key => data.lookup key

/-! ## What a deposit encodes -/

/-- The depositor, of a topic or else of the data. -/
def depositorOf (event : RawContractEvent) : Option String :=
  (addressOf event.topics[1]?).or (addressOf (fieldOf event.data "depositor"))

/-- An asset of the data is an address or a symbol. -/
def assetOf (event : RawContractEvent) : Option String :=
  (addressOf event.topics[2]?).or
    ((addressOf (fieldOf event.data "asset")).or
      (((fieldOf event.data "asset").bind ScVal.sym?).filter fun s => s ≠ ""))

/-- The timestamp is the time of the deposit when there is no field of that name. -/
def timeOf (event : RawContractEvent) : Option ScVal :=
  (fieldOf event.data "deposited_at").or (fieldOf event.data "timestamp")

/-- The event is one of the deposits. -/
def IsDeposit (event : RawContractEvent) : Prop :=
  ∃ topic, event.topics[0]? = some topic ∧
    (decodeEventName topic = PRIMARY_EVENT_NAME ∨ decodeEventName topic = ALIAS_EVENT_NAME)

/-- What the event encodes. -/
def encodedDeposit (event : RawContractEvent) : Option TreasuryDepositEvent := do
  let depositor ← depositorOf event
  let asset ← assetOf event
  let amount ← integerOf (fieldOf event.data "amount")
  let depositedAt ← u64Of (timeOf event)
  some { toOrigin := event.origin, depositor, asset, amount, memo := textOf (fieldOf event.data "memo"), depositedAt }

/-- Nothing is encoded by an event that is no deposit. -/
def encoded (event : RawContractEvent) : Option TreasuryDepositEvent := do
  let topic ← event.topics[0]?
  if decodeEventName topic = PRIMARY_EVENT_NAME ∨ decodeEventName topic = ALIAS_EVENT_NAME then encodedDeposit event
  else none

/-! ## The condition -/

/-- A memo that is there is a string with something in it, or nothing that has a text. -/
def MemoKept (v : Option ScVal) : Prop := v.bind ScVal.sym? = none ∧ v.bind ScVal.str? ≠ some ""

/-- The time is a double, and one that is zero is not put aside for another timestamp. -/
def TimeKept (event : RawContractEvent) : Prop :=
  DoubleIfPresent (timeOf event) ∧
    (u64Of (fieldOf event.data "deposited_at") = some 0 → ReadsZero (fieldOf event.data "timestamp"))

/-- The condition on a deposit: its data are readable and it either lacks the depositor or has all fields with the
right types, the memo and the time among those that are kept. -/
def Condition (event : RawContractEvent) : Prop :=
  IsDeposit event → Readable event.data ∧
    (depositorOf event = none ∨
      (encodedDeposit event).isSome ∧ MemoKept (fieldOf event.data "memo") ∧ TimeKept event)

/-! ## Fields -/

theorem parseDepositor_eq (event : RawContractEvent) :
    parseDepositor event.topics[1]? (fieldOf event.data "depositor") = (depositorOf event).getD "" := by
  unfold parseDepositor depositorOf
  dsimp only
  cases htopic : addressOf event.topics[1]? with
  | none => rw [if_pos (decodeAddress_eq_empty_iff.mpr htopic), Option.none_or, decodeAddress_eq]
  | some a =>
    rw [decodeAddress_of_address htopic, if_neg (addressOf_ne_empty htopic)]
    rfl

variable {event : RawContractEvent}

theorem depositorOf_ne_empty {a : String} (h : depositorOf event = some a) : a ≠ "" := by
  rcases Option.or_eq_some_iff.mp h with h | ⟨-, h⟩
  · exact addressOf_ne_empty h
  · exact addressOf_ne_empty h

theorem symbolText_of_symbol {v : ScVal} {s : String} (h : (v.sym?.filter fun s => s ≠ "") = some s) :
    symbolText v = s ∧ s ≠ "" := by
  obtain ⟨hs, hne⟩ := Option.filter_eq_some_iff.mp h
  refine ⟨?_, of_decide_eq_true hne⟩
  cases v <;> cases hs
  rfl

theorem dataAsset_of_asset {v : Option ScVal} {asset : String}
    (h : ((addressOf v).or ((v.bind ScVal.sym?).filter fun s => s ≠ "")) = some asset) :
    parseAsset.dataAsset v = asset ∧ asset ≠ "" := by
  cases v with
  | none => cases h
  | some v =>
    unfold parseAsset.dataAsset
    dsimp only
    cases haddress : addressOf (some v) with
    | some a =>
      rw [haddress] at h
      cases h
      rw [decodeAddress_of_address haddress, if_neg (addressOf_ne_empty haddress)]
      exact ⟨rfl, addressOf_ne_empty haddress⟩
    | none =>
      rw [haddress, Option.none_or] at h
      rw [if_pos (decodeAddress_eq_empty_iff.mpr haddress)]
      exact symbolText_of_symbol h

theorem parseAsset_of_asset {asset : String} (h : assetOf event = some asset) :
    parseAsset event.topics[2]? (fieldOf event.data "asset") = asset := by
  unfold assetOf at h
  unfold parseAsset
  dsimp only
  cases htopic : addressOf event.topics[2]? with
  | some a =>
    rw [htopic] at h
    cases h
    have hne := addressOf_ne_empty htopic
    rw [decodeAddress_of_address htopic, if_neg hne, if_neg hne]
  | none =>
    rw [htopic, Option.none_or] at h
    obtain ⟨heq, hne⟩ := dataAsset_of_asset h
    rw [if_pos (decodeAddress_eq_empty_iff.mpr htopic), heq, if_neg hne]

theorem parseMemo_iff {v : Option ScVal} : textOf v = parseMemo v ↔ MemoKept v := by
  cases v with
  | none => exact iff_of_true rfl ⟨rfl, fun h => by cases h⟩
  | some v =>
    cases v with
    | scvString s =>
      by_cases hs : s = ""
      · rw [hs]
        exact iff_of_false (by decide) fun h => h.2 rfl
      · have hmemo : parseMemo (some (.scvString s)) = some s := by
          have htext : parseMemo.text (.scvString s) = .ok (some s) := if_neg hs
          unfold parseMemo
          dsimp only
          rw [htext]
        rw [hmemo]
        exact iff_of_true rfl ⟨rfl, fun h => hs (Option.some.inj h)⟩
    | scvSymbol s => exact iff_of_false (fun h => by cases h) fun h => by cases h.1
    | _ => exact iff_of_true rfl ⟨rfl, fun h => by cases h⟩

/-- The time is decoded as it is encoded when it is kept. -/
theorem parseDepositedAt_iff {n : Nat} (h : u64Of (timeOf event) = some n) :
    parseDepositedAt (fieldOf event.data "deposited_at") (fieldOf event.data "timestamp") = .ok n ↔
      TimeKept event := by
  unfold parseDepositedAt TimeKept
  rw [doubleIfPresent_iff h, ← toDouble_eq_self_iff]
  unfold timeOf at h
  cases hdeposited : fieldOf event.data "deposited_at" with
  | none =>
    rw [hdeposited, Option.none_or] at h
    have hzero : decodeU64AsNumber none = .ok 0 := rfl
    rw [hzero, ok_bind, if_pos rfl, decodeU64AsNumber_of_u64 h]
    constructor
    · intro hn
      exact ⟨Except.ok.inj hn, fun h => by cases h⟩
    · intro hn
      exact congrArg Except.ok hn.1
  | some v =>
    rw [hdeposited, Option.some_or] at h
    rw [decodeU64AsNumber_of_u64 h, ok_bind, h]
    by_cases hn : n = 0
    · rw [hn, (toDouble_eq_zero_iff 0).mpr rfl, if_pos rfl, decodeU64AsNumber_eq_zero_iff]
      exact ⟨fun hz => ⟨rfl, fun _ => hz⟩, fun hz => hz.2 rfl⟩
    · rw [if_neg (mt (toDouble_eq_zero_iff n).mp hn)]
      constructor
      · intro hd
        exact ⟨Except.ok.inj hd, fun h => absurd (Option.some.inj h) hn⟩
      · intro hd
        exact congrArg Except.ok hd.1

/-! ## Every event -/

theorem fields_of_encodedDeposit {e : TreasuryDepositEvent} (h : encodedDeposit event = some e) :
    e.toOrigin = event.origin ∧ depositorOf event = some e.depositor ∧ assetOf event = some e.asset ∧
      integerOf (fieldOf event.data "amount") = some e.amount ∧ u64Of (timeOf event) = some e.depositedAt ∧
      e.memo = textOf (fieldOf event.data "memo") := by
  obtain ⟨_, hdepositor, h⟩ := Option.bind_eq_some_iff.mp h
  obtain ⟨_, hasset, h⟩ := Option.bind_eq_some_iff.mp h
  obtain ⟨_, hamount, h⟩ := Option.bind_eq_some_iff.mp h
  obtain ⟨_, htime, h⟩ := Option.bind_eq_some_iff.mp h
  cases h
  exact ⟨rfl, hdepositor, hasset, hamount, htime, rfl⟩

theorem throwsOnly_parseDepositedAt (field timestamp : Option ScVal) :
    ThrowsOnly Thrown.IsTypeError (parseDepositedAt field timestamp) := by
  refine (throwsOnly_decodeU64AsNumber field).bind fun depositedAt => ?_
  split
  · exact throwsOnly_decodeU64AsNumber timestamp
  · exact throwsOnly_ok _ _

theorem not_isEventDecoding_of_typeError (e : Thrown) (h : e.IsTypeError) : ¬e.IsEventDecoding := by
  cases e <;> first | exact id | exact h.elim

theorem returns_parseFields_iff :
    Returns (encodedDeposit event) (parseFields event (fieldOf event.data)) ↔
      (encodedDeposit event).isSome ∧ MemoKept (fieldOf event.data "memo") ∧ TimeKept event := by
  cases henc : encodedDeposit event with
  | none => exact iff_of_false not_returns_none fun h => Bool.false_ne_true h.1
  | some e =>
    obtain ⟨horigin, hdepositor, hasset, hamount, htime, hmemo⟩ := fields_of_encodedDeposit henc
    unfold parseFields
    rw [parseDepositor_eq, hdepositor, parseAsset_of_asset hasset, decodeBigInt_of_integer hamount,
      ← parseDepositedAt_iff htime, ← parseMemo_iff, ← hmemo, ← horigin]
    dsimp only [Option.getD_some]
    rw [throwIf_bind_of_not (depositorOf_ne_empty hdepositor), returns_bind]
    simp only [returns_ok]
    constructor
    · intro ⟨n, hn, he⟩
      cases e
      cases he
      exact ⟨rfl, rfl, hn⟩
    · intro ⟨_, hm, ht⟩
      refine ⟨_, ht, ?_⟩
      rw [← hm]

theorem faithful_parseFields_iff :
    Faithful Thrown.IsEventDecoding (encodedDeposit event) (parseFields event (fieldOf event.data)) ↔
      depositorOf event = none ∨
        (encodedDeposit event).isSome ∧ MemoKept (fieldOf event.data "memo") ∧ TimeKept event := by
  cases hdepositor : depositorOf event with
  | none =>
    have hrefused : ∃ e, parseFields event (fieldOf event.data) = .error e ∧ e.IsEventDecoding := by
      unfold parseFields
      rw [parseDepositor_eq, hdepositor]
      exact ⟨_, rfl, trivial⟩
    obtain ⟨e, he, hrefusal⟩ := hrefused
    refine iff_of_true (faithful_of_refused ?_ he hrefusal) (.inl rfl)
    exact Option.bind_eq_none_iff.mpr fun a ha => by cases hdepositor.symm.trans ha
  | some depositor =>
    have honly : ThrowsOnly (fun e => ¬e.IsEventDecoding) (parseFields event (fieldOf event.data)) := by
      unfold parseFields
      rw [parseDepositor_eq, hdepositor]
      dsimp only [Option.getD_some]
      rw [throwIf_bind_of_not (depositorOf_ne_empty hdepositor)]
      exact ((throwsOnly_parseDepositedAt _ _).mono not_isEventDecoding_of_typeError).bind fun _ => throwsOnly_ok _ _
    rw [faithful_iff_returns honly, returns_parseFields_iff]
    exact ⟨.inr, fun h => h.resolve_left fun h => by cases h⟩

/-- The parser is faithful, with `EventDecodingError` as its refusal, on the events that meet the condition. -/
theorem faithful_parse_iff (event : RawContractEvent) :
    Faithful Thrown.IsEventDecoding (encoded event) (parseTreasuryDepositEvent event) ↔ Condition event := by
  unfold parseTreasuryDepositEvent encoded Condition
  cases htopic : event.topics[0]? with
  | none => exact iff_of_true ⟨_, rfl, trivial⟩ fun ⟨_, h, _⟩ => by cases htopic.symm.trans h
  | some topic =>
    by_cases hname : decodeEventName topic = PRIMARY_EVENT_NAME ∨ decodeEventName topic = ALIAS_EVENT_NAME
    · dsimp only
      have hdeposit : IsDeposit event := ⟨topic, htopic, hname⟩
      have henc : (do
          let topic ← some topic
          if decodeEventName topic = PRIMARY_EVENT_NAME ∨ decodeEventName topic = ALIAS_EVENT_NAME then
            encodedDeposit event
          else none) = encodedDeposit event := if_pos hname
      rw [henc, throwIf_bind_of_not (fun h => hname.elim h.1 h.2),
        faithful_decodeDataMap_bind not_isEventDecoding_of_typeError, faithful_parseFields_iff]
      · exact ⟨fun h _ => h, fun h => h hdeposit⟩
      · intro data hdata
        simp only [parseFields, hdata, ne_eq, String.reduceEq, not_false_eq_true]
    · have hother : decodeEventName topic ≠ PRIMARY_EVENT_NAME ∧ decodeEventName topic ≠ ALIAS_EVENT_NAME :=
        not_or.mp hname
      dsimp only
      rw [throwIf_bind_of hother]
      refine iff_of_true (faithful_of_refused (if_neg hname) rfl trivial) fun ⟨topic', htopic', hname'⟩ => ?_
      cases htopic.symm.trans htopic'
      exact absurd hname' hname

end ZkPayroll.Events.TreasuryDeposit
