import ZkPayroll.Events.ScVal

/-!
# Reservations of funds

`parseFundingReservationCreatedEvent` of `events/reservations.ts`, and what a
`funding_reservation_created` event encodes. The parser refuses an event
without employer, identifier or assets; an amount and the expiration become
zero when they cannot be decoded.
-/

namespace ZkPayroll.Events.Reservations

open Framework

structure ReservationAssetAmount where
  asset : String
  amount : Int

structure FundingReservationCreatedEvent extends Origin where
  reservationId : String
  employer : String
  assets : List ReservationAssetAmount
  expirationUnixSeconds : Nat

def EVENT_NAME : String := "funding_reservation_created"

/-! ## The parser -/

def decodeString : Option ScVal → String
  | some (.scvString s) => s
  | some (.scvSymbol s) => s
  | _ => ""

/-- The helper of the same name, but an error gives zero. -/
def decodeU64AsNumber (v : Option ScVal) : Nat :=
  match Events.decodeU64AsNumber v with
  | .ok n => n
  | .error _ => 0

def decodeEntry (event : RawContractEvent) (entryScVal : ScVal) : Except Thrown ReservationAssetAmount := do
  let entry ← decodeDataMap entryScVal
  let asset :=
    if decodeAddress (entry.lookup "asset") = "" then decodeString (entry.lookup "asset")
    else decodeAddress (entry.lookup "asset")
  let amount := decodeBigInt (entry.lookup "amount")
  throwIf (asset = "")
    (.reservationEventParsing
      "An asset entry in funding_reservation_created is missing its asset identifier" event)
  .ok { asset, amount }

def decodeAssets (event : RawContractEvent) : Option ScVal → Except Thrown (List ReservationAssetAmount)
  | none => .ok []
  | some v =>
    match v.vec with
    | .error _ =>
      .error (.reservationEventParsing "funding_reservation_created event's assets field is not a vector" event)
    | .ok (some (some vec)) => vec.mapM (decodeEntry event)
    | .ok _ => .ok []

/-- What the parser does with the fields of the data. -/
def parseFields (event : RawContractEvent) (employer : String) (field : String → Option ScVal) :
    Except Thrown FundingReservationCreatedEvent := do
  let reservationId := decodeString (field "reservation_id")
  throwIf (reservationId = "")
    (.reservationEventParsing "Missing reservation_id in funding_reservation_created event data" event)
  let assets ← decodeAssets event (field "assets")
  throwIf (assets.length = 0)
    (.reservationEventParsing "funding_reservation_created event has no reserved assets" event)
  .ok {
    toOrigin := event.origin
    reservationId
    employer
    assets
    expirationUnixSeconds := decodeU64AsNumber (field "expiration_unix_seconds") }

def parseFundingReservationCreatedEvent (event : RawContractEvent) :
    Except Thrown FundingReservationCreatedEvent :=
  match event.topics[0]? with
  | none => .error (.reservationEventParsing "Event has no topics" event)
  | some topic => do
    let eventName := decodeEventName topic
    let got := if eventName = "" then "<unrecognized>" else eventName
    throwIf (eventName ≠ EVENT_NAME)
      (.reservationEventParsing s!"Expected event \"{EVENT_NAME}\", got \"{got}\"" event)
    let employer := decodeAddress event.topics[1]?
    throwIf (employer = "")
      (.reservationEventParsing "Missing or invalid employer topic in funding_reservation_created event" event)
    let data ← decodeDataMap event.data
    parseFields event employer fun key => data.lookup key

/-! ## What a reservation encodes -/

/-- The asset of an entry is an address or a text. -/
def assetOf (entry : ScVal) : Option String :=
  (addressOf (fieldOf entry "asset")).or (identifierOf (fieldOf entry "asset"))

/-- The asset and the amount that an entry encodes. -/
def encodedEntry (entry : ScVal) : Option ReservationAssetAmount := do
  let asset ← assetOf entry
  let amount ← integerOf (fieldOf entry "amount")
  some { asset, amount }

/-- The entries of the assets, of which there is one at least. -/
def entriesOf : Option ScVal → Option (List ScVal)
  | some (.scvVec (some (entry :: entries))) => some (entry :: entries)
  | _ => none

/-- What the event encodes. -/
def encodedReservation (event : RawContractEvent) : Option FundingReservationCreatedEvent := do
  let employer ← addressOf event.topics[1]?
  let reservationId ← identifierOf (fieldOf event.data "reservation_id")
  let entries ← entriesOf (fieldOf event.data "assets")
  let assets ← entries.mapM encodedEntry
  let expirationUnixSeconds ← u64Of (fieldOf event.data "expiration_unix_seconds")
  some { toOrigin := event.origin, reservationId, employer, assets, expirationUnixSeconds }

/-- Nothing is encoded by another event. -/
def encoded (event : RawContractEvent) : Option FundingReservationCreatedEvent := do
  let topic ← event.topics[0]?
  if decodeEventName topic = EVENT_NAME then encodedReservation event else none

/-! ## The condition -/

/-- Some entry is readable and has no asset, and those before it are readable and have one. -/
def RefusedEntry (entries : List ScVal) : Prop :=
  ∃ before entry after, entries = before ++ entry :: after ∧ (Readable entry ∧ assetOf entry = none) ∧
    ∀ e ∈ before, Readable e ∧ (assetOf e).isSome

/-- The data lack the identifier or the assets, or an entry is refused. -/
def RefusedData (event : RawContractEvent) : Prop :=
  identifierOf (fieldOf event.data "reservation_id") = none ∨
    ∀ entries, entriesOf (fieldOf event.data "assets") = some entries → RefusedEntry entries

/-- All fields have the right types, the entries are readable, and the expiration is a double. -/
def ReadableReservation (event : RawContractEvent) : Prop :=
  (encodedReservation event).isSome ∧
    (∀ entries, entriesOf (fieldOf event.data "assets") = some entries → ∀ e ∈ entries, Readable e) ∧
    DoubleIfPresent (fieldOf event.data "expiration_unix_seconds")

/-- The condition on a reservation: it lacks the employer, or its data are readable and either refused or read. -/
def Condition (event : RawContractEvent) : Prop :=
  ∀ topic, event.topics[0]? = some topic → decodeEventName topic = EVENT_NAME →
    addressOf event.topics[1]? = none ∨
      Readable event.data ∧ (RefusedData event ∨ ReadableReservation event)

/-! ## Fields -/

theorem decodeString_eq (v : Option ScVal) : decodeString v = (identifierOf v).getD "" := by
  have hfilter : ∀ s : String, s = ((some s).filter fun s => s ≠ "").getD "" := by
    intro s
    by_cases hs : s = ""
    · rw [hs]
      rfl
    · rw [Option.filter_some, if_pos (decide_eq_true hs)]
      rfl
  cases v with
  | none => rfl
  | some v =>
    cases v with
    | scvString s => exact hfilter s
    | scvSymbol s => exact hfilter s
    | _ => rfl

variable {v : Option ScVal}

theorem identifierOf_ne_empty {s : String} (h : identifierOf v = some s) : s ≠ "" :=
  of_decide_eq_true (Option.filter_eq_some_iff.mp h).2

theorem decodeU64AsNumber_of_u64 {n : Nat} (h : u64Of v = some n) :
    decodeU64AsNumber v = toDouble n := by
  unfold decodeU64AsNumber
  rw [Events.decodeU64AsNumber_of_u64 h]

theorem not_isReservationEventParsing_of_typeError (e : Thrown) (h : e.IsTypeError) :
    ¬e.IsReservationEventParsing := by
  cases e <;> first | exact id | exact h.elim

/-! ## Entries -/

variable (event : RawContractEvent) {entry : ScVal}

/-- An entry that is readable is refused without an asset; otherwise its amount is what the helper makes of it. -/
theorem decodeEntry_of_readable (h : Readable entry) :
    decodeEntry event entry =
      orThrow (.reservationEventParsing
        "An asset entry in funding_reservation_created is missing its asset identifier" event)
        ((assetOf entry).map fun asset => { asset, amount := decodeBigInt (fieldOf entry "amount") }) := by
  obtain ⟨data, hdata⟩ := decodeDataMap_eq_ok_iff.mpr h
  unfold decodeEntry assetOf
  rw [hdata, ok_bind, lookup_decodeDataMap hdata (by decide), lookup_decodeDataMap hdata (by decide)]
  dsimp only
  cases haddress : addressOf (fieldOf entry "asset") with
  | some a =>
    have hne := addressOf_ne_empty haddress
    rw [decodeAddress_of_address haddress, if_neg hne, throwIf_bind_of_not hne]
    rfl
  | none =>
    rw [if_pos (decodeAddress_eq_empty_iff.mpr haddress), Option.none_or, decodeString_eq]
    cases hid : identifierOf (fieldOf entry "asset") with
    | none => rfl
    | some a =>
      have hne := identifierOf_ne_empty hid
      dsimp only [Option.getD_some]
      rw [throwIf_bind_of_not hne]
      rfl

theorem decodeEntry_of_not_readable (h : ¬Readable entry) :
    ∃ e, decodeEntry event entry = .error e ∧ e.IsTypeError := by
  rw [← decodeDataMap_eq_ok_iff] at h
  unfold decodeEntry
  cases hdata : decodeDataMap entry with
  | ok data => exact absurd ⟨data, hdata⟩ h
  | error e => exact ⟨e, rfl, throwsOnly_decodeDataMap entry e hdata⟩

theorem decodeEntry_ok_iff (entry : ScVal) :
    (∃ a, decodeEntry event entry = .ok a) ↔ Readable entry ∧ (assetOf entry).isSome := by
  by_cases h : Readable entry
  · rw [decodeEntry_of_readable event h]
    cases assetOf entry <;> simp [orThrow, h]
  · obtain ⟨e, he, -⟩ := decodeEntry_of_not_readable event h
    rw [he]
    refine iff_of_false ?_ fun hr => h hr.1
    intro hok
    obtain ⟨a, ha⟩ := hok
    cases ha

theorem decodeEntry_refused_iff (entry : ScVal) :
    (∃ e, decodeEntry event entry = .error e ∧ e.IsReservationEventParsing) ↔
      Readable entry ∧ assetOf entry = none := by
  by_cases h : Readable entry
  · rw [decodeEntry_of_readable event h]
    cases assetOf entry <;> simp [orThrow, h, Thrown.IsReservationEventParsing]
  · obtain ⟨e, he, htype⟩ := decodeEntry_of_not_readable event h
    rw [he]
    refine iff_of_false ?_ fun hr => h hr.1
    intro hrefused
    obtain ⟨e', he', hr⟩ := hrefused
    cases he'
    exact not_isReservationEventParsing_of_typeError e htype hr

theorem decodeEntry_of_encoded {a : ReservationAssetAmount}
    (h : Readable entry) (henc : encodedEntry entry = some a) : decodeEntry event entry = .ok a := by
  obtain ⟨asset, hasset, henc⟩ := Option.bind_eq_some_iff.mp henc
  obtain ⟨amount, hamount, henc⟩ := Option.bind_eq_some_iff.mp henc
  cases henc
  rw [decodeEntry_of_readable event h, hasset, decodeBigInt_of_integer hamount]
  rfl

theorem refusedEntry_iff (entries : List ScVal) :
    RefusedEntry entries ↔
      ∃ e, entries.mapM (decodeEntry event) = .error e ∧ e.IsReservationEventParsing := by
  simp only [mapM_eq_error_iff, decodeEntry_ok_iff]
  unfold RefusedEntry
  simp only [← decodeEntry_refused_iff event]
  constructor
  · intro ⟨before, entry, after, hsplit, ⟨e, he, hr⟩, hbefore⟩
    exact ⟨e, ⟨before, entry, after, hsplit, he, hbefore⟩, hr⟩
  · intro ⟨e, ⟨before, entry, after, hsplit, he, hbefore⟩, hr⟩
    exact ⟨before, entry, after, hsplit, ⟨e, he, hr⟩, hbefore⟩

/-- Entries of which one is refused encode no assets. -/
theorem mapM_encodedEntry_of_refused {entries : List ScVal} (h : RefusedEntry entries) :
    entries.mapM encodedEntry = none := by
  obtain ⟨before, entry, after, hsplit, ⟨-, hnone⟩, -⟩ := h
  by_contra hsome
  obtain ⟨assets, hassets⟩ := Option.ne_none_iff_exists'.mp hsome
  have hmem : entry ∈ entries := by
    rw [hsplit]
    exact List.mem_append_right before List.mem_cons_self
  obtain ⟨a, ha⟩ := exists_of_mapM_some hassets entry hmem
  obtain ⟨asset, hasset, -⟩ := Option.bind_eq_some_iff.mp ha
  cases hnone.symm.trans hasset

theorem decodeAssets_of_entries {entries : List ScVal} (h : entriesOf v = some entries) :
    decodeAssets event v = entries.mapM (decodeEntry event) ∧ entries ≠ [] := by
  unfold entriesOf at h
  split at h
  · cases h
    exact ⟨rfl, List.cons_ne_nil _ _⟩
  · cases h

/-- Without entries there is an error of the parser, or no asset. -/
theorem decodeAssets_of_no_entries (h : entriesOf v = none) :
    (∃ e, decodeAssets event v = .error e ∧ e.IsReservationEventParsing) ∨ decodeAssets event v = .ok [] := by
  cases v with
  | none => exact .inr rfl
  | some v =>
    cases v with
    | scvVec vec =>
      cases vec with
      | none => exact .inr rfl
      | some entries =>
        cases entries with
        | nil => exact .inr rfl
        | cons entry entries => cases h
    | scvVoid => exact .inr rfl
    | scvLedgerKeyContractInstance => exact .inr rfl
    | _ => exact .inl ⟨_, rfl, trivial⟩

/-! ## Every event -/

theorem fields_of_encodedReservation {event : RawContractEvent} {e : FundingReservationCreatedEvent}
    (h : encodedReservation event = some e) :
    e.toOrigin = event.origin ∧ addressOf event.topics[1]? = some e.employer ∧
      identifierOf (fieldOf event.data "reservation_id") = some e.reservationId ∧
      (∃ entries, entriesOf (fieldOf event.data "assets") = some entries ∧
        entries.mapM encodedEntry = some e.assets) ∧
      u64Of (fieldOf event.data "expiration_unix_seconds") = some e.expirationUnixSeconds := by
  obtain ⟨_, hemployer, h⟩ := Option.bind_eq_some_iff.mp h
  obtain ⟨_, hid, h⟩ := Option.bind_eq_some_iff.mp h
  obtain ⟨entries, hentries, h⟩ := Option.bind_eq_some_iff.mp h
  obtain ⟨_, hassets, h⟩ := Option.bind_eq_some_iff.mp h
  obtain ⟨_, hexpiration, h⟩ := Option.bind_eq_some_iff.mp h
  cases h
  exact ⟨rfl, hemployer, hid, ⟨entries, hentries, hassets⟩, hexpiration⟩

theorem encodedReservation_eq_none_of {event : RawContractEvent}
    (h : identifierOf (fieldOf event.data "reservation_id") = none ∨
      ∀ entries, entriesOf (fieldOf event.data "assets") = some entries → entries.mapM encodedEntry = none) :
    encodedReservation event = none := by
  by_contra hsome
  obtain ⟨e, he⟩ := Option.ne_none_iff_exists'.mp hsome
  obtain ⟨-, -, hid, ⟨entries, hentries, hassets⟩, -⟩ := fields_of_encodedReservation he
  rcases h with h | h
  · cases h.symm.trans hid
  · cases (h entries hentries).symm.trans hassets

/-- The parser refuses the fields exactly when they are of those that it refuses. -/
theorem parseFields_refused_iff {event : RawContractEvent} (employer : String) :
    (∃ e, parseFields event employer (fieldOf event.data) = .error e ∧ e.IsReservationEventParsing) ↔
      RefusedData event := by
  unfold parseFields RefusedData
  dsimp only
  rw [decodeString_eq]
  cases hid : identifierOf (fieldOf event.data "reservation_id") with
  | none => exact iff_of_true ⟨_, rfl, trivial⟩ (.inl rfl)
  | some reservationId =>
    dsimp only [Option.getD_some]
    rw [throwIf_bind_of_not (identifierOf_ne_empty hid)]
    cases hentries : entriesOf (fieldOf event.data "assets") with
    | none =>
      refine iff_of_true ?_ (.inr fun _ h => by cases h)
      rcases decodeAssets_of_no_entries event hentries with ⟨e, he, hr⟩ | hnil
      · rw [he]
        exact ⟨e, rfl, hr⟩
      · rw [hnil]
        exact ⟨_, rfl, trivial⟩
    | some entries =>
      obtain ⟨hdecode, hne⟩ := decodeAssets_of_entries event hentries
      have hrefused : RefusedEntry entries ↔
          (some reservationId = none ∨ ∀ entries', some entries = some entries' → RefusedEntry entries') :=
        ⟨fun h => .inr fun _ he => Option.some.inj he ▸ h, fun h => (h.resolve_left nofun) entries rfl⟩
      rw [hdecode, ← hrefused, refusedEntry_iff event]
      cases hm : entries.mapM (decodeEntry event) with
      | error e =>
        constructor
        · intro ⟨e', he, hr⟩
          cases he
          exact ⟨e, rfl, hr⟩
        · intro ⟨e', he, hr⟩
          cases he
          exact ⟨e, rfl, hr⟩
      | ok assets =>
        have hlength : assets.length ≠ 0 := by
          rw [length_of_mapM_eq_ok hm]
          exact mt List.length_eq_zero_iff.mp hne
        rw [ok_bind, throwIf_bind_of_not hlength]
        exact iff_of_false (fun ⟨_, h, _⟩ => by cases h) fun ⟨_, h, _⟩ => by cases h

theorem returns_parseFields_iff {event : RawContractEvent} {employer : String}
    (hemployer : addressOf event.topics[1]? = some employer) :
    Returns (encodedReservation event) (parseFields event employer (fieldOf event.data)) ↔ ReadableReservation event := by
  unfold ReadableReservation
  cases henc : encodedReservation event with
  | none => exact iff_of_false not_returns_none fun h => Bool.false_ne_true h.1
  | some e =>
    obtain ⟨horigin, hemployer', hid, ⟨entries, hentries, hassets⟩, hexpiration⟩ := fields_of_encodedReservation henc
    cases hemployer.symm.trans hemployer'
    obtain ⟨hdecode, hne⟩ := decodeAssets_of_entries event hentries
    have hreadable : (∃ assets, entries.mapM (decodeEntry event) = .ok assets) ↔ ∀ entry ∈ entries, Readable entry := by
      rw [exists_mapM_ok_iff]
      refine forall₂_congr fun entry hentry => (decodeEntry_ok_iff event entry).trans ?_
      obtain ⟨a, ha⟩ := exists_of_mapM_some hassets entry hentry
      obtain ⟨asset, hasset, -⟩ := Option.bind_eq_some_iff.mp ha
      rw [hasset]
      exact and_iff_left rfl
    unfold parseFields
    dsimp only
    rw [decodeString_eq, hid, decodeU64AsNumber_of_u64 hexpiration, hdecode, doubleIfPresent_iff hexpiration,
      ← toDouble_eq_self_iff, ← horigin]
    dsimp only [Option.getD_some]
    rw [throwIf_bind_of_not (identifierOf_ne_empty hid), returns_bind]
    simp only [returns_throwIf_bind, returns_ok]
    constructor
    · intro ⟨assets, hm, _, he⟩
      refine ⟨rfl, fun entries' h => ?_, ?_⟩
      · cases hentries.symm.trans h
        exact hreadable.mp ⟨assets, hm⟩
      · have hexp := congrArg FundingReservationCreatedEvent.expirationUnixSeconds (Option.some.inj he)
        exact hexp.symm
    · intro ⟨_, hread, hexp⟩
      have hm : entries.mapM (decodeEntry event) = .ok e.assets :=
        mapM_ok_of_encoded hassets fun entry hentry _ ha =>
          decodeEntry_of_encoded event (hread entries hentries entry hentry) ha
      refine ⟨e.assets, hm, ?_, ?_⟩
      · rw [length_of_mapM_eq_ok hm]
        exact mt List.length_eq_zero_iff.mp hne
      · rw [hexp]

theorem faithful_parseFields_iff {event : RawContractEvent} {employer : String}
    (hemployer : addressOf event.topics[1]? = some employer) :
    Faithful Thrown.IsReservationEventParsing (encodedReservation event)
        (parseFields event employer (fieldOf event.data)) ↔
      RefusedData event ∨ ReadableReservation event := by
  by_cases hrefused : RefusedData event
  · obtain ⟨e, he, hr⟩ := (parseFields_refused_iff employer).mpr hrefused
    refine iff_of_true (faithful_of_refused (encodedReservation_eq_none_of ?_) he hr) (.inl hrefused)
    exact hrefused.imp id fun h entries hentries => mapM_encodedEntry_of_refused (h entries hentries)
  · have honly : ThrowsOnly (fun e => ¬e.IsReservationEventParsing)
        (parseFields event employer (fieldOf event.data)) := by
      intro e he hr
      exact hrefused ((parseFields_refused_iff employer).mp ⟨e, he, hr⟩)
    rw [faithful_iff_returns honly, returns_parseFields_iff hemployer]
    exact ⟨.inr, fun h => h.resolve_left hrefused⟩

/-- The parser is faithful, with `ReservationEventParsingError` as its refusal, on the events that meet the
condition. -/
theorem faithful_parse_iff :
    Faithful Thrown.IsReservationEventParsing (encoded event) (parseFundingReservationCreatedEvent event) ↔
      Condition event := by
  unfold parseFundingReservationCreatedEvent encoded Condition
  cases htopic : event.topics[0]? with
  | none => exact iff_of_true ⟨_, rfl, trivial⟩ fun _ h => by cases h
  | some topic =>
    by_cases hname : decodeEventName topic = EVENT_NAME
    · have henc : (do
          let topic ← some topic
          if decodeEventName topic = EVENT_NAME then encodedReservation event else none) = encodedReservation event :=
        if_pos hname
      have hall : ∀ P : Prop, (∀ t, some topic = some t → decodeEventName t = EVENT_NAME → P) ↔ P :=
        fun P => ⟨fun h => h topic rfl hname, fun h _ _ _ => h⟩
      rw [henc, hall]
      dsimp only
      rw [throwIf_bind_of_not (not_not_intro hname)]
      cases hemployer : addressOf event.topics[1]? with
      | none =>
        rw [throwIf_bind_of (decodeAddress_eq_empty_iff.mpr hemployer)]
        refine iff_of_true (faithful_of_refused ?_ rfl trivial) (.inl rfl)
        exact Option.bind_eq_none_iff.mpr fun a ha => by cases hemployer.symm.trans ha
      | some employer =>
        rw [decodeAddress_of_address hemployer, throwIf_bind_of_not (addressOf_ne_empty hemployer),
          faithful_decodeDataMap_bind not_isReservationEventParsing_of_typeError,
          faithful_parseFields_iff hemployer]
        · exact ⟨.inr, fun h => h.resolve_left nofun⟩
        · intro data hdata
          simp only [parseFields, hdata, ne_eq, String.reduceEq, not_false_eq_true]
    · dsimp only
      rw [throwIf_bind_of hname]
      refine iff_of_true (faithful_of_refused (if_neg hname) rfl trivial) fun topic' htopic' hname' => ?_
      cases htopic'
      exact absurd hname' hname

end ZkPayroll.Events.Reservations
