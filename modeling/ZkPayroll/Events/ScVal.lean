import ZkPayroll.Framework.Decoding
import ZkPayroll.Framework.Encoding
import ZkPayroll.Framework.Maps
import ZkPayroll.Framework.Words

/-!
# Values of events

`xdr.ScVal` with the accessors of the SDK, the raw event, and the decoding
helpers of `event-parser.ts`. Beside each helper stands what the value encodes
(`addressOf`, `integerOf`, ...), which is there only for a value of the right
type; on such a value the helper returns it.
-/

namespace ZkPayroll.Events

open Framework

/-! ## Values -/

/-- The text of an address, which is never empty. -/
structure StrKey where
  text : String
  nonempty : text ≠ ""

/-- The arms whose payload no decoder reads. -/
inductive UnreadArm where
  | scvError
  | scvU32
  | scvI32
  | scvI64
  | scvTimepoint
  | scvDuration
  | scvU128
  | scvU256
  | scvI256
  | scvContractInstance
  | scvLedgerKeyNonce
  deriving DecidableEq

/-- The values of topics and data. -/
inductive ScVal where
  | scvBool (b : Bool)
  | scvVoid
  | scvU64 (u64 : UInt64)
  | scvI128 (hi : Int64) (lo : UInt64)
  | scvBytes (bytes : List UInt8)
  | scvString (str : String)
  | scvSymbol (sym : String)
  | scvVec (vec : Option (List ScVal))
  | scvMap (map : Option (List (ScVal × ScVal)))
  | scvAddress (address : StrKey)
  | scvLedgerKeyContractInstance
  | unread (arm : UnreadArm)

structure RawContractEvent where
  contractId : Option String
  topics : List ScVal
  data : ScVal
  ledger : Option Nat
  ledgerClosedAt : Option String

/-- The fields of every typed event that come with the raw event. -/
structure Origin where
  contractId : Option String
  ledger : Option Nat
  timestamp : Option String

def RawContractEvent.origin (event : RawContractEvent) : Origin where
  contractId := event.contractId
  ledger := event.ledger
  timestamp := event.ledgerClosedAt

/-- What a decoder throws. -/
inductive Thrown where
  | eventParsing (message : String) (rawEvent : Option RawContractEvent)
  | eventDecoding (message : String) (rawEvent : RawContractEvent)
  | reservationEventParsing (message : String) (event : RawContractEvent)
  | typeError (message : String)

def Thrown.IsEventParsing : Thrown → Prop
  | .eventParsing _ _ => True
  | _ => False

def Thrown.IsEventDecoding : Thrown → Prop
  | .eventDecoding _ _ => True
  | _ => False

def Thrown.IsReservationEventParsing : Thrown → Prop
  | .reservationEventParsing _ _ => True
  | _ => False

def Thrown.IsTypeError : Thrown → Prop
  | .typeError _ => True
  | _ => False

/-! ## Accessors -/

namespace ScVal

def sym? : ScVal → Option String
  | scvSymbol s => some s
  | _ => none

def str? : ScVal → Option String
  | scvString s => some s
  | _ => none

def u64? : ScVal → Option UInt64
  | scvU64 n => some n
  | _ => none

def bytes? : ScVal → Option (List UInt8)
  | scvBytes bs => some bs
  | _ => none

def b? : ScVal → Option Bool
  | scvBool b => some b
  | _ => none

def address? : ScVal → Option StrKey
  | scvAddress a => some a
  | _ => none

def vec? : ScVal → Option (Option (List ScVal))
  | scvVec items => some items
  | _ => none

def map? : ScVal → Option (Option (List (ScVal × ScVal)))
  | scvMap entries => some entries
  | _ => none

/-- The arms without payload. -/
def isVoid : ScVal → Bool
  | scvVoid => true
  | scvLedgerKeyContractInstance => true
  | _ => false

/-- An accessor of the SDK: the payload of its own arm, `undefined` on an arm without payload. -/
def get (arm : String) (payload : Option α) (v : ScVal) : Except Thrown (Option α) :=
  match payload with
  | some a => .ok (some a)
  | none => if v.isVoid then .ok none else .error (.typeError s!"{arm} not set")

def sym (v : ScVal) : Except Thrown (Option String) := get "sym" v.sym? v

def str (v : ScVal) : Except Thrown (Option String) := get "str" v.str? v

def u64 (v : ScVal) : Except Thrown (Option UInt64) := get "u64" v.u64? v

def bytes (v : ScVal) : Except Thrown (Option (List UInt8)) := get "bytes" v.bytes? v

def address (v : ScVal) : Except Thrown (Option StrKey) := get "address" v.address? v

def vec (v : ScVal) : Except Thrown (Option (Option (List ScVal))) := get "vec" v.vec? v

def map (v : ScVal) : Except Thrown (Option (Option (List (ScVal × ScVal)))) := get "map" v.map? v

theorem throwsOnly_get (arm : String) (payload : Option α) (v : ScVal) :
    ThrowsOnly Thrown.IsTypeError (get arm payload v) := by
  unfold get
  split
  · exact throwsOnly_ok _ _
  · split
    · exact throwsOnly_ok _ _
    · exact throwsOnly_error trivial

end ScVal

/-- `Address.fromScVal`, which reads the type of the address that the accessor returns. -/
def fromScVal (v : ScVal) : Except Thrown StrKey := do
  match ← v.address with
  | some a => .ok a
  | none => .error (.typeError "Cannot read properties of undefined (reading 'switch')")

/-! ## Decoding helpers -/

def decodeEventName : ScVal → String
  | .scvSymbol s => s
  | _ => ""

def decodeAddress : Option ScVal → String
  | none => ""
  | some v =>
    match fromScVal v with
    | .ok a => a.text
    | .error _ => ""

def decodeBigInt : Option ScVal → Int
  | some (.scvI128 hi lo) => Int.lor (hi.toInt <<< (64 : Nat)) lo.toNat
  | some (.scvU64 n) => n.toNat
  | _ => 0

/-- The number is the double that is nearest to the word. -/
def decodeU64AsNumber : Option ScVal → Except Thrown Nat
  | none => .ok 0
  | some v => do
    match ← v.u64 with
    | some n => .ok (toDouble n.toNat)
    | none => .ok 0

def decodeBytes : Option ScVal → Except Thrown String
  | none => .ok ""
  | some v => do
    match ← v.bytes with
    | some bs => .ok (String.ofList (hexEncode bs))
    | none => .ok ""

/-- The entries of a map, put one after the other under the texts of their keys. -/
def putEntries : List (String × ScVal) → List (ScVal × ScVal) → Except Thrown (List (String × ScVal))
  | data, [] => .ok data
  | data, entry :: entries => do
    let key := (← entry.1.sym).getD ""
    putEntries (setKey key entry.2 data) entries

def decodeDataMap (v : ScVal) : Except Thrown (List (String × ScVal)) := do
  match ← v.map with
  | some (some entries) => putEntries [] entries
  | _ => .ok []

/-! ## What a value encodes -/

/-- The address, if the value is one. -/
def addressOf (v : Option ScVal) : Option String := v.bind fun v => v.address?.map StrKey.text

/-- The integer, if the value is one. -/
def integerOf : Option ScVal → Option Int
  | some (.scvI128 hi lo) => some (hi.toInt * 2 ^ 64 + lo.toNat)
  | some (.scvU64 n) => some n.toNat
  | _ => none

/-- The unsigned integer, if the value is one. -/
def u64Of (v : Option ScVal) : Option Nat := v.bind fun v => v.u64?.map UInt64.toNat

/-- The bytes in hexadecimal, if the value is bytes. -/
def bytesOf (v : Option ScVal) : Option String := v.bind fun v => v.bytes?.map fun bs => String.ofList (hexEncode bs)

/-- The text of a string or a symbol. -/
def textOf (v : Option ScVal) : Option String := v.bind fun v => v.str?.or v.sym?

/-- A text that can stand for something: an identifier is never empty. -/
def identifierOf (v : Option ScVal) : Option String := (textOf v).filter fun s => s ≠ ""

/-- An identifier that is a string. -/
def stringIdOf (v : Option ScVal) : Option String := (v.bind ScVal.str?).filter fun s => s ≠ ""

/-- The value under a key of the data; of several, the last. -/
def fieldOf (data : ScVal) (key : String) : Option ScVal :=
  match data with
  | .scvMap (some entries) => (entries.reverse.find? fun e => e.1.sym? = some key).map Prod.snd
  | _ => none

/-- The value is a map whose keys are symbols, or has no payload at all. -/
def Readable : ScVal → Prop
  | .scvMap (some entries) => ∀ e ∈ entries, e.1.sym?.isSome ∨ e.1.isVoid
  | .scvMap none => True
  | v => v.isVoid = true

/-- A value that is there is a text. -/
def TextIfPresent (v : Option ScVal) : Prop := v.isSome → (textOf v).isSome

/-- A value that is there is a word that is a double. -/
def DoubleIfPresent (v : Option ScVal) : Prop := v.isSome → ∃ n, u64Of v = some n ∧ FitsDouble n

/-! ## The helpers on values of the right type -/

theorem decodeAddress_eq (v : Option ScVal) : decodeAddress v = (addressOf v).getD "" := by
  cases v with
  | none => rfl
  | some v => cases v <;> rfl

variable {v : Option ScVal}

theorem addressOf_ne_empty {a : String} (h : addressOf v = some a) : a ≠ "" := by
  obtain ⟨w, -, hw⟩ := Option.bind_eq_some_iff.mp h
  obtain ⟨k, -, rfl⟩ := Option.map_eq_some_iff.mp hw
  exact k.nonempty

theorem decodeAddress_eq_empty_iff : decodeAddress v = "" ↔ addressOf v = none := by
  rw [decodeAddress_eq]
  cases h : addressOf v with
  | none => exact iff_of_true rfl rfl
  | some a => exact iff_of_false (addressOf_ne_empty h) (by simp)

theorem decodeAddress_of_address {a : String} (h : addressOf v = some a) : decodeAddress v = a := by
  rw [decodeAddress_eq, h]
  rfl

theorem decodeBigInt_eq (v : Option ScVal) : decodeBigInt v = (integerOf v).getD 0 := by
  unfold decodeBigInt integerOf
  split
  · rename_i hi lo
    exact lor_shiftLeft hi.toInt lo.toNat_lt
  · rfl
  · rfl

theorem decodeBigInt_of_integer {n : Int} (h : integerOf v = some n) : decodeBigInt v = n := by
  rw [decodeBigInt_eq, h]
  rfl

example : decodeBigInt (some (.scvI128 (-1) 18446744073709551615)) = -1 := by decide +kernel

theorem decodeU64AsNumber_of_u64 {n : Nat} (h : u64Of v = some n) :
    decodeU64AsNumber v = .ok (toDouble n) := by
  obtain ⟨w, rfl, hw⟩ := Option.bind_eq_some_iff.mp h
  obtain ⟨k, hk, rfl⟩ := Option.map_eq_some_iff.mp hw
  cases w <;> cases hk
  rfl

/-- A number is decoded as it is encoded when it is a double. -/
theorem returns_decodeU64AsNumber :
    Returns (u64Of v) (decodeU64AsNumber v) ↔ ∃ n, u64Of v = some n ∧ FitsDouble n := by
  constructor
  · intro ⟨n, hn, hd⟩
    rw [decodeU64AsNumber_of_u64 hn] at hd
    exact ⟨n, hn, (toDouble_eq_self_iff n).mp (Except.ok.inj hd)⟩
  · intro ⟨n, hn, hfits⟩
    refine ⟨n, hn, ?_⟩
    rw [decodeU64AsNumber_of_u64 hn, (toDouble_eq_self_iff n).mpr hfits]

theorem doubleIfPresent_iff {n : Nat} (h : u64Of v = some n) :
    DoubleIfPresent v ↔ FitsDouble n := by
  constructor
  · intro hfits
    have hsome : v.isSome := by
      cases v with
      | none => cases h
      | some v => rfl
    obtain ⟨m, hm, hfits⟩ := hfits hsome
    cases h.symm.trans hm
    exact hfits
  · intro hfits _
    exact ⟨n, h, hfits⟩

/-- There is no value, it has no payload, or it is the word zero. -/
def ReadsZero (v : Option ScVal) : Prop := ∀ w, v = some w → w.isVoid ∨ w.u64? = some 0

theorem decodeU64AsNumber_eq_zero_iff : decodeU64AsNumber v = .ok 0 ↔ ReadsZero v := by
  cases v with
  | none => exact iff_of_true rfl fun _ h => by cases h
  | some v =>
    have hzero : ReadsZero (some v) ↔ v.isVoid ∨ v.u64? = some 0 :=
      ⟨fun h => h v rfl, fun h _ hw => Option.some.inj hw ▸ h⟩
    rw [hzero]
    cases v with
    | scvU64 n =>
      have hn : n = 0 ↔ n.toNat = 0 := UInt64.toNat_inj.symm
      simp only [ScVal.isVoid, ScVal.u64?, Option.some.injEq, Bool.false_eq_true, false_or, hn]
      rw [← toDouble_eq_zero_iff]
      exact ⟨fun h => Except.ok.inj h, fun h => congrArg Except.ok h⟩
    | scvVoid => exact iff_of_true rfl (.inl rfl)
    | scvLedgerKeyContractInstance => exact iff_of_true rfl (.inl rfl)
    | _ => exact iff_of_false (fun h => by cases h) fun h => by rcases h with h | h <;> cases h

theorem decodeBytes_of_bytes {s : String} (h : bytesOf v = some s) : decodeBytes v = .ok s := by
  obtain ⟨w, rfl, hw⟩ := Option.bind_eq_some_iff.mp h
  obtain ⟨k, hk, rfl⟩ := Option.map_eq_some_iff.mp hw
  cases w <;> cases hk
  rfl

theorem throwsOnly_decodeU64AsNumber (v : Option ScVal) : ThrowsOnly Thrown.IsTypeError (decodeU64AsNumber v) := by
  cases v with
  | none => exact throwsOnly_ok _ _
  | some v =>
    refine (ScVal.throwsOnly_get _ _ v).bind fun n => ?_
    cases n <;> exact throwsOnly_ok _ _

theorem throwsOnly_decodeBytes (v : Option ScVal) : ThrowsOnly Thrown.IsTypeError (decodeBytes v) := by
  cases v with
  | none => exact throwsOnly_ok _ _
  | some v =>
    refine (ScVal.throwsOnly_get _ _ v).bind fun bs => ?_
    cases bs <;> exact throwsOnly_ok _ _

/-! ## Data maps -/

/-- The key of an entry is a symbol, or has no payload. -/
def KeyReadable (e : ScVal × ScVal) : Prop := e.1.sym?.isSome ∨ e.1.isVoid

variable {v : ScVal}

theorem sym_eq_ok_iff : (∃ key, v.sym = .ok key) ↔ v.sym?.isSome ∨ v.isVoid := by
  cases v <;> simp [ScVal.sym, ScVal.get, ScVal.sym?, ScVal.isVoid]

variable {entries : List (ScVal × ScVal)}

theorem putEntries_eq_ok_iff : ∀ {data : List (String × ScVal)},
    (∃ data', putEntries data entries = .ok data') ↔ ∀ e ∈ entries, KeyReadable e := by
  induction entries with
  | nil => simp [putEntries]
  | cons e entries ih =>
    intro data
    rw [List.forall_mem_cons, KeyReadable, ← sym_eq_ok_iff]
    constructor
    · intro ⟨data', h⟩
      obtain ⟨key, hkey, h⟩ := except_bind_eq_ok.mp h
      exact ⟨⟨key, hkey⟩, ih.mp ⟨data', h⟩⟩
    · intro ⟨⟨key, hkey⟩, h⟩
      obtain ⟨data', h⟩ := ih.mpr h
      exact ⟨data', except_bind_eq_ok.mpr ⟨key, hkey, h⟩⟩

/-- What is read under a key is the value of its last entry. -/
theorem lookup_putEntries {key : String} (hkey : key ≠ "") :
    ∀ {data data' : List (String × ScVal)}, putEntries data entries = .ok data' →
      data'.lookup key =
        ((entries.reverse.find? fun e => e.1.sym? = some key).map Prod.snd).or (data.lookup key) := by
  induction entries with
  | nil =>
    intro data data' h
    cases h
    rfl
  | cons e entries ih =>
    intro data data' h
    obtain ⟨k, hk, h⟩ := except_bind_eq_ok.mp h
    rw [ih h, List.reverse_cons, List.find?_append, lookup_setKey]
    have hsym : key = k.getD "" ↔ e.1.sym? = some key := by
      obtain ⟨v, w⟩ := e
      cases v <;> cases hk <;> simp [ScVal.sym?, hkey, eq_comm]
    by_cases he : e.1.sym? = some key
    · simp [hsym.mpr he, he]
    · simp [mt hsym.mp he, he]

theorem decodeDataMap_eq_ok_iff : (∃ data, decodeDataMap v = .ok data) ↔ Readable v := by
  cases v with
  | scvMap entries =>
    cases entries with
    | none => exact iff_of_true ⟨[], rfl⟩ trivial
    | some entries => exact putEntries_eq_ok_iff
  | scvVoid => exact iff_of_true ⟨[], rfl⟩ rfl
  | scvLedgerKeyContractInstance => exact iff_of_true ⟨[], rfl⟩ rfl
  | _ =>
    refine iff_of_false ?_ Bool.false_ne_true
    intro ⟨data, h⟩
    cases h

theorem lookup_decodeDataMap {data : List (String × ScVal)} (h : decodeDataMap v = .ok data)
    {key : String} (hkey : key ≠ "") : data.lookup key = fieldOf v key := by
  cases v with
  | scvMap entries =>
    cases entries with
    | none =>
      cases h
      rfl
    | some entries =>
      rw [lookup_putEntries hkey h]
      exact Option.or_none
  | scvVoid =>
    cases h
    rfl
  | scvLedgerKeyContractInstance =>
    cases h
    rfl
  | _ => cases h

theorem throwsOnly_putEntries :
    ∀ data : List (String × ScVal), ThrowsOnly Thrown.IsTypeError (putEntries data entries) := by
  induction entries with
  | nil =>
    intro data
    exact throwsOnly_ok _ _
  | cons e entries ih =>
    intro data
    exact (ScVal.throwsOnly_get _ _ e.1).bind fun key => ih _

theorem throwsOnly_decodeDataMap (v : ScVal) : ThrowsOnly Thrown.IsTypeError (decodeDataMap v) := by
  refine (ScVal.throwsOnly_get _ _ v).bind fun entries => ?_
  split
  · exact throwsOnly_putEntries _
  · exact throwsOnly_ok _ _

variable {f : List (String × ScVal) → Except Thrown α} {g : Except Thrown α}

/-- What a decoder that goes on from the data makes of them depends on their fields. -/
theorem decodeDataMap_bind_congr (h : ∀ data, (∀ key, key ≠ "" → data.lookup key = fieldOf v key) → f data = g) :
    decodeDataMap v >>= f = decodeDataMap v >>= fun _ => g := by
  cases hv : decodeDataMap v with
  | error e => rfl
  | ok data =>
    rw [ok_bind, ok_bind]
    exact h data fun key hkey => lookup_decodeDataMap hv hkey

variable {encoded : Option α}

theorem returns_decodeDataMap_bind :
    Returns encoded (decodeDataMap v >>= fun _ => g) ↔ Readable v ∧ Returns encoded g := by
  rw [returns_bind, ← decodeDataMap_eq_ok_iff, exists_and_right]

/-- A decoder that gives what is encoded from readable data returns it exactly then. -/
theorem returns_iff_of_exact
    (h : ∀ a, encoded = some a → ∀ data, (∀ key, key ≠ "" → data.lookup key = fieldOf v key) → f data = .ok a) :
    Returns encoded (decodeDataMap v >>= f) ↔ encoded.isSome ∧ Readable v := by
  cases encoded with
  | none => exact iff_of_false not_returns_none fun h => Bool.false_ne_true h.1
  | some a =>
    rw [decodeDataMap_bind_congr (h a rfl), returns_decodeDataMap_bind, returns_ok]
    exact ⟨fun h => ⟨rfl, h.1⟩, fun h => ⟨h.2, rfl⟩⟩

/-- A decoder that goes on from the data can only be faithful when the data are readable: otherwise its error is
no refusal. -/
theorem faithful_decodeDataMap_bind {refusal : Thrown → Prop} (hrefusal : ∀ e : Thrown, e.IsTypeError → ¬refusal e)
    (h : ∀ data, (∀ key, key ≠ "" → data.lookup key = fieldOf v key) → f data = g) :
    Faithful refusal encoded (decodeDataMap v >>= f) ↔ Readable v ∧ Faithful refusal encoded g := by
  rw [decodeDataMap_bind_congr h, ← decodeDataMap_eq_ok_iff]
  cases hv : decodeDataMap v with
  | ok data => exact ⟨fun h => ⟨⟨data, rfl⟩, h⟩, fun h => h.2⟩
  | error e =>
    have he : ThrowsOnly (fun e => ¬refusal e) (Except.error e : Except Thrown α) :=
      throwsOnly_error (hrefusal e (throwsOnly_decodeDataMap v e hv))
    refine iff_of_false ?_ fun ⟨⟨_, h⟩, _⟩ => by cases h
    intro h
    exact not_returns_error ((faithful_iff_returns he).mp h)

theorem not_isEventParsing_of_typeError (e : Thrown) (h : e.IsTypeError) : ¬e.IsEventParsing := by
  cases e <;> first | exact id | exact h.elim

/-! ## Integers of every width

`decodeBigInt` and its two siblings, `scValToBigInt` of `payroll/periodSummary.ts`
and of `treasury/TreasuryReservationClient.ts`. -/

/-- An integer value, with its payload. -/
inductive ScInteger where
  | scvU32 (u32 : UInt32)
  | scvI32 (i32 : Int32)
  | scvU64 (u64 : UInt64)
  | scvI64 (i64 : Int64)
  | scvU128 (hi lo : UInt64)
  | scvI128 (hi : Int64) (lo : UInt64)

namespace ScInteger

/-- The integer that is denoted. -/
def value : ScInteger → Int
  | scvU32 n => n.toNat
  | scvI32 n => n.toInt
  | scvU64 n => n.toNat
  | scvI64 n => n.toInt
  | scvU128 hi lo => hi.toNat * 2 ^ 64 + lo.toNat
  | scvI128 hi lo => hi.toInt * 2 ^ 64 + lo.toNat

/-- The value as `decodeBigInt` sees it. -/
def toScVal : ScInteger → ScVal
  | scvU32 _ => .unread .scvU32
  | scvI32 _ => .unread .scvI32
  | scvU64 n => .scvU64 n
  | scvI64 _ => .unread .scvI64
  | scvU128 _ _ => .unread .scvU128
  | scvI128 hi lo => .scvI128 hi lo

/-- All decoders read the arm. -/
def isReadByAll : ScInteger → Bool
  | scvU64 _ => true
  | scvI128 _ _ => true
  | _ => false

end ScInteger

/-- `scValToBigInt` of the period summary. -/
def summaryToBigInt : Option ScInteger → Int
  | some (.scvI128 hi lo) => Int.lor (hi.toInt <<< (64 : Nat)) lo.toNat
  | some (.scvU64 n) => n.toNat
  | some (.scvU32 n) => n.toNat
  | _ => 0

/-- `scValToBigInt` of the treasury reservations. -/
def treasuryToBigInt : ScInteger → Int
  | .scvI128 hi lo => Int.lor (hi.toInt <<< (64 : Nat)) lo.toNat
  | .scvU64 n => n.toNat
  | .scvU32 n => n.toNat
  | _ => 0

/-- The decoders give the integer, and so none gives zero for another. -/
structure DecodedAlike (v : ScInteger) : Prop where
  parsed : decodeBigInt (some v.toScVal) = v.value
  summarized : summaryToBigInt (some v) = v.value
  reserved : treasuryToBigInt v = v.value
  nonzero : v.value ≠ 0 → decodeBigInt (some v.toScVal) ≠ 0 ∧ summaryToBigInt (some v) ≠ 0 ∧ treasuryToBigInt v ≠ 0

theorem decodeBigInt_toScVal (v : ScInteger) :
    decodeBigInt (some v.toScVal) = if v.isReadByAll then v.value else 0 := by
  rw [decodeBigInt_eq]
  cases v <;> rfl

/-- The two siblings are one function, which reads words of 32 bits too. -/
theorem summaryToBigInt_eq (v : ScInteger) : summaryToBigInt (some v) = treasuryToBigInt v := by
  cases v <;> rfl

theorem treasuryToBigInt_of_readByAll {v : ScInteger} (h : v.isReadByAll = true) : treasuryToBigInt v = v.value := by
  cases v with
  | scvU64 n => rfl
  | scvI128 hi lo => exact lor_shiftLeft hi.toInt lo.toNat_lt
  | _ => cases h

theorem treasuryToBigInt_of_zero {v : ScInteger} (h : v.value = 0) : treasuryToBigInt v = 0 := by
  cases hread : v.isReadByAll with
  | true => rw [treasuryToBigInt_of_readByAll hread, h]
  | false =>
    cases v with
    | scvU32 n => exact h
    | _ => first | rfl | cases hread

theorem decodedAlike_of {v : ScInteger} (hparsed : decodeBigInt (some v.toScVal) = v.value)
    (hreserved : treasuryToBigInt v = v.value) : DecodedAlike v := by
  refine ⟨hparsed, (summaryToBigInt_eq v).trans hreserved, hreserved, fun h => ?_⟩
  rw [summaryToBigInt_eq, hparsed, hreserved]
  exact ⟨h, h, h⟩

/-- The decoders agree on an integer if and only if all of them read its arm, or
it is zero. -/
theorem decodedAlike_iff (v : ScInteger) : DecodedAlike v ↔ v.isReadByAll = true ∨ v.value = 0 := by
  constructor
  · intro h
    have hparsed := h.parsed
    rw [decodeBigInt_toScVal] at hparsed
    split at hparsed
    · exact .inl ‹_›
    · exact .inr hparsed.symm
  · rintro (hread | hzero)
    · apply decodedAlike_of
      · rw [decodeBigInt_toScVal, if_pos hread]
      · exact treasuryToBigInt_of_readByAll hread
    · apply decodedAlike_of
      · rw [decodeBigInt_toScVal, hzero, ite_self]
      · rw [treasuryToBigInt_of_zero hzero, hzero]

/-- A word of 32 bits is 0 for the parser of events, and a signed word of 64 bits
for all. -/
theorem unread_integers :
    decodeBigInt (some (ScInteger.scvU32 5).toScVal) = 0 ∧ summaryToBigInt (some (.scvU32 5)) = 5 ∧
      decodeBigInt (some (ScInteger.scvI64 (-1)).toScVal) = 0 ∧ summaryToBigInt (some (.scvI64 (-1))) = 0 ∧
      treasuryToBigInt (.scvI64 (-1)) = 0 ∧ ¬ ∀ v, DecodedAlike v := by
  refine ⟨rfl, rfl, rfl, rfl, rfl, fun h => ?_⟩
  have hparsed := (h (.scvU32 5)).parsed
  revert hparsed
  decide

end ZkPayroll.Events
