import ZkPayroll.Serialization.BinaryReader

/-!
# Records

The header that `proofSerialization.ts`, `commitmentSerialization.ts` and
`payrollCommandSerialization.ts` write before a payload and check when they
read it: a format version and a tag for the kind of payload. `RecordCodec`
says of an encoder and a decoder what a codec says of a reader and a writer,
for whole buffers (`RecordCodec.of_codec`).
-/

namespace ZkPayroll.Serialization

open ZkPayroll.Core Framework

/-- Current binary wire-format version. -/
def SERIALIZATION_FORMAT_VERSION : UInt8 := 1

/-- The kinds of payloads. -/
inductive PayloadType where
  | proofPayload
  | proofStruct
  | commitmentEntry
  | commitRequest
  | payrollCommandEntry
  | payrollRequest
  deriving DecidableEq, Repr

/-- `PayloadTypeTag`. -/
def PayloadType.tag : PayloadType → UInt8
  | .proofPayload => 0x01
  | .proofStruct => 0x02
  | .commitmentEntry => 0x03
  | .commitRequest => 0x04
  | .payrollCommandEntry => 0x05
  | .payrollRequest => 0x06

theorem PayloadType.tag_injective : Function.Injective PayloadType.tag := by
  intro k k' h
  cases k <;> cases k' <;> first | rfl | exact absurd h (by decide)

/-- `n.toString(16)`. -/
def toString16 (n : UInt8) : String := String.ofList (Nat.toDigits 16 n.toNat)

def writeHeader (writer : BinaryWriter) (kind : PayloadType) : BinaryWriter :=
  (writer.writeUint8 SERIALIZATION_FORMAT_VERSION.toNat).writeUint8 kind.tag.toNat

variable (kind : PayloadType)

def readHeader : Reading Unit := do
  let version ← readUint8
  throwIf (version ≠ SERIALIZATION_FORMAT_VERSION) (serializationError
    (s!"Unsupported serialization format version {version} " ++
      s!"(expected {SERIALIZATION_FORMAT_VERSION}).")
    "SERIALIZATION_VERSION_MISMATCH")
  let tag ← readUint8
  throwIf (tag ≠ kind.tag) (serializationError
    s!"Payload type tag mismatch: expected 0x{toString16 kind.tag}, got 0x{toString16 tag}."
    "SERIALIZATION_TYPE_MISMATCH")

/-- The bytes of a record of a kind. -/
def record (body : List UInt8) : List UInt8 :=
  SERIALIZATION_FORMAT_VERSION :: kind.tag :: body

@[simp] theorem toBytes_writeHeader (w : BinaryWriter) (kind : PayloadType) :
    (writeHeader w kind).toBytes = w.toBytes ++ record kind [] := by
  rw [writeHeader, BinaryWriter.toBytes_writeUint8, BinaryWriter.toBytes_writeUint8, UInt8.ofNat_toNat,
    UInt8.ofNat_toNat, List.append_assoc]
  rfl

theorem record_append (bs cs : List UInt8) : record kind bs ++ cs = record kind (bs ++ cs) := rfl

theorem record_inj {kind kind' : PayloadType} {bs cs : List UInt8} :
    record kind bs = record kind' cs ↔ kind = kind' ∧ bs = cs := by
  rw [record, record, List.cons.injEq, List.cons.injEq, PayloadType.tag_injective.eq_iff]
  exact and_iff_right rfl

theorem readHeader_token :
    Token BinaryReader.unread (readHeader kind) (fun _ : Unit => record kind []) id fun _ => True where
  reads := by
    intro s s' v h
    obtain ⟨version, s₁, h₁, h⟩ := reader_bind_eq_ok.mp h
    obtain ⟨_, hv, h⟩ := reader_lift_bind_eq_ok.mp h
    obtain ⟨tag, s₂, h₂, h⟩ := reader_bind_eq_ok.mp h
    obtain ⟨ht, rfl⟩ := reader_lift_eq_ok.mp h
    obtain ⟨_, -, hs₁, rfl⟩ := readUint8_token.reads h₁
    obtain ⟨_, -, hs₂, rfl⟩ := readUint8_token.reads h₂
    refine ⟨v, trivial, ?_, rfl⟩
    rw [hs₁, hs₂, not_not.mp (throwIf_eq_ok.mp hv), not_not.mp (throwIf_eq_ok.mp ht)]
    rfl
  accepts := by
    intro s t tail _ hs
    obtain ⟨s₁, h₁, hs₁⟩ := readUint8_token.accepts (t := SERIALIZATION_FORMAT_VERSION) trivial hs
    obtain ⟨s₂, h₂, hs₂⟩ := readUint8_token.accepts (t := kind.tag) trivial hs₁
    refine ⟨s₂, ?_, hs₂⟩
    refine reader_bind_eq_ok.mpr ⟨_, _, h₁, reader_lift_bind_eq_ok.mpr ⟨(), throwIf_eq_ok.mpr (not_not.mpr rfl), ?_⟩⟩
    exact reader_bind_eq_ok.mpr ⟨_, _, h₂, reader_lift_eq_ok.mpr ⟨throwIf_eq_ok.mpr (not_not.mpr rfl), rfl⟩⟩

/-! ## Records and their bytes -/

/-- `reader` on a whole buffer. -/
def readAll (reader : Reading α) (bytes : List UInt8) : Except SdkError α :=
  (reader (.ofBytes bytes)).map Prod.fst

/-- A record of a kind, what it consists of, and a check of what was read. -/
def readRecord (payload : Reading α) (check : α → Except SdkError Unit) : Reading α := do
  readHeader kind
  let value ← payload
  assertExhausted
  check value
  pure value

theorem readAll_eq_ok {reader : Reading α} {bytes : List UInt8} {v : α} :
    readAll reader bytes = .ok v ↔ ∃ s, reader (.ofBytes bytes) = .ok (v, s) := by
  unfold readAll
  cases reader (.ofBytes bytes) with
  | error e => simp [Except.map]
  | ok p => simp [Except.map, Prod.ext_iff]

variable {kind : PayloadType}

/-- The decoder takes the payload from behind the header, to the end. -/
theorem readAll_record_eq_ok {payload : Reading α} {check : α → Except SdkError Unit}
    {bytes : List UInt8} {v : α} :
    readAll (readRecord kind payload check) bytes = .ok v ↔
      ∃ s s', readHeader kind (.ofBytes bytes) = .ok ((), s) ∧ payload s = .ok (v, s') ∧ s'.unread = [] ∧
        check v = .ok () := by
  rw [readAll_eq_ok]
  constructor
  · intro h
    obtain ⟨s₃, h⟩ := h
    obtain ⟨_, s₁, h₁, h⟩ := reader_bind_eq_ok.mp h
    obtain ⟨v', s₂, h₂, h⟩ := reader_bind_eq_ok.mp h
    obtain ⟨_, s₃', h₃, h⟩ := reader_bind_eq_ok.mp h
    obtain ⟨_, hc, h⟩ := reader_lift_bind_eq_ok.mp h
    obtain ⟨rfl, rfl⟩ := reader_pure_eq_ok.mp h
    obtain ⟨he, rfl⟩ := assertExhausted_eq_ok.mp h₃
    exact ⟨s₁, s₂, h₁, h₂, he, hc⟩
  · intro h
    obtain ⟨s₁, s₂, h₁, h₂, he, hc⟩ := h
    refine ⟨s₂, reader_bind_eq_ok.mpr ⟨_, _, h₁, reader_bind_eq_ok.mpr ⟨_, _, h₂, ?_⟩⟩⟩
    exact reader_bind_eq_ok.mpr ⟨_, _, assertExhausted_eq_ok.mpr ⟨he, rfl⟩, reader_lift_bind_eq_ok.mpr ⟨_, hc, rfl⟩⟩

/-- What the encoder and the decoder of a kind of records have to do with
each other: a buffer that is decoded consists of the fields of its format, and
encoding gives it back just if they are canonical; a value is decoded from its
own bytes just if it fits. -/
structure RecordCodec (nanBits : UInt64 → UInt64) (kind : PayloadType) (format : Format)
    (decode : List UInt8 → Except SdkError α) (encode : α → Except SdkError (List UInt8)) (Fits : α → Prop) :
    Prop where
  decoded : ∀ {bytes : List UInt8} {v : α}, decode bytes = .ok v →
    ∃ body fields, bytes = record kind body ∧ format.cut body = some (fields, []) ∧
      (encode v = .ok bytes ↔ ∀ f ∈ fields, f.Canonical nanBits)
  roundTrip : ∀ {bytes : List UInt8} {v : α}, encode v = .ok bytes → (decode bytes = .ok v ↔ Fits v)

/-- An encoder that never throws. -/
theorem ok_record_eq_ok {written bytes body : List UInt8} (h : written = record kind body) :
    (.ok written : Except SdkError (List UInt8)) = .ok bytes ↔ True ∧ bytes = record kind body := by
  rw [h, Except.ok.injEq, true_and, eq_comm]

theorem RecordCodec.of_codec {nanBits : UInt64 → UInt64} {format : Format} {payload : Reading α}
    {check : α → Except SdkError Unit} {write : α → List UInt8} {Fits : α → Prop}
    {encode : α → Except SdkError (List UInt8)} (Valid : α → Prop)
    (h : Codec BinaryReader.unread nanBits format payload write Fits)
    (hencode : ∀ v bytes, encode v = .ok bytes ↔ Valid v ∧ bytes = record kind (write v))
    (hvalid : ∀ v, Valid v → check v = .ok ()) (hfits : ∀ v, Fits v → check v = .ok () → Valid v) :
    RecordCodec nanBits kind format (readAll (readRecord kind payload check)) encode Fits where
  decoded := by
    intro bytes v hd
    obtain ⟨s, s', hh, hp, he, hc⟩ := readAll_record_eq_ok.mp hd
    obtain ⟨_, -, hs, -⟩ := (readHeader_token kind).reads hh
    obtain ⟨u, fs, hu, hcut, hback⟩ := h.reads hp
    have hbytes : bytes = record kind s.unread := hs
    rw [he, List.append_nil] at hu
    rw [he] at hcut
    refine ⟨s.unread, fs, hbytes, hcut, ?_⟩
    rw [hencode, hbytes, record_inj, ← hback.eq_iff, hu]
    constructor
    · intro hv
      exact hv.2.2.symm
    · intro hw
      exact ⟨hfits v (hback.fits hw) hc, rfl, hw.symm⟩
  roundTrip := by
    intro bytes v he
    obtain ⟨hv, hbytes⟩ := (hencode v bytes).mp he
    rw [readAll_record_eq_ok]
    constructor
    · intro hd
      obtain ⟨s, s', hh, hp, hend, -⟩ := hd
      obtain ⟨_, -, hs, -⟩ := (readHeader_token kind).reads hh
      obtain ⟨u, fs, hu, -, hback⟩ := h.reads hp
      have hs' : bytes = record kind s.unread := hs
      rw [hend, List.append_nil] at hu
      rw [hbytes, record_inj, hu] at hs'
      exact hback.fits hs'.2
    · intro hf
      obtain ⟨s, hh, hs⟩ := (readHeader_token kind).accepts (s := .ofBytes bytes) (t := ()) trivial hbytes
      obtain ⟨s', hp, hs'⟩ := h.accepts hf (hs.trans (List.append_nil _).symm)
      exact ⟨s, s', hh, hp, hs', hvalid v hv⟩

end ZkPayroll.Serialization
