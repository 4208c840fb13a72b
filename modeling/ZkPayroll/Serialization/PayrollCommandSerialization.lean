import ZkPayroll.Serialization.CommitmentSerialization

/-!
# Payroll commands as bytes

`serialization/payrollCommandSerialization.ts`: single entries and whole
requests with their idempotency keys and submission context. Entries are
checked before they are written and again after they are read. The employee
identifier of an entry is not written.
-/

namespace ZkPayroll.Serialization

open ZkPayroll.Core Framework

structure PayrollRequestEntry where
  recipient : JsString
  amount : Int
  asset : JsString
  memo : Option JsString := none
  /-- Optional stable employee identifier. -/
  employeeId : Option JsString := none
  deriving DecidableEq, Repr

structure SubmissionContext where
  network : Option JsString := none
  contractId : Option JsString := none
  nonce : Option JsString := none
  deriving DecidableEq, Repr

/-- A request as it is encoded. -/
structure PayrollRequest where
  entries : List PayrollRequestEntry
  idempotencyKeys : List JsString
  context : SubmissionContext
  deriving DecidableEq, Repr

/-! ## Checks -/

def validationFailed (message : String) : SdkError := serializationError message "SERIALIZATION_VALIDATION_FAILED"

/-- `s.trim() === ""`. -/
def isBlankString (s : JsString) : Bool := s.all fun u => isSpace (Char.ofNat u.toNat)

/-- Validates a payroll command entry against the contract's expectations. -/
def assertValidCommandEntry (entry : PayrollRequestEntry) (place : String) : Except SdkError Unit := do
  throwIf (isBlankString entry.recipient)
    (validationFailed s!"{place} has an invalid recipient: a non-empty address string is required.")
  throwIf (entry.amount ≤ 0)
    (validationFailed s!"{place} has an invalid amount: a positive bigint is required.")
  throwIf (isBlankString entry.asset)
    (validationFailed s!"{place} has an invalid asset: a non-empty asset identifier is required.")

/-- Every entry, with its index in the message. -/
def assertValidEntries (entries : List PayrollRequestEntry) (place : Nat → String) : Except SdkError Unit :=
  forEach entries.zipIdx fun (entry, i) => assertValidCommandEntry entry (place i)

/-! ## Writing and reading -/

def writeOptionalString (writer : BinaryWriter) : Option JsString → BinaryWriter
  | none => writer.writeBool false
  | some value => (writer.writeBool true).writeString value

def readOptionalString : Reading (Option JsString) := readOptional readBool readString

def writeEntryFields (writer : BinaryWriter) (entry : PayrollRequestEntry) : Except SdkError BinaryWriter := do
  let writer ← (writer.writeString entry.recipient).writeBigInt entry.amount
  pure (writeOptionalString (writer.writeString entry.asset) entry.memo)

def readEntryFields : Reading PayrollRequestEntry := do
  let recipient ← readString
  let amount ← readBigInt
  let asset ← readString
  let memo ← readOptionalString
  pure { recipient, amount, asset, memo }

/-- Encodes a single payroll request entry. -/
def encodePayrollCommandEntry (entry : PayrollRequestEntry) : Except SdkError (List UInt8) := do
  assertValidCommandEntry entry "Payroll command entry"
  let writer ← writeEntryFields (writeHeader .new .payrollCommandEntry) entry
  pure writer.toBytes

def decodePayrollCommandEntry : List UInt8 → Except SdkError PayrollRequestEntry :=
  readAll do
    readHeader .payrollCommandEntry
    let entry ← readEntryFields
    assertExhausted
    assertValidCommandEntry entry "Decoded payroll command entry"
    pure entry

/-- Encodes a full payroll request. -/
def encodePayrollRequest (request : PayrollRequest) : Except SdkError (List UInt8) := do
  throwIf (request.entries.length = 0)
    (validationFailed "Payroll request must contain at least one payment entry.")
  throwIf (request.idempotencyKeys.length ≠ request.entries.length)
    (validationFailed "Payroll request idempotencyKeys must line up one-to-one with entries.")
  assertValidEntries request.entries fun i => s!"Entry {i}"
  let writer := (writeHeader .new .payrollRequest).writeUint32 request.entries.length
  let writer ← request.entries.foldlM writeEntryFields writer
  let writer := writeOptionalString writer request.context.network
  let writer := writeOptionalString writer request.context.contractId
  let writer := writeOptionalString writer request.context.nonce
  pure (writer.writeStringArray request.idempotencyKeys).toBytes

def decodePayrollRequest : List UInt8 → Except SdkError PayrollRequest :=
  readAll do
    readHeader .payrollRequest
    let count ← readUint32
    throwIf (count = 0) (validationFailed "Decoded payroll request must contain at least one payment entry.")
    let entries ← readRepeat readEntryFields count
    let network ← readOptionalString
    let contractId ← readOptionalString
    let nonce ← readOptionalString
    let idempotencyKeys ← readStringArray
    assertExhausted
    let request := { entries, idempotencyKeys, context := { network, contractId, nonce } }
    throwIf (idempotencyKeys.length ≠ entries.length)
      (validationFailed "Decoded payroll request idempotencyKeys must line up one-to-one with entries.")
    assertValidEntries entries fun i => s!"Decoded entry {i}"
    pure request

/-! ## What the checks accept -/

/-- What the checks ask of an entry. -/
structure ValidEntry (entry : PayrollRequestEntry) : Prop where
  recipient : isBlankString entry.recipient = false
  amount : 0 < entry.amount
  asset : isBlankString entry.asset = false

/-- What the checks ask of a request. -/
structure ValidRequest (request : PayrollRequest) : Prop where
  nonempty : request.entries.length ≠ 0
  keys : request.idempotencyKeys.length = request.entries.length
  entries : ∀ entry ∈ request.entries, ValidEntry entry

theorem assertValidCommandEntry_eq_ok {entry : PayrollRequestEntry} {place : String} :
    assertValidCommandEntry entry place = .ok () ↔ ValidEntry entry := by
  rw [assertValidCommandEntry, throwIf_bind_eq_ok, throwIf_bind_eq_ok, throwIf_eq_ok, Bool.not_eq_true,
    Bool.not_eq_true, Int.not_le]
  exact ⟨fun h => ⟨h.1, h.2.1, h.2.2⟩, fun h => ⟨h.recipient, h.amount, h.asset⟩⟩

theorem assertValidEntries_eq_ok {entries : List PayrollRequestEntry} {place : Nat → String} :
    assertValidEntries entries place = .ok () ↔ ∀ entry ∈ entries, ValidEntry entry := by
  rw [assertValidEntries, forEach_eq_ok]
  constructor
  · intro h entry he
    obtain ⟨i, hi⟩ := List.mem_iff_getElem?.mp he
    exact assertValidCommandEntry_eq_ok.mp (h (entry, i) (List.mem_zipIdx_iff_getElem?.mpr hi))
  · intro h p hp
    exact assertValidCommandEntry_eq_ok.mpr (h p.1 (List.mem_of_getElem? (List.mem_zipIdx_iff_getElem?.mp hp)))

/-! ## Entries -/

variable {nanBits : UInt64 → UInt64}

def optionalStringBytes : Option JsString → List UInt8 := writeOptional fun s => frame (writeText s)

/-- The text can be written, if there is one. -/
def OptionalFits (value : Option JsString) : Prop := ∀ s ∈ value, TextFits s

theorem optionalStringCodec :
    Codec BinaryReader.unread nanBits (.optional .text) readOptionalString optionalStringBytes OptionalFits :=
  .optional readBool_token stringCodec

@[simp] theorem toBytes_writeOptionalString (w : BinaryWriter) (value : Option JsString) :
    (writeOptionalString w value).toBytes = w.toBytes ++ optionalStringBytes value := by
  cases value with
  | none =>
    rw [writeOptionalString, BinaryWriter.toBytes_writeBool]
    rfl
  | some s =>
    rw [writeOptionalString, BinaryWriter.toBytes_writeString, BinaryWriter.toBytes_writeBool, List.append_assoc]
    rfl

abbrev EntryParts : Type := JsString × Int × JsString × Option JsString

def EntryParts.toEntry (p : EntryParts) : PayrollRequestEntry where
  recipient := p.1
  amount := p.2.1
  asset := p.2.2.1
  memo := p.2.2.2

/-- The fields in the order of the bytes. -/
def PayrollRequestEntry.parts (e : PayrollRequestEntry) : EntryParts := (e.recipient, e.amount, e.asset, e.memo)

def entryFormat : Format := .seq .text (.seq .magnitude (.seq .text (.optional .text)))

def entryBytes (e : PayrollRequestEntry) : List UInt8 :=
  frame (writeText e.recipient) ++ (bigIntBytes e.amount ++ (frame (writeText e.asset) ++
    optionalStringBytes e.memo))

/-- An entry that is read back. -/
structure EntryFits (e : PayrollRequestEntry) : Prop where
  recipient : TextFits e.recipient
  amount : BigIntFits e.amount
  asset : TextFits e.asset
  memo : OptionalFits e.memo
  employeeId : e.employeeId = none

theorem entryCodec : Codec BinaryReader.unread nanBits entryFormat readEntryFields entryBytes EntryFits := by
  have h : Codec BinaryReader.unread nanBits _ _ _ _ := .map EntryParts.toEntry PayrollRequestEntry.parts
    (stringCodec.pair (bigIntCodec.pair (stringCodec.pair optionalStringCodec))) fun _ => rfl
  have hr : readEntryFields = EntryParts.toEntry <$>
      readPair readString (readPair readBigInt (readPair readString readOptionalString)) := by
    simp only [readEntryFields, readPair, map_eq_pure_bind, bind_assoc, pure_bind]
    rfl
  rw [hr]
  refine h.congr fun e => ?_
  constructor
  · intro he
    obtain ⟨⟨hr, ha, hs, hm⟩, hid⟩ := he
    exact ⟨hr, ha, hs, hm, by rw [← hid]; rfl⟩
  · intro he
    refine ⟨⟨he.recipient, he.amount, he.asset, he.memo⟩, ?_⟩
    obtain ⟨recipient, amount, asset, memo, employeeId⟩ := e
    obtain rfl : employeeId = none := he.employeeId
    rfl

theorem writes_entryFields (e : PayrollRequestEntry) :
    Writes (fun w => writeEntryFields w e) (0 ≤ e.amount) (entryBytes e) := by
  have h := ((Writes.bigInt e.amount).after (f := fun w => w.writeString e.recipient) fun w =>
    BinaryWriter.toBytes_writeString w _).bind (Writes.pure
      (fun w => writeOptionalString (w.writeString e.asset) e.memo) _ fun w => by
        rw [toBytes_writeOptionalString, BinaryWriter.toBytes_writeString, List.append_assoc])
  rw [and_true, List.append_assoc] at h
  exact h

theorem encodePayrollCommandEntry_eq_ok {e : PayrollRequestEntry} {bytes : List UInt8} :
    encodePayrollCommandEntry e = .ok bytes ↔
      ValidEntry e ∧ bytes = record .payrollCommandEntry (entryBytes e) := by
  rw [encodePayrollCommandEntry, except_bind_eq_ok]
  constructor
  · intro h
    obtain ⟨_, hv, h⟩ := h
    refine ⟨assertValidCommandEntry_eq_ok.mp hv, (((writes_entryFields e).toBytes_eq_ok _ bytes).mp h).2.trans ?_⟩
    simp [record_append]
  · intro h
    refine ⟨(), assertValidCommandEntry_eq_ok.mpr h.1,
      ((writes_entryFields e).toBytes_eq_ok _ bytes).mpr ⟨h.1.amount.le, ?_⟩⟩
    rw [h.2]
    simp [record_append]

theorem payrollCommandEntryCodec :
    RecordCodec nanBits .payrollCommandEntry entryFormat decodePayrollCommandEntry encodePayrollCommandEntry
      EntryFits := by
  have hd : decodePayrollCommandEntry = readAll (readRecord .payrollCommandEntry readEntryFields
      fun e => assertValidCommandEntry e "Decoded payroll command entry") := rfl
  rw [hd]
  exact .of_codec ValidEntry entryCodec (fun e bytes => encodePayrollCommandEntry_eq_ok)
    (fun e he => assertValidCommandEntry_eq_ok.mpr he) fun e _ hc => assertValidCommandEntry_eq_ok.mp hc

/-! ## Requests -/

abbrev RequestParts : Type :=
  List PayrollRequestEntry × Option JsString × Option JsString × Option JsString × List JsString

def RequestParts.toRequest (p : RequestParts) : PayrollRequest where
  entries := p.1
  idempotencyKeys := p.2.2.2.2
  context := { network := p.2.1, contractId := p.2.2.1, nonce := p.2.2.2.1 }

/-- The fields in the order of the bytes. -/
def PayrollRequest.parts (r : PayrollRequest) : RequestParts :=
  (r.entries, r.context.network, r.context.contractId, r.context.nonce, r.idempotencyKeys)

/-- The layout of a request. -/
def payrollRequestFormat : Format :=
  .seq (.many entryFormat) (.seq (.optional .text) (.seq (.optional .text) (.seq (.optional .text) (.many .text))))

def contextBytes (c : SubmissionContext) (bs : List UInt8) : List UInt8 :=
  optionalStringBytes c.network ++ (optionalStringBytes c.contractId ++ (optionalStringBytes c.nonce ++ bs))

def requestBytes (r : PayrollRequest) : List UInt8 :=
  writeMany entryBytes r.entries ++
    contextBytes r.context (writeMany (fun s => frame (writeText s)) r.idempotencyKeys)

/-- A request that is read back. -/
structure RequestFits (r : PayrollRequest) : Prop where
  entries_lt : r.entries.length < 2 ^ 32
  nonempty : r.entries.length ≠ 0
  entries : ∀ e ∈ r.entries, EntryFits e
  network : OptionalFits r.context.network
  contractId : OptionalFits r.context.contractId
  nonce : OptionalFits r.context.nonce
  keys_lt : r.idempotencyKeys.length < 2 ^ 32
  keys : ∀ s ∈ r.idempotencyKeys, TextFits s

/-- What `decodePayrollRequest` refuses before it reads entries. -/
def checkCount (count : Nat) : Except SdkError Unit :=
  throwIf (count = 0) (validationFailed "Decoded payroll request must contain at least one payment entry.")

/-- What `decodePayrollRequest` refuses once the buffer is read. -/
def checkRequest (r : PayrollRequest) : Except SdkError Unit := do
  throwIf (r.idempotencyKeys.length ≠ r.entries.length)
    (validationFailed "Decoded payroll request idempotencyKeys must line up one-to-one with entries.")
  assertValidEntries r.entries fun i => s!"Decoded entry {i}"

theorem checkRequest_eq_ok {r : PayrollRequest} :
    checkRequest r = .ok () ↔ r.idempotencyKeys.length = r.entries.length ∧ ∀ e ∈ r.entries, ValidEntry e := by
  rw [checkRequest, throwIf_bind_eq_ok, not_not, assertValidEntries_eq_ok]

theorem requestCodec :
    Codec BinaryReader.unread nanBits payrollRequestFormat (RequestParts.toRequest <$>
      readPair (readMany readUint32 checkCount readEntryFields) (readPair readOptionalString
        (readPair readOptionalString (readPair readOptionalString readStringArray)))) requestBytes RequestFits := by
  have h : Codec BinaryReader.unread nanBits _ _ _ _ := .map RequestParts.toRequest PayrollRequest.parts
    ((Codec.many checkCount readUint32_token entryCodec).pair
      (optionalStringCodec.pair (optionalStringCodec.pair (optionalStringCodec.pair stringArrayCodec))))
    fun _ => rfl
  refine h.congr fun r => ?_
  constructor
  · intro hr
    obtain ⟨⟨⟨⟨hlt, hn⟩, he⟩, h₁, h₂, h₃, hk, hs⟩, -⟩ := hr
    exact ⟨hlt, throwIf_eq_ok.mp hn, he, h₁, h₂, h₃, hk, hs⟩
  · intro hr
    exact ⟨⟨⟨⟨hr.entries_lt, throwIf_eq_ok.mpr hr.nonempty⟩, hr.entries⟩, hr.network, hr.contractId, hr.nonce,
      hr.keys_lt, hr.keys⟩, rfl⟩

theorem encodePayrollRequest_eq_ok {r : PayrollRequest} {bytes : List UInt8} :
    encodePayrollRequest r = .ok bytes ↔ ValidRequest r ∧ bytes = record .payrollRequest (requestBytes r) := by
  have hw := ((Writes.foldlM (fun e => writes_entryFields e) r.entries).bind (Writes.pure
    (fun w => (writeOptionalString (writeOptionalString (writeOptionalString w r.context.network)
      r.context.contractId) r.context.nonce).writeStringArray r.idempotencyKeys)
    (contextBytes r.context (writeMany (fun s => frame (writeText s)) r.idempotencyKeys)) fun w => by
      simp [contextBytes])).toBytes_eq_ok ((writeHeader .new .payrollRequest).writeUint32 r.entries.length) bytes
  rw [bind_assoc, and_true] at hw
  have hb : ((writeHeader .new .payrollRequest).writeUint32 r.entries.length).toBytes ++
      (r.entries.flatMap entryBytes ++
        contextBytes r.context (writeMany (fun s => frame (writeText s)) r.idempotencyKeys)) =
      record .payrollRequest (requestBytes r) := by
    simp [record_append, requestBytes, writeMany]
  rw [hb] at hw
  rw [encodePayrollRequest, throwIf_bind_eq_ok, throwIf_bind_eq_ok, not_not, except_bind_eq_ok]
  constructor
  · intro h
    obtain ⟨hn, hk, _, hv, h⟩ := h
    exact ⟨⟨hn, hk, assertValidEntries_eq_ok.mp hv⟩, (hw.mp h).2⟩
  · intro h
    obtain ⟨⟨hn, hk, hv⟩, hbytes⟩ := h
    exact ⟨hn, hk, (), assertValidEntries_eq_ok.mpr hv, hw.mpr ⟨fun e he => (hv e he).amount.le, hbytes⟩⟩

theorem payrollRequestCodec :
    RecordCodec nanBits .payrollRequest payrollRequestFormat decodePayrollRequest encodePayrollRequest
      RequestFits := by
  have hd : decodePayrollRequest = readAll (readRecord .payrollRequest (RequestParts.toRequest <$>
      readPair (readMany readUint32 checkCount readEntryFields) (readPair readOptionalString
        (readPair readOptionalString (readPair readOptionalString readStringArray)))) checkRequest) := by
    simp only [decodePayrollRequest, readRecord, readPair, readMany, checkRequest, map_eq_pure_bind, bind_assoc,
      pure_bind, liftM_bind]
    rfl
  rw [hd]
  refine .of_codec ValidRequest requestCodec (fun r bytes => encodePayrollRequest_eq_ok) (fun r hr => ?_) fun r hr hc => ?_
  · exact checkRequest_eq_ok.mpr ⟨hr.keys, hr.entries⟩
  · obtain ⟨hk, he⟩ := checkRequest_eq_ok.mp hc
    exact ⟨hr.nonempty, hk, he⟩

end ZkPayroll.Serialization
