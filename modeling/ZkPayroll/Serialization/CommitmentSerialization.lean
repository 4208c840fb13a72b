import ZkPayroll.Serialization.RecordHeader

/-!
# Commitments as bytes

`serialization/commitmentSerialization.ts`: a salary commitment with its
reveal state, and the request to commit a salary hash. The bits of the
timestamp are written as they are, except that the engine chooses those of a
NaN.
-/

namespace ZkPayroll.Serialization

open ZkPayroll.Core Framework

/-- A salary commitment as the contract has it. The number `createdAt` is given
by its bits. -/
structure CommitmentEntry where
  employer : JsString
  employee : JsString
  commitmentHash : JsString
  cycleId : Int
  createdAt : UInt64
  revealed : Bool
  actualAmount : Int
  deriving DecidableEq, Repr

structure CommitRequest where
  employer : JsString
  employee : JsString
  commitmentHash : JsString
  cycleId : Int
  deriving DecidableEq, Repr

/-! ## Writing and reading -/

def encodeCommitmentEntry (engine : Engine) (entry : CommitmentEntry) : Except SdkError (List UInt8) := do
  let writer := writeHeader .new .commitmentEntry
  let writer := ((writer.writeString entry.employer).writeString entry.employee).writeString entry.commitmentHash
  let writer ← writer.writeBigInt entry.cycleId
  let writer := (writer.writeFloat64 engine entry.createdAt).writeBool entry.revealed
  let writer ← writer.writeBigInt entry.actualAmount
  pure writer.toBytes

def decodeCommitmentEntry : List UInt8 → Except SdkError CommitmentEntry :=
  readAll do
    readHeader .commitmentEntry
    let employer ← readString
    let employee ← readString
    let commitmentHash ← readString
    let cycleId ← readBigInt
    let createdAt ← readFloat64
    let revealed ← readBool
    let actualAmount ← readBigInt
    assertExhausted
    pure { employer, employee, commitmentHash, cycleId, createdAt, revealed, actualAmount }

def encodeCommitRequest (request : CommitRequest) : Except SdkError (List UInt8) := do
  let writer := writeHeader .new .commitRequest
  let writer := ((writer.writeString request.employer).writeString request.employee).writeString
    request.commitmentHash
  let writer ← writer.writeBigInt request.cycleId
  pure writer.toBytes

def decodeCommitRequest : List UInt8 → Except SdkError CommitRequest :=
  readAll do
    readHeader .commitRequest
    let employer ← readString
    let employee ← readString
    let commitmentHash ← readString
    let cycleId ← readBigInt
    assertExhausted
    pure { employer, employee, commitmentHash, cycleId }

/-! ## Commitment entries -/

variable {nanBits : UInt64 → UInt64}

def bigIntBytes (n : Int) : List UInt8 := frame (magnitude n.toNat)

/-- The number can be written. -/
def BigIntFits (n : Int) : Prop := 0 ≤ n ∧ MagnitudeFits n.toNat

abbrev CommitmentEntryParts : Type := JsString × JsString × JsString × Int × UInt64 × Bool × Int

def CommitmentEntryParts.toEntry (p : CommitmentEntryParts) : CommitmentEntry where
  employer := p.1
  employee := p.2.1
  commitmentHash := p.2.2.1
  cycleId := p.2.2.2.1
  createdAt := p.2.2.2.2.1
  revealed := p.2.2.2.2.2.1
  actualAmount := p.2.2.2.2.2.2

/-- The fields in the order of the bytes. -/
def CommitmentEntry.parts (v : CommitmentEntry) : CommitmentEntryParts :=
  (v.employer, v.employee, v.commitmentHash, v.cycleId, v.createdAt, v.revealed, v.actualAmount)

/-- The layout of an entry. -/
def commitmentEntryFormat : Format :=
  .seq .text (.seq .text (.seq .text (.seq .magnitude (.seq .double (.seq .flag .magnitude)))))

/-- A commitment that is read back. -/
structure CommitmentEntryFits (nanBits : UInt64 → UInt64) (v : CommitmentEntry) : Prop where
  employer : TextFits v.employer
  employee : TextFits v.employee
  commitmentHash : TextFits v.commitmentHash
  cycleId : BigIntFits v.cycleId
  createdAt : DoubleFits nanBits v.createdAt
  actualAmount : BigIntFits v.actualAmount

/-- The bytes of the strings and the number that a commitment starts with. -/
def commitBytes (employer employee commitmentHash : JsString) (cycleId : Int) (bs : List UInt8) : List UInt8 :=
  frame (writeText employer) ++ (frame (writeText employee) ++ (frame (writeText commitmentHash) ++
    (bigIntBytes cycleId ++ bs)))

theorem encodeCommitmentEntry_eq_ok {engine : Engine} {v : CommitmentEntry} {bytes : List UInt8} :
    encodeCommitmentEntry engine v = .ok bytes ↔ (0 ≤ v.cycleId ∧ 0 ≤ v.actualAmount) ∧
      bytes = record .commitmentEntry (commitBytes v.employer v.employee v.commitmentHash v.cycleId
        (writeDouble engine.nanBits v.createdAt ++ ([if v.revealed then 1 else 0] ++
          bigIntBytes v.actualAmount))) := by
  have h := ((Writes.bigInt v.cycleId).bind ((Writes.bigInt v.actualAmount).after
    (f := fun w => (w.writeFloat64 engine v.createdAt).writeBool v.revealed) fun w => by
      rw [BinaryWriter.toBytes_writeBool, BinaryWriter.toBytes_writeFloat64, List.append_assoc])).toBytes_eq_ok
    ((((writeHeader .new .commitmentEntry).writeString v.employer).writeString v.employee).writeString
      v.commitmentHash) bytes
  rw [bind_assoc] at h
  refine h.trans ?_
  simp [record_append, commitBytes, bigIntBytes]

theorem commitmentEntryCodec (engine : Engine) :
    RecordCodec engine.nanBits .commitmentEntry commitmentEntryFormat decodeCommitmentEntry
      (encodeCommitmentEntry engine) (CommitmentEntryFits engine.nanBits) := by
  have h : Codec BinaryReader.unread engine.nanBits _ _ _ _ := .map CommitmentEntryParts.toEntry
    CommitmentEntry.parts (stringCodec.pair (stringCodec.pair (stringCodec.pair
      (bigIntCodec.pair (float64Codec.pair (boolCodec.pair bigIntCodec)))))) fun _ => rfl
  have hd : decodeCommitmentEntry = readAll (readRecord .commitmentEntry (CommitmentEntryParts.toEntry <$>
      readPair readString (readPair readString (readPair readString (readPair readBigInt
        (readPair readFloat64 (readPair readBool readBigInt)))))) fun _ => pure ()) := by
    simp only [decodeCommitmentEntry, readRecord, readPair, map_eq_pure_bind, bind_assoc, pure_bind, liftM_pure]
    rfl
  rw [hd]
  refine .of_codec _ (h.congr fun v => ?_) (fun v bytes => encodeCommitmentEntry_eq_ok) (fun _ _ => rfl)
    fun v hv _ => ⟨hv.cycleId.1, hv.actualAmount.1⟩
  constructor
  · intro hv
    obtain ⟨⟨h₁, h₂, h₃, h₄, h₅, -, h₆⟩, -⟩ := hv
    exact ⟨h₁, h₂, h₃, h₄, h₅, h₆⟩
  · intro hv
    exact ⟨⟨hv.employer, hv.employee, hv.commitmentHash, hv.cycleId, hv.createdAt, trivial, hv.actualAmount⟩, rfl⟩

/-! ## Commit requests -/

abbrev CommitRequestParts : Type := JsString × JsString × JsString × Int

def CommitRequestParts.toRequest (p : CommitRequestParts) : CommitRequest where
  employer := p.1
  employee := p.2.1
  commitmentHash := p.2.2.1
  cycleId := p.2.2.2

/-- The fields in the order of the bytes. -/
def CommitRequest.parts (v : CommitRequest) : CommitRequestParts :=
  (v.employer, v.employee, v.commitmentHash, v.cycleId)

/-- The layout of a request. -/
def commitRequestFormat : Format := .seq .text (.seq .text (.seq .text .magnitude))

/-- A commit request that is read back. -/
structure CommitRequestFits (v : CommitRequest) : Prop where
  employer : TextFits v.employer
  employee : TextFits v.employee
  commitmentHash : TextFits v.commitmentHash
  cycleId : BigIntFits v.cycleId

theorem encodeCommitRequest_eq_ok {v : CommitRequest} {bytes : List UInt8} :
    encodeCommitRequest v = .ok bytes ↔ 0 ≤ v.cycleId ∧
      bytes = record .commitRequest (commitBytes v.employer v.employee v.commitmentHash v.cycleId []) := by
  refine ((Writes.bigInt v.cycleId).toBytes_eq_ok _ bytes).trans ?_
  simp [record_append, commitBytes, bigIntBytes]

theorem commitRequestCodec :
    RecordCodec nanBits .commitRequest commitRequestFormat decodeCommitRequest encodeCommitRequest
      CommitRequestFits := by
  have h : Codec BinaryReader.unread nanBits _ _ _ _ := .map CommitRequestParts.toRequest CommitRequest.parts
    (stringCodec.pair (stringCodec.pair (stringCodec.pair bigIntCodec))) fun _ => rfl
  have hd : decodeCommitRequest = readAll (readRecord .commitRequest (CommitRequestParts.toRequest <$>
      readPair readString (readPair readString (readPair readString readBigInt))) fun _ => pure ()) := by
    simp only [decodeCommitRequest, readRecord, readPair, map_eq_pure_bind, bind_assoc, pure_bind, liftM_pure]
    rfl
  rw [hd]
  refine .of_codec (fun v => 0 ≤ v.cycleId) (h.congr fun v => ?_) (fun v bytes => ?_) (fun _ _ => rfl)
    fun v hv _ => hv.cycleId.1
  · constructor
    · intro hv
      obtain ⟨⟨h₁, h₂, h₃, h₄⟩, -⟩ := hv
      exact ⟨h₁, h₂, h₃, h₄⟩
    · intro hv
      exact ⟨⟨hv.employer, hv.employee, hv.commitmentHash, hv.cycleId⟩, rfl⟩
  · rw [encodeCommitRequest_eq_ok, commitBytes, List.append_nil]
    rfl

end ZkPayroll.Serialization
