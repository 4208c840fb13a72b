import ZkPayroll.Serialization.RecordHeader

/-!
# Proofs as bytes

`serialization/proofSerialization.ts`: the snarkjs-shaped proof with its
metadata, and the proof that a contract takes. Both write the proof triple
first (`proofTripleCodec`); the metadata of a proof payload is not written.
-/

namespace ZkPayroll.Serialization

open ZkPayroll.Core Framework

abbrev StringPair : Type := JsString × JsString

/-- Timestamps and payroll period bound to a generated proof. -/
structure ProofMetadata where
  createdAt : JsString
  expiresAt : JsString
  payrollPeriodStart : JsString
  payrollPeriodEnd : JsString
  deriving DecidableEq, Repr

/-- A Groth16 proof as it is encoded. -/
structure Proof where
  pi_a : StringPair
  pi_b : StringPair × StringPair
  pi_c : StringPair
  protocol : JsString
  curve : JsString
  deriving DecidableEq, Repr

structure ProofPayload where
  proof : Proof
  publicSignals : List JsString
  metadata : Option ProofMetadata := none
  deriving DecidableEq, Repr

structure ProofStruct where
  pi_a : StringPair
  pi_b : StringPair × StringPair
  pi_c : StringPair
  publicSignals : List JsString
  deriving DecidableEq, Repr

/-! ## Writing and reading -/

def writePair (writer : BinaryWriter) (p : StringPair) : BinaryWriter :=
  (writer.writeString p.1).writeString p.2

/-- Writes the shared Groth16 proof triple as field-element strings. -/
def writeProofTriple (writer : BinaryWriter) (pi_a : StringPair) (pi_b : StringPair × StringPair)
    (pi_c : StringPair) : BinaryWriter :=
  writePair (writePair (writePair (writePair writer pi_a) pi_b.1) pi_b.2) pi_c

def readProofTriple : Reading (StringPair × (StringPair × StringPair) × StringPair) := do
  let pi_a ← readPair readString readString
  let pi_b ← readPair (readPair readString readString) (readPair readString readString)
  let pi_c ← readPair readString readString
  pure (pi_a, pi_b, pi_c)

def encodeProofPayload (payload : ProofPayload) : List UInt8 :=
  let writer := writeHeader .new .proofPayload
  let writer := writeProofTriple writer payload.proof.pi_a payload.proof.pi_b payload.proof.pi_c
  let writer := writer.writeString payload.proof.protocol
  let writer := writer.writeString payload.proof.curve
  let writer := writer.writeStringArray payload.publicSignals
  writer.toBytes

def decodeProofPayload : List UInt8 → Except SdkError ProofPayload :=
  readAll do
    readHeader .proofPayload
    let (pi_a, pi_b, pi_c) ← readProofTriple
    let protocol ← readString
    let curve ← readString
    let publicSignals ← readStringArray
    assertExhausted
    pure { proof := { pi_a, pi_b, pi_c, protocol, curve }, publicSignals }

def encodeProofStruct (struct : ProofStruct) : List UInt8 :=
  let writer := writeHeader .new .proofStruct
  let writer := writeProofTriple writer struct.pi_a struct.pi_b struct.pi_c
  let writer := writer.writeStringArray struct.publicSignals
  writer.toBytes

def decodeProofStruct : List UInt8 → Except SdkError ProofStruct :=
  readAll do
    readHeader .proofStruct
    let (pi_a, pi_b, pi_c) ← readProofTriple
    let publicSignals ← readStringArray
    assertExhausted
    pure { pi_a, pi_b, pi_c, publicSignals }

/-! ## Codecs -/

variable {nanBits : UInt64 → UInt64}

def stringPairBytes (p : StringPair) : List UInt8 := frame (writeText p.1) ++ frame (writeText p.2)

/-- Both texts can be written. -/
def StringPairFits (p : StringPair) : Prop := TextFits p.1 ∧ TextFits p.2

def stringPairFormat : Format := .seq .text .text

theorem stringPairCodec :
    Codec BinaryReader.unread nanBits stringPairFormat (readPair readString readString) stringPairBytes
      StringPairFits :=
  stringCodec.pair stringCodec

@[simp] theorem toBytes_writePair (w : BinaryWriter) (p : StringPair) :
    (writePair w p).toBytes = w.toBytes ++ stringPairBytes p := by
  rw [writePair, BinaryWriter.toBytes_writeString, BinaryWriter.toBytes_writeString, List.append_assoc,
    stringPairBytes]

def tripleBytes (t : StringPair × (StringPair × StringPair) × StringPair) : List UInt8 :=
  stringPairBytes t.1 ++ ((stringPairBytes t.2.1.1 ++ stringPairBytes t.2.1.2) ++ stringPairBytes t.2.2)

/-- All of the texts can be written. -/
def TripleFits (t : StringPair × (StringPair × StringPair) × StringPair) : Prop :=
  StringPairFits t.1 ∧ (StringPairFits t.2.1.1 ∧ StringPairFits t.2.1.2) ∧ StringPairFits t.2.2

def proofTripleFormat : Format := .seq stringPairFormat (.seq (.seq stringPairFormat stringPairFormat) stringPairFormat)

theorem proofTripleCodec :
    Codec BinaryReader.unread nanBits proofTripleFormat readProofTriple tripleBytes TripleFits := by
  have h : Codec BinaryReader.unread nanBits _ _ _ _ :=
    stringPairCodec.pair ((stringPairCodec.pair stringPairCodec).pair stringPairCodec)
  have hr : readProofTriple = readPair (readPair readString readString)
      (readPair (readPair (readPair readString readString) (readPair readString readString))
        (readPair readString readString)) := by
    simp only [readProofTriple, readPair, bind_assoc, pure_bind]
  rw [hr]
  exact h

@[simp] theorem toBytes_writeProofTriple (w : BinaryWriter) (pi_a : StringPair) (pi_b : StringPair × StringPair)
    (pi_c : StringPair) :
    (writeProofTriple w pi_a pi_b pi_c).toBytes = w.toBytes ++ tripleBytes (pi_a, pi_b, pi_c) := by
  simp only [writeProofTriple, toBytes_writePair, tripleBytes, List.append_assoc]

/-! ## Proof payloads -/

abbrev ProofPayloadParts : Type :=
  (StringPair × (StringPair × StringPair) × StringPair) × JsString × JsString × List JsString

def ProofPayloadParts.toPayload (p : ProofPayloadParts) : ProofPayload where
  proof := { pi_a := p.1.1, pi_b := p.1.2.1, pi_c := p.1.2.2, protocol := p.2.1, curve := p.2.2.1 }
  publicSignals := p.2.2.2

/-- The fields in the order of the bytes. -/
def ProofPayload.parts (v : ProofPayload) : ProofPayloadParts :=
  ((v.proof.pi_a, v.proof.pi_b, v.proof.pi_c), v.proof.protocol, v.proof.curve, v.publicSignals)

/-- The layout of a payload. -/
def proofPayloadFormat : Format := .seq proofTripleFormat (.seq .text (.seq .text (.many .text)))

/-- A proof payload that is read back. -/
structure ProofPayloadFits (v : ProofPayload) : Prop where
  triple : TripleFits (v.proof.pi_a, v.proof.pi_b, v.proof.pi_c)
  protocol : TextFits v.proof.protocol
  curve : TextFits v.proof.curve
  signals_lt : v.publicSignals.length < 2 ^ 32
  signals : ∀ s ∈ v.publicSignals, TextFits s
  metadata : v.metadata = none

theorem proofPayloadCodec :
    RecordCodec nanBits .proofPayload proofPayloadFormat decodeProofPayload
      (fun v => .ok (encodeProofPayload v)) ProofPayloadFits := by
  have h : Codec BinaryReader.unread nanBits _ _ _ _ := .map ProofPayloadParts.toPayload ProofPayload.parts
    (proofTripleCodec.pair (stringCodec.pair (stringCodec.pair stringArrayCodec))) fun _ => rfl
  have hd : decodeProofPayload = readAll (readRecord .proofPayload (ProofPayloadParts.toPayload <$>
      readPair readProofTriple (readPair readString (readPair readString readStringArray)))
      fun _ => pure ()) := by
    simp only [decodeProofPayload, readRecord, readPair, map_eq_pure_bind, bind_assoc, pure_bind, liftM_pure]
    rfl
  rw [hd]
  refine .of_codec (fun _ => True) (h.congr fun v => ?_) (fun v bytes => ?_) (fun _ _ => rfl)
    fun _ _ _ => trivial
  · constructor
    · intro hv
      obtain ⟨⟨ht, hp, hc, hn, hs⟩, hm⟩ := hv
      exact ⟨ht, hp, hc, hn, hs, by rw [← hm]; rfl⟩
    · intro hv
      refine ⟨⟨hv.triple, hv.protocol, hv.curve, hv.signals_lt, hv.signals⟩, ?_⟩
      obtain ⟨proof, signals, metadata⟩ := v
      obtain rfl : metadata = none := hv.metadata
      rfl
  · apply ok_record_eq_ok
    show encodeProofPayload v = record .proofPayload (tripleBytes (v.proof.pi_a, v.proof.pi_b, v.proof.pi_c) ++
      (frame (writeText v.proof.protocol) ++ (frame (writeText v.proof.curve) ++
        writeMany (fun s => frame (writeText s)) v.publicSignals)))
    simp [encodeProofPayload, record_append]

/-! ## Proof structs -/

abbrev ProofStructParts : Type := (StringPair × (StringPair × StringPair) × StringPair) × List JsString

def ProofStructParts.toStruct (p : ProofStructParts) : ProofStruct where
  pi_a := p.1.1
  pi_b := p.1.2.1
  pi_c := p.1.2.2
  publicSignals := p.2

/-- The fields in the order of the bytes. -/
def ProofStruct.parts (v : ProofStruct) : ProofStructParts := ((v.pi_a, v.pi_b, v.pi_c), v.publicSignals)

def proofStructFormat : Format := .seq proofTripleFormat (.many .text)

/-- A proof struct that is read back. -/
structure ProofStructFits (v : ProofStruct) : Prop where
  triple : TripleFits (v.pi_a, v.pi_b, v.pi_c)
  signals_lt : v.publicSignals.length < 2 ^ 32
  signals : ∀ s ∈ v.publicSignals, TextFits s

theorem proofStructCodec :
    RecordCodec nanBits .proofStruct proofStructFormat decodeProofStruct
      (fun v => .ok (encodeProofStruct v)) ProofStructFits := by
  have h : Codec BinaryReader.unread nanBits _ _ _ _ := .map ProofStructParts.toStruct ProofStruct.parts
    (proofTripleCodec.pair stringArrayCodec) fun _ => rfl
  have hd : decodeProofStruct = readAll (readRecord .proofStruct (ProofStructParts.toStruct <$>
      readPair readProofTriple readStringArray) fun _ => pure ()) := by
    simp only [decodeProofStruct, readRecord, readPair, map_eq_pure_bind, bind_assoc, pure_bind, liftM_pure]
    rfl
  rw [hd]
  refine .of_codec (fun _ => True) (h.congr fun v => ?_) (fun v bytes => ?_) (fun _ _ => rfl)
    fun _ _ _ => trivial
  · constructor
    · intro hv
      obtain ⟨⟨ht, hn, hs⟩, -⟩ := hv
      exact ⟨ht, hn, hs⟩
    · intro hv
      exact ⟨⟨hv.triple, hv.signals_lt, hv.signals⟩, rfl⟩
  · apply ok_record_eq_ok
    show encodeProofStruct v = record .proofStruct (tripleBytes (v.pi_a, v.pi_b, v.pi_c) ++
      writeMany (fun s => frame (writeText s)) v.publicSignals)
    simp [encodeProofStruct, record_append]

end ZkPayroll.Serialization
