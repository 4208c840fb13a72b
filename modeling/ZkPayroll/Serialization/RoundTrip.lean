import ZkPayroll.Serialization.CommitmentSerialization
import ZkPayroll.Serialization.PayrollCommandSerialization
import ZkPayroll.Serialization.ProofSerialization

/-!
# Records that are read back, and bytes that are written back

Which accepted requests and entries `decodePayrollRequest` and
`decodePayrollCommandEntry` give back from the bytes that are written for them
(`restored_iff`): those without an employee identifier whose strings survive
UTF-8, `TextDecoder` and a length of four bytes. A lone surrogate is written
as U+FFFD, a byte order mark at the front is dropped by the decoder, and the
employee identifier is written nowhere (`identified_salary_lost`). The same
holds of proofs and commitments (`records_restored_iff`): here the metadata of a
proof payload are written nowhere, and a number that is `NaN` is read as `NaN`,
if not with the same bits.

A buffer of one kind never decodes as another and has no bytes after its
fields. It is written back just if every raw field is canonical
(`decoded_canonical_iff`): a flag is 0 or 1, a magnitude has no zero byte at the
front, a text is UTF-8 without a byte order mark, and a timestamp that is no
number has the bits that the engine writes. The decoders accept all other flags,
magnitudes and texts as well (`loose_flag_accepted`).
-/

namespace ZkPayroll.Serialization

open ZkPayroll.Core Framework

/-- The strings of an entry that are written. -/
def PayrollRequestEntry.strings (e : PayrollRequestEntry) : List JsString :=
  e.recipient :: e.asset :: e.memo.toList

/-- The strings of a submission context. -/
def SubmissionContext.strings (c : SubmissionContext) : List JsString :=
  c.network.toList ++ c.contractId.toList ++ c.nonce.toList

/-- Nothing of the entry is lost when it is written. -/
structure LosslessEntry (e : PayrollRequestEntry) : Prop where
  employeeId : e.employeeId = none
  strings : ∀ s ∈ e.strings, TextFits s
  amount : MagnitudeFits e.amount.toNat

/-- Nothing of the request is lost when it is written. -/
structure LosslessRequest (r : PayrollRequest) : Prop where
  count : r.entries.length < 2 ^ 32
  entries : ∀ e ∈ r.entries, LosslessEntry e
  strings : ∀ s ∈ r.context.strings ++ r.idempotencyKeys, TextFits s

theorem optionalFits_iff {value : Option JsString} : OptionalFits value ↔ ∀ s ∈ value.toList, TextFits s := by
  simp [OptionalFits, Option.mem_toList]

theorem entryFits_iff {e : PayrollRequestEntry} (h : 0 ≤ e.amount) : EntryFits e ↔ LosslessEntry e := by
  constructor
  · intro he
    refine ⟨he.employeeId, ?_, he.amount.2⟩
    show ∀ s ∈ e.recipient :: e.asset :: e.memo.toList, TextFits s
    rw [List.forall_mem_cons, List.forall_mem_cons]
    exact ⟨he.recipient, he.asset, optionalFits_iff.mp he.memo⟩
  · intro he
    obtain ⟨hid, hs, ha⟩ := he
    rw [PayrollRequestEntry.strings, List.forall_mem_cons, List.forall_mem_cons] at hs
    exact ⟨hs.1, ⟨h, ha⟩, hs.2.1, optionalFits_iff.mpr hs.2.2, hid⟩

/-- An accepted request has as many keys as entries, and at least one. -/
theorem requestFits_iff {r : PayrollRequest} (h : ValidRequest r) : RequestFits r ↔ LosslessRequest r := by
  have he : (∀ e ∈ r.entries, EntryFits e) ↔ ∀ e ∈ r.entries, LosslessEntry e :=
    forall₂_congr fun e hm => entryFits_iff (h.entries e hm).amount.le
  constructor
  · intro hr
    refine ⟨hr.entries_lt, he.mp hr.entries, ?_⟩
    rw [SubmissionContext.strings, List.forall_mem_append, List.forall_mem_append, List.forall_mem_append]
    exact ⟨⟨⟨optionalFits_iff.mp hr.network, optionalFits_iff.mp hr.contractId⟩, optionalFits_iff.mp hr.nonce⟩,
      hr.keys⟩
  · intro hr
    obtain ⟨hlt, hl, hs⟩ := hr
    rw [SubmissionContext.strings, List.forall_mem_append, List.forall_mem_append, List.forall_mem_append] at hs
    obtain ⟨⟨⟨h₁, h₂⟩, h₃⟩, hk⟩ := hs
    exact ⟨hlt, h.nonempty, he.mpr hl, optionalFits_iff.mpr h₁, optionalFits_iff.mpr h₂, optionalFits_iff.mpr h₃,
      by rw [h.keys]; exact hlt, hk⟩

/-- An accepted request or entry is decoded from its own bytes just if nothing
of it is lost in them. -/
theorem restored_iff (r : PayrollRequest) (e : PayrollRequestEntry) :
    (∀ bytes : List UInt8, encodePayrollRequest r = .ok bytes →
      (decodePayrollRequest bytes = .ok r ↔ LosslessRequest r)) ∧
    ∀ bytes : List UInt8, encodePayrollCommandEntry e = .ok bytes →
      (decodePayrollCommandEntry bytes = .ok e ↔ LosslessEntry e) := by
  constructor
  · intro bytes h
    have hv := (encodePayrollRequest_eq_ok.mp h).1
    have hcodec : RecordCodec id _ _ decodePayrollRequest encodePayrollRequest RequestFits := payrollRequestCodec
    exact (hcodec.roundTrip h).trans (requestFits_iff hv)
  · intro bytes h
    have hv := (encodePayrollCommandEntry_eq_ok.mp h).1
    have hcodec : RecordCodec id _ _ decodePayrollCommandEntry encodePayrollCommandEntry EntryFits :=
      payrollCommandEntryCodec
    exact (hcodec.roundTrip h).trans (entryFits_iff hv.amount.le)

instance (s : JsString) : Decidable (TextFits s) :=
  decidable_of_iff (isWellFormed s = true ∧ s.head? ≠ some 0xFEFF ∧ (writeText s).length < 2 ^ 32)
    ⟨fun h => ⟨h.1, h.2.1, h.2.2⟩, fun h => ⟨h.wellFormed, h.no_bom, h.length_lt⟩⟩

instance (n : Nat) : Decidable (MagnitudeFits n) := inferInstanceAs (Decidable (_ < _))

instance (e : PayrollRequestEntry) : Decidable (LosslessEntry e) :=
  decidable_of_iff (e.employeeId = none ∧ (∀ s ∈ e.strings, TextFits s) ∧ MagnitudeFits e.amount.toNat)
    ⟨fun h => ⟨h.1, h.2.1, h.2.2⟩, fun h => ⟨h.employeeId, h.strings, h.amount⟩⟩

instance (r : PayrollRequest) : Decidable (LosslessRequest r) :=
  decidable_of_iff (r.entries.length < 2 ^ 32 ∧ (∀ e ∈ r.entries, LosslessEntry e) ∧
      ∀ s ∈ r.context.strings ++ r.idempotencyKeys, TextFits s)
    ⟨fun h => ⟨h.1, h.2.1, h.2.2⟩, fun h => ⟨h.count, h.entries, h.strings⟩⟩

/-- A salary with its memo, of an employee who may have an identifier. -/
def salaryEntry (employeeId : Option JsString) : PayrollRequestEntry where
  recipient := jsString "GA"
  amount := 500
  asset := jsString "native"
  memo := some (jsString "Märzgehalt")
  employeeId := employeeId

def salaryRequest (employeeId : Option JsString) : PayrollRequest where
  entries := [salaryEntry employeeId]
  idempotencyKeys := [jsString "k1"]
  context := { network := some (jsString "testnet") }

/-- The fields of the entry, with or without an identifier. -/
def salaryFields : List UInt8 :=
  [2, 0, 0, 0, 71, 65, 2, 0, 0, 0, 1, 244, 6, 0, 0, 0, 110, 97, 116, 105, 118, 101,
    1, 11, 0, 0, 0, 77, 195, 164, 114, 122, 103, 101, 104, 97, 108, 116]

def salaryRequestBytes : List UInt8 :=
  record .payrollRequest ([1, 0, 0, 0] ++ salaryFields ++
    [1, 7, 0, 0, 0, 116, 101, 115, 116, 110, 101, 116, 0, 0, 1, 0, 0, 0, 2, 0, 0, 0, 107, 49])

theorem anonymous_salary_restored :
    decodePayrollRequest salaryRequestBytes = .ok (salaryRequest none) ∧
      decodePayrollCommandEntry (record .payrollCommandEntry salaryFields) = .ok (salaryEntry none) :=
  ⟨((restored_iff (salaryRequest none) (salaryEntry none)).1 _ (by decide +kernel)).mpr (by decide +kernel),
    ((restored_iff (salaryRequest none) (salaryEntry none)).2 _ (by decide +kernel)).mpr (by decide +kernel)⟩

/-- With an identifier, the same bytes are written, and the identifier is
lost. -/
theorem identified_salary_lost :
    ¬ (∀ (r : PayrollRequest) (bytes : List UInt8), encodePayrollRequest r = .ok bytes →
      decodePayrollRequest bytes = .ok r) ∧
    ¬ ∀ (e : PayrollRequestEntry) (bytes : List UInt8), encodePayrollCommandEntry e = .ok bytes →
      decodePayrollCommandEntry bytes = .ok e := by
  constructor
  · intro h
    have hr := h (salaryRequest (some (jsString "E-17"))) salaryRequestBytes (by decide +kernel)
    exact absurd hr (by decide +kernel)
  · intro h
    have he := h (salaryEntry (some (jsString "E-17"))) (record .payrollCommandEntry salaryFields) (by decide +kernel)
    exact absurd he (by decide +kernel)

/-! ## Proofs and commitments -/

/-- The other entry has the same fields; a `NaN` may have other bits. -/
structure CommitmentEntry.Same (v w : CommitmentEntry) : Prop where
  fields : w = { v with createdAt := w.createdAt }
  createdAt : w.createdAt = v.createdAt ∨ isNaNBits v.createdAt = true ∧ isNaNBits w.createdAt = true

/-- The engine that leaves the bits of a `NaN` as they are. -/
def keepingEngine : Engine where
  nanBits := id
  isNaN_nanBits _ h := h

theorem isNaNBits_doubleBits (engine : Engine) {x : UInt64} (h : isNaNBits x = true) :
    isNaNBits (doubleBits engine.nanBits x) = true := by
  rw [doubleBits, if_pos h]
  exact engine.isNaN_nanBits x h

/-- The same entry has the same bytes, if an engine writes each `NaN` as another
wrote that of the entry. -/
theorem CommitmentEntry.Same.encode_eq {v w : CommitmentEntry} (h : v.Same w) (engine : Engine) :
    ∃ engine', ∀ bytes, encodeCommitmentEntry engine v = .ok bytes → encodeCommitmentEntry engine' w = .ok bytes := by
  let engine' : Engine := {
    nanBits := fun x => if isNaNBits v.createdAt then engine.nanBits v.createdAt else x
    isNaN_nanBits := fun x hx => by
      split
      · rename_i hv
        exact engine.isNaN_nanBits _ hv
      · exact hx }
  have hbits : doubleBits engine'.nanBits w.createdAt = doubleBits engine.nanBits v.createdAt := by
    show (if isNaNBits w.createdAt then (if isNaNBits v.createdAt then _ else _) else _) = _
    rcases h.createdAt with heq | ⟨hv, hw⟩
    · rw [heq, doubleBits]
      split
      · rfl
      · rfl
    · rw [if_pos hw, if_pos hv, doubleBits, if_pos hv]
  refine ⟨engine', fun bytes hbytes => ?_⟩
  rw [encodeCommitmentEntry_eq_ok] at hbytes ⊢
  rw [h.fields, writeDouble, hbits]
  exact hbytes

theorem commitmentEntry_restored_iff (engine : Engine) {v : CommitmentEntry} {bytes : List UInt8}
    (h : encodeCommitmentEntry engine v = .ok bytes) :
    (∃ w, decodeCommitmentEntry bytes = .ok w ∧ v.Same w) ↔ CommitmentEntryFits id v := by
  constructor
  · rintro ⟨w, hdecode, hsame⟩
    obtain ⟨engine', hencode⟩ := hsame.encode_eq engine
    have hw := ((commitmentEntryCodec engine').roundTrip (hencode bytes h)).mp hdecode
    rw [hsame.fields] at hw
    exact ⟨hw.employer, hw.employee, hw.commitmentHash, hw.cycleId, fun _ => rfl, hw.actualAmount⟩
  · intro hfits
    obtain ⟨hnonneg, hbytes⟩ := encodeCommitmentEntry_eq_ok.mp h
    let w : CommitmentEntry := { v with createdAt := doubleBits engine.nanBits v.createdAt }
    have hencode : encodeCommitmentEntry keepingEngine w = .ok bytes := by
      refine encodeCommitmentEntry_eq_ok.mpr ⟨hnonneg, ?_⟩
      rw [hbytes, writeDouble, writeDouble]
      have hkept : doubleBits keepingEngine.nanBits w.createdAt = w.createdAt := ite_self _
      rw [hkept]
    have hw : CommitmentEntryFits id w :=
      ⟨hfits.employer, hfits.employee, hfits.commitmentHash, hfits.cycleId, fun _ => rfl, hfits.actualAmount⟩
    refine ⟨w, ((commitmentEntryCodec keepingEngine).roundTrip hencode).mpr hw, rfl, ?_⟩
    cases hnan : isNaNBits v.createdAt with
    | true => exact .inr ⟨rfl, isNaNBits_doubleBits engine hnan⟩
    | false => exact .inl (if_neg (by simp [hnan]))

/-- A proof or a commitment is decoded from its own bytes just if it has no
metadata, no byte order mark and no lone surrogate, and nothing in it that is
too long. -/
theorem records_restored_iff (engine : Engine) :
    (∀ v : ProofPayload, decodeProofPayload (encodeProofPayload v) = .ok v ↔ ProofPayloadFits v) ∧
    (∀ v : ProofStruct, decodeProofStruct (encodeProofStruct v) = .ok v ↔ ProofStructFits v) ∧
    (∀ (v : CommitmentEntry) (bytes : List UInt8), encodeCommitmentEntry engine v = .ok bytes →
      ((∃ w, decodeCommitmentEntry bytes = .ok w ∧ v.Same w) ↔ CommitmentEntryFits id v)) ∧
    ∀ (v : CommitRequest) (bytes : List UInt8), encodeCommitRequest v = .ok bytes →
      (decodeCommitRequest bytes = .ok v ↔ CommitRequestFits v) := by
  refine ⟨fun v => ?_, fun v => ?_, fun v bytes h => commitmentEntry_restored_iff engine h, fun v bytes h => ?_⟩
  · have hcodec : RecordCodec id _ _ decodeProofPayload _ ProofPayloadFits := proofPayloadCodec
    exact hcodec.roundTrip rfl
  · have hcodec : RecordCodec id _ _ decodeProofStruct _ ProofStructFits := proofStructCodec
    exact hcodec.roundTrip rfl
  · have hcodec : RecordCodec id _ _ decodeCommitRequest encodeCommitRequest CommitRequestFits := commitRequestCodec
    exact hcodec.roundTrip h

/-- A request to commit a hash, after a given start of the employer's name. -/
def hashRequest (start : JsString) : CommitRequest where
  employer := start ++ jsString "GB"
  employee := jsString "GA"
  commitmentHash := jsString "Ω1"
  cycleId := 256

def hashRequestBytes (employer : List UInt8) : List UInt8 :=
  record .commitRequest (employer ++ [2, 0, 0, 0, 71, 65, 3, 0, 0, 0, 206, 169, 49, 2, 0, 0, 0, 1, 0])

theorem hash_request_restored :
    decodeCommitRequest (hashRequestBytes [2, 0, 0, 0, 71, 66]) = .ok (hashRequest []) :=
  ((records_restored_iff keepingEngine).2.2.2 (hashRequest []) _ (by decide +kernel)).mpr
    ⟨by decide +kernel, by decide +kernel, by decide +kernel, by decide, by decide +kernel⟩

/-- A byte order mark is a character of the name, but it is read back without it. -/
theorem marked_request_lost :
    (isWellFormed (hashRequest [0xFEFF]).employer = true ∧
      encodeCommitRequest (hashRequest [0xFEFF]) = .ok (hashRequestBytes [5, 0, 0, 0, 239, 187, 191, 71, 66]) ∧
      decodeCommitRequest (hashRequestBytes [5, 0, 0, 0, 239, 187, 191, 71, 66]) = .ok (hashRequest [])) ∧
    ¬∀ (v : CommitRequest) (bytes : List UInt8),
      isWellFormed v.employer = true → isWellFormed v.employee = true → isWellFormed v.commitmentHash = true →
      encodeCommitRequest v = .ok bytes → decodeCommitRequest bytes = .ok v := by
  have hencode : encodeCommitRequest (hashRequest [0xFEFF]) =
      .ok (hashRequestBytes [5, 0, 0, 0, 239, 187, 191, 71, 66]) := by decide +kernel
  have hdecode : decodeCommitRequest (hashRequestBytes [5, 0, 0, 0, 239, 187, 191, 71, 66]) = .ok (hashRequest []) := by
    decide +kernel
  refine ⟨⟨by decide +kernel, hencode, hdecode⟩, fun h => ?_⟩
  have hrestored := h _ _ (by decide +kernel) (by decide +kernel) (by decide +kernel) hencode
  rw [hdecode] at hrestored
  have hsame := congrArg CommitRequest.employer (Except.ok.inj hrestored)
  revert hsame
  decide +kernel

/-! ## Buffers -/

namespace PayloadType

/-- What a payload of the kind is. -/
def Value : PayloadType → Type
  | .proofPayload => ProofPayload
  | .proofStruct => ProofStruct
  | .commitmentEntry => CommitmentEntry
  | .commitRequest => CommitRequest
  | .payrollCommandEntry => PayrollRequestEntry
  | .payrollRequest => PayrollRequest

/-- What the bytes after the header consist of. -/
def format : PayloadType → Format
  | .proofPayload => proofPayloadFormat
  | .proofStruct => proofStructFormat
  | .commitmentEntry => commitmentEntryFormat
  | .commitRequest => commitRequestFormat
  | .payrollCommandEntry => entryFormat
  | .payrollRequest => payrollRequestFormat

def encode (engine : Engine) : (kind : PayloadType) → kind.Value → Except SdkError (List UInt8)
  | .proofPayload => fun v => .ok (encodeProofPayload v)
  | .proofStruct => fun v => .ok (encodeProofStruct v)
  | .commitmentEntry => encodeCommitmentEntry engine
  | .commitRequest => encodeCommitRequest
  | .payrollCommandEntry => encodePayrollCommandEntry
  | .payrollRequest => encodePayrollRequest

def decode : (kind : PayloadType) → List UInt8 → Except SdkError kind.Value
  | .proofPayload => decodeProofPayload
  | .proofStruct => decodeProofStruct
  | .commitmentEntry => decodeCommitmentEntry
  | .commitRequest => decodeCommitRequest
  | .payrollCommandEntry => decodePayrollCommandEntry
  | .payrollRequest => decodePayrollRequest

/-- What is read back of the kind. -/
def Fits (engine : Engine) : (kind : PayloadType) → kind.Value → Prop
  | .proofPayload => ProofPayloadFits
  | .proofStruct => ProofStructFits
  | .commitmentEntry => CommitmentEntryFits engine.nanBits
  | .commitRequest => CommitRequestFits
  | .payrollCommandEntry => EntryFits
  | .payrollRequest => RequestFits

theorem codec (engine : Engine) : ∀ kind : PayloadType,
    RecordCodec engine.nanBits kind kind.format kind.decode (kind.encode engine) (kind.Fits engine)
  | .proofPayload => proofPayloadCodec
  | .proofStruct => proofStructCodec
  | .commitmentEntry => commitmentEntryCodec engine
  | .commitRequest => commitRequestCodec
  | .payrollCommandEntry => payrollCommandEntryCodec
  | .payrollRequest => payrollRequestCodec

end PayloadType

/-- The raw fields of a buffer of the kind: what is left of it after the
header is cut as the format says, to the last byte. -/
def rawFields (kind : PayloadType) (bytes : List UInt8) : Option (List RawField) :=
  if bytes.take 2 = record kind [] then
    match kind.format.cut (bytes.drop 2) with
    | some (fields, []) => some fields
    | _ => none
  else none

theorem rawFields_record {kind : PayloadType} {body : List UInt8} {fields : List RawField}
    (h : kind.format.cut body = some (fields, [])) : rawFields kind (record kind body) = some fields := by
  have ht : (record kind body).take 2 = record kind [] := rfl
  have hd : (record kind body).drop 2 = body := rfl
  rw [rawFields, if_pos ht, hd, h]

/-- The header of a buffer that decodes is that of its kind. -/
theorem kind_eq_of_decode {kind kind' : PayloadType} {bytes : List UInt8} {v : kind.Value} {v' : kind'.Value}
    (h : kind.decode bytes = .ok v) (h' : kind'.decode bytes = .ok v') : kind' = kind := by
  obtain ⟨body, _, hb, -⟩ := (kind.codec ⟨id, fun _ h => h⟩).decoded h
  obtain ⟨body', _, hb', -⟩ := (kind'.codec ⟨id, fun _ h => h⟩).decoded h'
  exact (record_inj.mp (hb'.symm.trans hb)).1

/-- Every buffer that decodes consists of raw fields to the last byte, decodes
as no other kind, and is written back just if its fields are canonical. -/
theorem decoded_canonical_iff (engine : Engine) (kind : PayloadType) (bytes : List UInt8) (v : kind.Value)
    (h : kind.decode bytes = .ok v) :
    (∃ fields, rawFields kind bytes = some fields ∧
      (kind.encode engine v = .ok bytes ↔ ∀ f ∈ fields, f.Canonical engine.nanBits)) ∧
    ∀ (kind' : PayloadType) (v' : kind'.Value), kind'.decode bytes = .ok v' → kind' = kind := by
  constructor
  · obtain ⟨body, fields, rfl, hcut, hiff⟩ := (kind.codec engine).decoded h
    exact ⟨fields, rawFields_record hcut, hiff⟩
  · intro kind' v' h'
    exact kind_eq_of_decode h h'

/-- An engine that writes the bits of a NaN as they were read. -/
def plainEngine : Engine := ⟨id, fun _ h => h⟩

/-- A commit request for cycle 7. -/
def cycleRequest : CommitRequest where
  employer := jsString "GA"
  employee := jsString "GB"
  commitmentHash := jsString "ab"
  cycleId := 7

/-- Its bytes, where the cycle may have zero bytes before the 7. -/
def cycleBytes (cycle : List UInt8) : List UInt8 :=
  record .commitRequest ([2, 0, 0, 0, 71, 65, 2, 0, 0, 0, 71, 66, 2, 0, 0, 0, 97, 98] ++ frame cycle)

theorem cycle_written_back :
    (∃ fields, rawFields .commitRequest (cycleBytes [7]) = some fields ∧
      (encodeCommitRequest cycleRequest = .ok (cycleBytes [7]) ↔ ∀ f ∈ fields, f.Canonical id)) ∧
    ∀ (kind : PayloadType) (v : kind.Value), kind.decode (cycleBytes [7]) = .ok v → kind = .commitRequest :=
  decoded_canonical_iff plainEngine .commitRequest (cycleBytes [7]) cycleRequest (by
    show decodeCommitRequest (cycleBytes [7]) = .ok cycleRequest
    decide +kernel)

/-- An entry with an empty memo, whose flag is not 1. -/
def flaggedBytes (flag : UInt8) : List UInt8 :=
  record .payrollCommandEntry ([2, 0, 0, 0, 71, 65, 1, 0, 0, 0, 5, 3, 0, 0, 0, 120, 108, 109] ++
    [flag, 0, 0, 0, 0])

def flaggedEntry : PayrollRequestEntry where
  recipient := jsString "GA"
  amount := 5
  asset := jsString "xlm"
  memo := some []

/-- A flag of 2 decodes as a memo that is there, and is written back as 1. -/
theorem loose_flag_accepted :
    ¬ ∀ (engine : Engine) (kind : PayloadType) (bytes : List UInt8) (v : kind.Value),
      kind.decode bytes = .ok v → kind.encode engine v = .ok bytes := by
  intro h
  have he := h plainEngine .payrollCommandEntry (flaggedBytes 2) flaggedEntry (by
    show decodePayrollCommandEntry (flaggedBytes 2) = .ok flaggedEntry
    decide +kernel)
  have hn : encodePayrollCommandEntry flaggedEntry ≠ .ok (flaggedBytes 2) := by decide +kernel
  exact hn he

end ZkPayroll.Serialization
