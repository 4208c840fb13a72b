import ZkPayroll.Core.Errors
import ZkPayroll.Framework.Codec

/-!
# The binary reader and writer

`serialization/BinaryReader.ts`: a cursor over a byte buffer that reads one
value after the other. The methods are actions on the cursor; each of them
takes the bytes of one field of the format (`readUint8_token`,
`readBigInt_token`, `readString_token`), or throws because the buffer ends
before.

`serialization/BinaryWriter.ts`: a growing list of chunks, which `toBytes`
joins. What a method adds to the bytes is stated beside it; these are the
bytes that the codec of the field has (`stringCodec`, `bigIntCodec`).
-/

namespace ZkPayroll.Serialization

open ZkPayroll.Core Framework

/-- The code units of a JavaScript string. -/
abbrev JsString : Type := List UInt16

/-- A string from its text. -/
def jsString (s : String) : JsString := units s.toList

/-- `new SerializationError(message, code)`. -/
def serializationError (message code : String) : SdkError where
  kind := .zkPayroll
  name := "SerializationError"
  message := message
  code := code

/-- The cursor, and the bytes of the buffer from there on. -/
structure BinaryReader where
  offset : Nat
  unread : List UInt8
  deriving DecidableEq, Repr

/-- `new BinaryReader(bytes)`. -/
def BinaryReader.ofBytes (bytes : List UInt8) : BinaryReader := ⟨0, bytes⟩

def BinaryReader.remaining (r : BinaryReader) : Nat := r.unread.length

/-- A reader over what is left of the bytes. -/
abbrev Reading (α : Type) : Type := StateT BinaryReader (Except SdkError) α

def ensure (byteCount : Nat) : Reading Unit := do
  let r ← get
  throwIf (r.remaining < byteCount) (serializationError
    (s!"Unexpected end of buffer: need {byteCount} byte(s) at offset {r.offset}, " ++
      s!"only {r.remaining} remaining.")
    "SERIALIZATION_TRUNCATED")

/-- The bytes at the cursor, which moves past them. -/
def advance (byteCount : Nat) : Reading (List UInt8) := do
  let r ← get
  set ({ offset := r.offset + byteCount, unread := r.unread.drop byteCount } : BinaryReader)
  pure (r.unread.take byteCount)

def readUint8 : Reading UInt8 := do
  ensure 1
  let bytes ← advance 1
  pure (bytes.headD 0)

def readUint32 : Reading Nat := do
  ensure 4
  let bytes ← advance 4
  pure (ofLE bytes)

def readFloat64 : Reading UInt64 := do
  ensure 8
  let bytes ← advance 8
  pure (readDouble bytes)

def readBool : Reading Bool := do
  let byte ← readUint8
  pure (byte != 0)

def readBigInt : Reading Int := do
  let length ← readUint32
  if length = 0 then pure 0
  else
    ensure length
    let bytes ← advance length
    pure (ofBE bytes : Int)

def readString : Reading JsString := do
  let length ← readUint32
  ensure length
  let slice ← advance length
  pure (readText slice)

def readStringArray : Reading (List JsString) := do
  let count ← readUint32
  readRepeat readString count

def assertExhausted : Reading Unit := do
  let r ← get
  throwIf (r.remaining ≠ 0) (serializationError
    s!"Buffer has {r.remaining} unexpected trailing byte(s) after decoding."
    "SERIALIZATION_TRAILING_BYTES")

/-! ## What the methods take -/

/-- A field of `n` bytes is there just if the buffer has as many left. -/
theorem ensure_advance_eq_ok {n : Nat} {f : List UInt8 → Reading α} {s : BinaryReader} {r : α × BinaryReader} :
    (do ensure n; let bytes ← advance n; f bytes) s = .ok r ↔
      ∃ t s', t.length = n ∧ s.unread = t ++ s'.unread ∧ s'.offset = s.offset + n ∧ f t s' = .ok r := by
  have hens : ∀ {s' : BinaryReader}, ensure n s = .ok ((), s') ↔ n ≤ s.unread.length ∧ s' = s := by
    intro s'
    show (throwIf _ _ >>= fun a => Except.ok (a, s)) = Except.ok ((), s') ↔ _
    rw [throwIf_bind_eq_ok, Except.ok.injEq, Prod.mk.injEq, Nat.not_lt]
    exact and_congr_right fun _ => ⟨fun h => h.2.symm, fun h => ⟨rfl, h.symm⟩⟩
  rw [reader_bind_eq_ok]
  constructor
  · intro h
    obtain ⟨_, s₁, h₁, h⟩ := h
    obtain ⟨hn, rfl⟩ := hens.mp h₁
    obtain ⟨t, s₂, h₂, h⟩ := reader_bind_eq_ok.mp h
    obtain ⟨rfl, rfl⟩ := Prod.mk.inj (Except.ok.inj h₂)
    exact ⟨_, _, List.length_take_of_le hn, (List.take_append_drop n _).symm, rfl, h⟩
  · intro h
    obtain ⟨t, s', ht, hs, hoff, h⟩ := h
    refine ⟨(), s, hens.mpr ⟨by rw [hs, List.length_append]; omega, rfl⟩, ?_⟩
    refine reader_bind_eq_ok.mpr ⟨t, s', ?_, h⟩
    have hadv : advance n s = .ok (s.unread.take n, ⟨s.offset + n, s.unread.drop n⟩) := rfl
    rw [hadv, hs, List.take_left' ht, List.drop_left' ht, ← hoff]

/-- A method that reads a field of `n` bytes. -/
theorem field_token {n : Nat} (value : List UInt8 → α) :
    Token BinaryReader.unread (do ensure n; let bytes ← advance n; pure (value bytes)) id value
      (·.length = n) where
  reads := by
    intro s s' v h
    obtain ⟨t, s₁, ht, hs, -, h⟩ := ensure_advance_eq_ok.mp h
    obtain ⟨rfl, rfl⟩ := reader_pure_eq_ok.mp h
    exact ⟨t, ht, hs, rfl⟩
  accepts := by
    intro s t tail ht hs
    exact ⟨⟨s.offset + n, tail⟩, ensure_advance_eq_ok.mpr ⟨t, ⟨s.offset + n, tail⟩, ht, hs, rfl, rfl⟩, rfl⟩

theorem readUint8_token : Token BinaryReader.unread readUint8 (fun b : UInt8 => [b]) id fun _ => True where
  reads := by
    intro s s' v h
    obtain ⟨t, ht, hs, rfl⟩ := (field_token fun t => t.headD 0).reads h
    obtain ⟨b, rfl⟩ := List.length_eq_one_iff.mp ht
    exact ⟨b, trivial, hs, rfl⟩
  accepts := by
    intro s b tail _ hs
    exact (field_token fun t => t.headD 0).accepts (t := [b]) rfl hs

theorem readUint32_token : CountToken BinaryReader.unread readUint32 where
  reads := by
    intro s s' v h
    obtain ⟨t, ht, hs, rfl⟩ := (field_token ofLE).reads h
    have hlt := ofLE_lt t
    have hle := toLE_ofLE t
    rw [ht] at hlt hle
    exact ⟨ofLE t, hlt, by rw [hs, hle]; rfl, rfl⟩
  accepts := by
    intro s n tail hn hs
    obtain ⟨s', h, hs'⟩ := (field_token ofLE).accepts (t := toLE 4 n) (length_toLE 4 n) hs
    rw [ofLE_toLE_four hn] at h
    exact ⟨s', h, hs'⟩

theorem readFloat64_token : Token BinaryReader.unread readFloat64 id readDouble (·.length = 8) :=
  field_token readDouble

theorem readBool_token : FlagToken BinaryReader.unread readBool where
  reads := by
    intro s s' v h
    obtain ⟨b, s₁, hb, h⟩ := reader_bind_eq_ok.mp h
    obtain ⟨rfl, rfl⟩ := reader_pure_eq_ok.mp h
    obtain ⟨_, -, hs, rfl⟩ := readUint8_token.reads hb
    exact ⟨b, trivial, hs, rfl⟩
  accepts := by
    intro s b tail _ hs
    obtain ⟨s', h, hs'⟩ := readUint8_token.accepts trivial hs
    exact ⟨s', reader_bind_eq_ok.mpr ⟨_, _, h, rfl⟩, hs'⟩

/-- A method that reads a length and as many bytes. -/
theorem framed_token {reader : Reading α} {value : List UInt8 → α}
    (h : ∀ s r, reader s = .ok r ↔ ∃ length s', readUint32 s = .ok (length, s') ∧
      (do ensure length; let bytes ← advance length; pure (value bytes)) s' = .ok r) :
    FrameToken BinaryReader.unread reader value where
  reads := by
    intro s s' v hr
    obtain ⟨n, s₁, hn, hr⟩ := (h s _).mp hr
    obtain ⟨_, hlt, hs, rfl⟩ := readUint32_token.reads hn
    obtain ⟨t, ht, hs₁, rfl⟩ := (field_token value).reads hr
    refine ⟨t, by rw [ht]; exact hlt, ?_, rfl⟩
    rw [hs, hs₁, frame, List.append_assoc, ht]
    rfl
  accepts := by
    intro s t tail ht hs
    rw [frame, List.append_assoc] at hs
    obtain ⟨s₁, hn, hs₁⟩ := readUint32_token.accepts (t := t.length) ht hs
    obtain ⟨s₂, hv, hs₂⟩ := (field_token value).accepts (t := t) rfl hs₁
    exact ⟨s₂, (h s _).mpr ⟨_, _, hn, hv⟩, hs₂⟩

theorem readString_token : FrameToken BinaryReader.unread readString readText :=
  framed_token fun _ _ => reader_bind_eq_ok

/-- An empty field is zero also without the check. -/
theorem readBigInt_token : FrameToken BinaryReader.unread readBigInt fun t => (ofBE t : Int) := by
  refine framed_token fun s r => ?_
  rw [readBigInt, reader_bind_eq_ok]
  refine exists_congr fun n => exists_congr fun s' => and_congr_right fun _ => ?_
  split
  · rename_i h0
    subst h0
    obtain ⟨v, s''⟩ := r
    rw [reader_pure_eq_ok, ensure_advance_eq_ok]
    constructor
    · intro h
      obtain ⟨rfl, rfl⟩ := h
      exact ⟨[], s', rfl, rfl, rfl, rfl⟩
    · intro h
      obtain ⟨t, s₁, ht, hs, hoff, h⟩ := h
      obtain rfl := List.length_eq_zero_iff.mp ht
      obtain ⟨rfl, rfl⟩ := reader_pure_eq_ok.mp h
      refine ⟨rfl, ?_⟩
      cases s'
      cases s₁
      rw [BinaryReader.mk.injEq]
      exact ⟨hoff.symm, hs⟩
  · rfl

theorem assertExhausted_eq_ok {s s' : BinaryReader} : assertExhausted s = .ok ((), s') ↔ s.unread = [] ∧ s = s' := by
  show (throwIf _ _ >>= fun a => Except.ok (a, s)) = Except.ok ((), s') ↔ _
  rw [throwIf_bind_eq_ok, not_not, BinaryReader.remaining, List.length_eq_zero_iff, Except.ok.injEq,
    Prod.mk.injEq]
  exact and_congr_right fun _ => ⟨fun h => h.2, fun h => ⟨rfl, h⟩⟩

/-- `new RangeError(message)`. -/
def rangeError (message : String) : SdkError where
  kind := .error
  name := "RangeError"
  message := message

/-- What the engine that runs the program is free to choose: the bits that
`setFloat64` stores for a NaN. -/
structure Engine where
  nanBits : UInt64 → UInt64
  isNaN_nanBits : ∀ bits, isNaNBits bits = true → isNaNBits (nanBits bits) = true

structure BinaryWriter where
  chunks : List (List UInt8)
  deriving DecidableEq, Repr

namespace BinaryWriter

/-- `new BinaryWriter()`. -/
def new : BinaryWriter := ⟨[]⟩

variable (w : BinaryWriter)

def push (chunk : List UInt8) : BinaryWriter := ⟨w.chunks ++ [chunk]⟩

def toBytes : List UInt8 := w.chunks.flatten

/-- Only the last byte of the value is written. -/
def writeUint8 (value : Nat) : BinaryWriter := w.push [UInt8.ofNat value]

/-- The value is written modulo `2 ^ 32`. -/
def writeUint32 (value : Nat) : BinaryWriter := w.push (toLE 4 value)

def writeFloat64 (engine : Engine) (w : BinaryWriter) (value : UInt64) : BinaryWriter :=
  w.push (writeDouble engine.nanBits value)

def writeBool (value : Bool) : BinaryWriter := w.writeUint8 (if value then 1 else 0)

def writeBigInt (w : BinaryWriter) (value : Int) : Except SdkError BinaryWriter :=
  if value < 0 then .error (rangeError "writeBigInt does not support negative values")
  else if value = 0 then .ok (w.writeUint32 0)
  else
    let bytes := magnitude value.toNat
    .ok ((w.writeUint32 bytes.length).push bytes)

def writeString (value : JsString) : BinaryWriter :=
  let encoded := writeText value
  (w.writeUint32 encoded.length).push encoded

def writeStringArray (values : List JsString) : BinaryWriter :=
  values.foldl writeString (w.writeUint32 values.length)

variable (w : BinaryWriter)

@[simp] theorem toBytes_new : new.toBytes = [] := rfl

@[simp] theorem toBytes_push (chunk : List UInt8) : (w.push chunk).toBytes = w.toBytes ++ chunk := by
  rw [toBytes, push, List.flatten_append, List.flatten_singleton]
  rfl

@[simp] theorem toBytes_writeUint8 (n : Nat) : (w.writeUint8 n).toBytes = w.toBytes ++ [UInt8.ofNat n] :=
  toBytes_push w _

@[simp] theorem toBytes_writeUint32 (n : Nat) : (w.writeUint32 n).toBytes = w.toBytes ++ toLE 4 n :=
  toBytes_push w _

@[simp] theorem toBytes_writeFloat64 (engine : Engine) (x : UInt64) :
    (w.writeFloat64 engine x).toBytes = w.toBytes ++ writeDouble engine.nanBits x :=
  toBytes_push w _

@[simp] theorem toBytes_writeBool (b : Bool) : (w.writeBool b).toBytes = w.toBytes ++ [if b then 1 else 0] := by
  cases b <;> exact toBytes_writeUint8 w _

@[simp] theorem toBytes_writeString (s : JsString) :
    (w.writeString s).toBytes = w.toBytes ++ frame (writeText s) := by
  rw [writeString, toBytes_push, toBytes_writeUint32, List.append_assoc, frame]

theorem toBytes_foldl_writeString (ss : List JsString) :
    (ss.foldl writeString w).toBytes = w.toBytes ++ ss.flatMap fun s => frame (writeText s) := by
  induction ss generalizing w with
  | nil => exact (List.append_nil _).symm
  | cons s ss ih => rw [List.foldl_cons, ih, toBytes_writeString, List.append_assoc, List.flatMap_cons]

@[simp] theorem toBytes_writeStringArray (ss : List JsString) :
    (w.writeStringArray ss).toBytes = w.toBytes ++ writeMany (fun s => frame (writeText s)) ss := by
  rw [writeStringArray, toBytes_foldl_writeString, toBytes_writeUint32, List.append_assoc]
  rfl

end BinaryWriter

/-- The action writes `bytes`, and throws just if it does not accept what it is
given. -/
def Writes (action : BinaryWriter → Except SdkError BinaryWriter) (accepts : Prop) (bytes : List UInt8) : Prop :=
  ∀ w, (¬ accepts ∧ ∃ e, action w = .error e) ∨
    (accepts ∧ ∃ w', action w = .ok w' ∧ w'.toBytes = w.toBytes ++ bytes)

namespace Writes

variable {a b : BinaryWriter → Except SdkError BinaryWriter} {p q : Prop} {bs cs : List UInt8}
  {f : BinaryWriter → BinaryWriter}

/-- Of a negative number nothing is written, and of zero only its length. -/
theorem bigInt (n : Int) : Writes (·.writeBigInt n) (0 ≤ n) (frame (magnitude n.toNat)) := by
  intro w
  unfold BinaryWriter.writeBigInt
  split
  · rename_i h
    exact .inl ⟨Int.not_le.mpr h, _, rfl⟩
  · rename_i h
    refine .inr ⟨Int.not_lt.mp h, ?_⟩
    split
    · rename_i h0
      refine ⟨_, rfl, ?_⟩
      rw [BinaryWriter.toBytes_writeUint32, h0]
      rfl
    · refine ⟨_, rfl, ?_⟩
      rw [BinaryWriter.toBytes_push, BinaryWriter.toBytes_writeUint32, List.append_assoc, frame]

theorem pure (f : BinaryWriter → BinaryWriter) (bs : List UInt8) (hf : ∀ w, (f w).toBytes = w.toBytes ++ bs) :
    Writes (fun w => .ok (f w)) True bs :=
  fun w => .inr ⟨trivial, _, rfl, hf w⟩

theorem bind (ha : Writes a p bs) (hb : Writes b q cs) : Writes (fun w => a w >>= b) (p ∧ q) (bs ++ cs) := by
  intro w
  show (¬ (p ∧ q) ∧ ∃ e, (a w >>= b) = _) ∨ (p ∧ q) ∧ ∃ w', (a w >>= b) = _ ∧ _
  rcases ha w with ⟨hp, e, he⟩ | ⟨hp, w₁, h₁, hw₁⟩
  · rw [he]
    exact .inl ⟨fun h => hp h.1, e, rfl⟩
  · rw [h₁, ← List.append_assoc, ← hw₁]
    rcases hb w₁ with ⟨hq, he⟩ | ⟨hq, hw₂⟩
    · exact .inl ⟨fun h => hq h.2, he⟩
    · exact .inr ⟨⟨hp, hq⟩, hw₂⟩

theorem after (ha : Writes a p bs) (hf : ∀ w, (f w).toBytes = w.toBytes ++ cs) :
    Writes (fun w => a (f w)) p (cs ++ bs) := by
  intro w
  rw [← List.append_assoc, ← hf]
  exact ha (f w)

theorem foldlM {step : BinaryWriter → α → Except SdkError BinaryWriter} {accepts : α → Prop}
    {bytes : α → List UInt8} (h : ∀ x, Writes (fun w => step w x) (accepts x) (bytes x)) : ∀ xs : List α,
    Writes (fun w => xs.foldlM step w) (∀ x ∈ xs, accepts x) (xs.flatMap bytes)
  | [] => fun w => .inr ⟨by simp, w, rfl, (List.append_nil _).symm⟩
  | x :: xs => by
    simp only [List.foldlM_cons, List.forall_mem_cons, List.flatMap_cons]
    exact (h x).bind (foldlM h xs)

theorem toBytes_eq_ok (ha : Writes a p bs) (w : BinaryWriter) (bytes : List UInt8) :
    (a w >>= fun w' => Except.ok w'.toBytes) = .ok bytes ↔ p ∧ bytes = w.toBytes ++ bs := by
  rcases ha w with ⟨hp, e, he⟩ | ⟨hp, w', hw, hb⟩
  · rw [he]
    exact iff_of_false (fun h => nomatch h) fun h => hp h.1
  · rw [hw, ← hb]
    show Except.ok w'.toBytes = .ok bytes ↔ _
    rw [Except.ok.injEq, and_iff_right hp, eq_comm]

end Writes

/-! ## Codecs of the fields -/

variable {nanBits : UInt64 → UInt64}

theorem stringCodec :
    Codec BinaryReader.unread nanBits .text readString (fun s => frame (writeText s)) TextFits :=
  .text readString_token

theorem bigIntCodec :
    Codec BinaryReader.unread nanBits .magnitude readBigInt (fun n => frame (magnitude n.toNat))
      fun n => 0 ≤ n ∧ MagnitudeFits n.toNat :=
  .magnitude readBigInt_token

theorem boolCodec :
    Codec BinaryReader.unread nanBits .flag readBool (fun b => [if b then 1 else 0]) fun _ => True :=
  .flag readBool_token

theorem float64Codec :
    Codec BinaryReader.unread nanBits .double readFloat64 (writeDouble nanBits) (DoubleFits nanBits) :=
  .double readFloat64_token

theorem stringArrayCodec :
    Codec BinaryReader.unread nanBits (.many .text) readStringArray (writeMany fun s => frame (writeText s))
      fun ss => ss.length < 2 ^ 32 ∧ ∀ s ∈ ss, TextFits s := by
  have h : Codec BinaryReader.unread nanBits _ _ _ _ := .many (fun _ => pure ()) readUint32_token stringCodec
  have hr : readMany readUint32 (fun _ => pure ()) readString = readStringArray := by
    simp only [readMany, readStringArray, liftM_pure, pure_bind]
  rw [hr] at h
  exact h.congr fun ss => and_congr_left fun _ => and_iff_left rfl

end ZkPayroll.Serialization
