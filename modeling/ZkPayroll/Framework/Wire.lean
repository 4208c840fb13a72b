import Mathlib.Algebra.GroupWithZero.Nat
import Mathlib.Data.List.Basic
import Mathlib.Data.List.Induction
import ZkPayroll.Framework.Utf8

/-!
# Wire formats

Numbers of a fixed width in little-endian order (`toLE`, `ofLE`) and numbers
of any size as the bytes of their magnitude in big-endian order (`magnitude`,
`ofBE`). The bytes of a fixed width stand for one number each
(`toLE_ofLE`, `ofLE_toLE`). A magnitude has no zero byte at the front, and
bytes are those of a magnitude just if they have none
(`magnitude_ofBE_iff`). A `frame` is a byte string after its length in four
bytes.

What bytes of a binary format consist of (`Format`), before any of them is
given a meaning: texts and magnitudes after their lengths, flags, doubles,
optional parts after a flag and lists after a count. `Format.cut` cuts the raw
fields off at the front, and `RawField.Canonical` says that the bytes of a
field are the ones that its value is written with.

A reader and a writer of one format are a `Codec` if the reader cuts what
`Format.cut` does, the bytes are written back as they were read just if all
their fields are canonical, and what fits the format is read back. The rules
put codecs together as formats are: `Codec.pair`, `Codec.optional`,
`Codec.many` and `Codec.map`.
-/

namespace ZkPayroll.Framework

/-! ## Little-endian numbers -/

/-- The last `k` bytes of a number, the last one first. -/
def toLE : Nat → Nat → List UInt8
  | 0, _ => []
  | k + 1, n => UInt8.ofNat (n % 256) :: toLE k (n / 256)

/-- The number that bytes are, the lowest first. -/
def ofLE : List UInt8 → Nat
  | [] => 0
  | b :: bs => b.toNat + 256 * ofLE bs

@[simp] theorem length_toLE (k n : Nat) : (toLE k n).length = k := by
  induction k generalizing n with
  | zero => rfl
  | succ k ih => rw [toLE, List.length_cons, ih]

theorem ofLE_toLE (k n : Nat) : ofLE (toLE k n) = n % 256 ^ k := by
  induction k generalizing n with
  | zero => rw [toLE, ofLE, Nat.pow_zero, Nat.mod_one]
  | succ k ih =>
    have hb : (UInt8.ofNat (n % 256)).toNat = n % 256 := UInt8.toNat_ofNat_of_lt' (Nat.mod_lt n (by decide))
    rw [toLE, ofLE, hb, ih, Nat.pow_succ', Nat.mod_mul]

variable (bs : List UInt8)

theorem ofLE_lt : ofLE bs < 256 ^ bs.length := by
  induction bs with
  | nil => exact Nat.one_pos
  | cons b bs ih =>
    have hb : b.toNat < 256 := b.toNat_lt
    rw [ofLE, List.length_cons, Nat.pow_succ']
    omega

theorem toLE_ofLE : toLE bs.length (ofLE bs) = bs := by
  induction bs with
  | nil => rfl
  | cons b bs ih =>
    have hb : b.toNat < 256 := b.toNat_lt
    rw [List.length_cons, ofLE, toLE, show (b.toNat + 256 * ofLE bs) % 256 = b.toNat by omega,
      show (b.toNat + 256 * ofLE bs) / 256 = ofLE bs by omega, ih, UInt8.ofNat_toNat]

/-! ## Magnitudes -/

/-- `value = (value << 8n) | byte`, over all bytes. -/
def ofBE (bs : List UInt8) : Nat := bs.foldl (fun value b => value * 256 + b.toNat) 0

/-- Puts the last byte of the number in front, until nothing of it is left. -/
def magnitudeLoop : Nat → Nat → List UInt8 → List UInt8
  | 0, _, bytes => bytes
  | fuel + 1, remaining, bytes =>
    if remaining = 0 then bytes
    else magnitudeLoop fuel (remaining / 256) (UInt8.ofNat (remaining % 256) :: bytes)

variable (n : Nat)

/-- The big-endian bytes of a number, none for zero. -/
def magnitude : List UInt8 := magnitudeLoop n n []

@[simp] theorem ofBE_nil : ofBE [] = 0 := rfl

theorem ofBE_concat (b : UInt8) : ofBE (bs ++ [b]) = ofBE bs * 256 + b.toNat := by
  rw [ofBE, List.foldl_append]
  rfl

@[simp] theorem magnitude_zero : magnitude 0 = [] := rfl

/-- A number is spent after at most as many steps as it is large. -/
theorem magnitudeLoop_eq : ∀ fuel bytes, n ≤ fuel → magnitudeLoop fuel n bytes = magnitude n ++ bytes := by
  induction n using Nat.strongRecOn with
  | ind n ih =>
    intro fuel bytes hf
    cases n with
    | zero => cases fuel <;> rfl
    | succ m =>
      cases fuel with
      | zero => omega
      | succ fuel =>
        have hstep : ∀ f bs, m ≤ f → magnitudeLoop (f + 1) (m + 1) bs =
            magnitude ((m + 1) / 256) ++ UInt8.ofNat ((m + 1) % 256) :: bs := by
          intro f bs h
          rw [magnitudeLoop, if_neg (Nat.succ_ne_zero m)]
          exact ih ((m + 1) / 256) (by omega) f _ (by omega)
        have hm : magnitude (m + 1) = magnitude ((m + 1) / 256) ++ [UInt8.ofNat ((m + 1) % 256)] :=
          hstep m [] (Nat.le_refl m)
        rw [hstep fuel bytes (by omega), hm, List.append_assoc]
        rfl

theorem magnitude_of_pos {n : Nat} (h : n ≠ 0) :
    magnitude n = magnitude (n / 256) ++ [UInt8.ofNat (n % 256)] := by
  obtain ⟨m, rfl⟩ := Nat.exists_eq_succ_of_ne_zero h
  rw [magnitude, magnitudeLoop, if_neg h]
  exact magnitudeLoop_eq ((m + 1) / 256) m _ (by omega)

theorem ofBE_magnitude : ofBE (magnitude n) = n := by
  induction n using Nat.strongRecOn with
  | ind n ih =>
    by_cases h : n = 0
    · rw [h]
      rfl
    · have hb : (UInt8.ofNat (n % 256)).toNat = n % 256 := UInt8.toNat_ofNat_of_lt' (Nat.mod_lt n (by decide))
      rw [magnitude_of_pos h, ofBE_concat, ih (n / 256) (by omega), hb]
      omega

/-- The magnitude of a number that is read with one more byte. -/
theorem magnitude_concat {bs : List UInt8} {b : UInt8} (h : ofBE (bs ++ [b]) ≠ 0) :
    magnitude (ofBE (bs ++ [b])) = magnitude (ofBE bs) ++ [b] := by
  have hb : b.toNat < 256 := b.toNat_lt
  rw [magnitude_of_pos h, ofBE_concat, show (ofBE bs * 256 + b.toNat) / 256 = ofBE bs by omega,
    show (ofBE bs * 256 + b.toNat) % 256 = b.toNat by omega, UInt8.ofNat_toNat]

theorem length_magnitude_ofBE_le : (magnitude (ofBE bs)).length ≤ bs.length := by
  induction bs using List.reverseRecOn with
  | nil => exact Nat.le_refl 0
  | append_singleton bs b ih =>
    by_cases h : ofBE (bs ++ [b]) = 0
    · rw [h]
      exact Nat.zero_le _
    · rw [magnitude_concat h, List.length_append, List.length_append]
      exact Nat.add_le_add_right ih _

theorem head_of_ofBE_eq_zero {bs : List UInt8} (h : ofBE bs = 0) (hne : bs ≠ []) : bs.head? = some 0 := by
  induction bs using List.reverseRecOn with
  | nil => exact absurd rfl hne
  | append_singleton bs b ih =>
    rw [ofBE_concat] at h
    by_cases hbs : bs = []
    · rw [hbs]
      have hb : b = 0 := UInt8.toNat_inj.mp (show b.toNat = 0 by omega)
      rw [hb]
      rfl
    · rw [List.head?_append_of_ne_nil _ hbs]
      exact ih (by omega) hbs

/-- Bytes are the magnitude of the number they stand for just if they do not
start with a zero byte. -/
theorem magnitude_ofBE_iff : magnitude (ofBE bs) = bs ↔ bs.head? ≠ some 0 := by
  induction bs using List.reverseRecOn with
  | nil => exact iff_of_true rfl (by simp)
  | append_singleton bs b ih =>
    by_cases h : ofBE (bs ++ [b]) = 0
    · rw [h, magnitude_zero, head_of_ofBE_eq_zero h (by simp)]
      simp
    · rw [magnitude_concat h, List.append_left_inj, ih]
      by_cases hbs : bs = []
      · rw [hbs] at h ⊢
        refine iff_of_true (by simp) ?_
        intro hb
        obtain rfl : b = 0 := by simpa using hb
        exact h rfl
      · rw [List.head?_append_of_ne_nil _ hbs]

/-! ## Frames -/

/-- A byte string after its length. The length takes four bytes, so it is
written modulo `2 ^ 32`. -/
def frame (bs : List UInt8) : List UInt8 := toLE 4 bs.length ++ bs

theorem frame_injective : Function.Injective frame := by
  intro v w h
  exact (List.append_inj h (by simp)).2

/-! ## Formats -/

/-- A field as the bytes have it. -/
inductive RawField where
  | text (bytes : List UInt8)
  | magnitude (bytes : List UInt8)
  | flag (byte : UInt8)
  | double (bytes : List UInt8)
  deriving DecidableEq, Repr

/-- What the bytes consist of. -/
inductive Format where
  | text
  | magnitude
  | flag
  | double
  /-- A flag, and a part that is there unless the flag is zero. -/
  | optional (part : Format)
  /-- A count, and as many parts. -/
  | many (part : Format)
  | seq (first second : Format)
  deriving DecidableEq, Repr

def cutBytes (bs : List UInt8) : Option (List UInt8 × List UInt8) :=
  if n ≤ bs.length then some (bs.take n, bs.drop n) else none

/-- Bytes behind their length. -/
def cutFrame (bs : List UInt8) : Option (List UInt8 × List UInt8) := do
  let (len, bs) ← cutBytes 4 bs
  cutBytes (ofLE len) bs

/-- Cuts off `n` parts. -/
def cutRepeat (cut : List UInt8 → Option (List RawField × List UInt8)) :
    Nat → List UInt8 → Option (List RawField × List UInt8)
  | 0, bs => some ([], bs)
  | n + 1, bs => do
    let (fs, bs) ← cut bs
    let (gs, bs) ← cutRepeat cut n bs
    some (fs ++ gs, bs)

/-- The raw fields at the front, and the bytes after them. -/
def Format.cut : Format → List UInt8 → Option (List RawField × List UInt8)
  | .text, bs => (cutFrame bs).map fun p => ([.text p.1], p.2)
  | .magnitude, bs => (cutFrame bs).map fun p => ([.magnitude p.1], p.2)
  | .flag, [] => none
  | .flag, b :: bs => some ([.flag b], bs)
  | .double, bs => (cutBytes 8 bs).map fun p => ([.double p.1], p.2)
  | .optional _, [] => none
  | .optional part, b :: bs =>
    if b = 0 then some ([.flag b], bs) else (part.cut bs).map fun p => (.flag b :: p.1, p.2)
  | .many part, bs => do
    let (count, bs) ← cutBytes 4 bs
    cutRepeat part.cut (ofLE count) bs
  | .seq first second, bs => do
    let (fs, bs) ← first.cut bs
    let (gs, bs) ← second.cut bs
    some (fs ++ gs, bs)

variable {t : List UInt8}

theorem cutBytes_append {n : Nat} (h : t.length = n) (r : List UInt8) :
    cutBytes n (t ++ r) = some (t, r) := by
  rw [cutBytes, if_pos (by rw [List.length_append]; omega), List.take_left' h, List.drop_left' h]

theorem ofLE_toLE_four {n : Nat} (h : n < 2 ^ 32) : ofLE (toLE 4 n) = n := by
  rw [ofLE_toLE]
  exact Nat.mod_eq_of_lt h

theorem cutFrame_append (h : t.length < 2 ^ 32) (r : List UInt8) :
    cutFrame (frame t ++ r) = some (t, r) := by
  rw [cutFrame, frame, List.append_assoc, cutBytes_append (length_toLE 4 _)]
  show cutBytes (ofLE (toLE 4 t.length)) (t ++ r) = _
  rw [ofLE_toLE_four h, cutBytes_append rfl]

/-! ## Values of fields -/

/-- Whether the bits are those of a double that is not a number. -/
def isNaNBits (bits : UInt64) : Bool := 0x7FF0000000000000 < bits.toNat % 2 ^ 63

variable (nanBits : UInt64 → UInt64)

/-- The bits that stand for a number, those of a NaN being chosen by
`nanBits`. -/
def doubleBits (x : UInt64) : UInt64 := if isNaNBits x then nanBits x else x

def writeDouble (x : UInt64) : List UInt8 := toLE 8 (doubleBits nanBits x).toNat

def readDouble (bytes : List UInt8) : UInt64 := UInt64.ofNat (ofLE bytes)

def writeText (s : List UInt16) : List UInt8 := encodeUtf8 (scalars s)

def readText (bytes : List UInt8) : List UInt16 := units (decodeText bytes)

/-- The bytes of the field are those that its value is written with. -/
def RawField.Canonical : RawField → Prop
  | .text bytes => (∃ cs, encodeUtf8 cs = bytes) ∧ ¬ bom <+: bytes
  | .magnitude bytes => bytes.head? ≠ some 0
  | .flag byte => byte = 0 ∨ byte = 1
  | .double bytes => isNaNBits (readDouble bytes) = true → nanBits (readDouble bytes) = readDouble bytes

/-- Bytes of a text are those of the text that is read from them. -/
theorem exists_encodeUtf8_iff : (∃ cs, encodeUtf8 cs = t) ↔ encodeUtf8 (decodeUtf8 t) = t := by
  constructor
  · intro h
    obtain ⟨cs, rfl⟩ := h
    rw [decodeUtf8_encodeUtf8]
  · intro h
    exact ⟨_, h⟩

instance (nanBits : UInt64 → UInt64) : (f : RawField) → Decidable (f.Canonical nanBits)
  | .text _ => decidable_of_iff _ (and_congr_left' exists_encodeUtf8_iff.symm)
  | .magnitude bytes => inferInstanceAs (Decidable (bytes.head? ≠ some 0))
  | .flag byte => inferInstanceAs (Decidable (byte = 0 ∨ byte = 1))
  | .double bytes => inferInstanceAs (Decidable
      (isNaNBits (readDouble bytes) = true → nanBits (readDouble bytes) = readDouble bytes))

example : (RawField.text [0xC3, 0xA4]).Canonical id ∧ ¬ (RawField.text [0xC3, 0x28]).Canonical id := by
  decide +kernel

/-- A string whose bytes are read as that string again. -/
structure TextFits (s : List UInt16) : Prop where
  wellFormed : isWellFormed s = true
  no_bom : s.head? ≠ some 0xFEFF
  length_lt : (writeText s).length < 2 ^ 32

/-- The length fits in four bytes. -/
def MagnitudeFits : Prop := (magnitude n).length < 2 ^ 32

/-- A `NaN` has the bits that are written of it. -/
def DoubleFits (x : UInt64) : Prop := isNaNBits x = true → nanBits x = x

theorem head_scalars_iff (s : List UInt16) :
    (scalars s).head? = some '\uFEFF' ↔ s.head? = some 0xFEFF := by
  have hsingle : ∀ u : UInt16, single u = '\uFEFF' ↔ u = 0xFEFF := by
    intro u
    constructor
    · intro h
      unfold single at h
      split at h
      · exact absurd h (by decide)
      · rename_i hs
        have hu := u.toNat_lt
        have hh : ¬ isHigh u = true := fun hh => hs (by simp [hh])
        have hl : ¬ isLow u = true := fun hl => hs (by simp [hl])
        rw [isHigh_iff] at hh
        rw [isLow_iff] at hl
        have hn := congrArg Char.toNat h
        rw [toNat_ofNat_char (by omega)] at hn
        exact UInt16.toNat_inj.mp hn
    · rintro rfl
      decide
  match s with
  | [] => simp [scalars]
  | [u] => simp [scalars, hsingle]
  | u :: v :: us =>
    rw [scalars]
    split
    · rename_i h
      obtain ⟨hu, hv⟩ := Bool.and_eq_true_iff.mp h
      rw [isHigh_iff] at hu
      rw [isLow_iff] at hv
      refine iff_of_false ?_ ?_
      · intro hp
        have hn := congrArg Char.toNat (Option.some.inj hp)
        rw [paired, toNat_ofNat_char (by omega)] at hn
        have hf : ('\uFEFF' : Char).toNat = 0xFEFF := rfl
        omega
      · intro hp
        have hf : (0xFEFF : UInt16).toNat = 0xFEFF := rfl
        have hn := congrArg UInt16.toNat (Option.some.inj hp)
        omega
    · simp [hsingle]

theorem writeText_readText (t : List UInt8) : writeText (readText t) = encodeUtf8 (decodeText t) := by
  rw [writeText, readText, scalars_units]

/-- A string is read back just if it is well formed and does not start with
U+FEFF. -/
theorem readText_writeText_iff {s : List UInt16} :
    readText (writeText s) = s ↔ isWellFormed s = true ∧ s.head? ≠ some 0xFEFF := by
  constructor
  · intro h
    have hw : isWellFormed s = true := by
      rw [← h]
      exact isWellFormed_units _
    refine ⟨hw, fun hb => ?_⟩
    rw [← head_scalars_iff] at hb
    have hs : decodeText (encodeUtf8 (scalars s)) = scalars s := by
      have hc := congrArg scalars h
      rwa [readText, scalars_units] at hc
    exact decodeText_encodeUtf8_iff.mp hs hb
  · intro h
    rw [readText, writeText, decodeText_encodeUtf8_iff.mpr fun hb => h.2 ((head_scalars_iff s).mp hb)]
    exact units_scalars_iff.mpr h.1

end ZkPayroll.Framework
