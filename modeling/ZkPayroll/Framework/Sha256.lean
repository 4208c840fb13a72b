import Mathlib.Algebra.Group.Nat.Defs
import ZkPayroll.Framework.Encoding

/-!
# SHA-256

The hash function on bytes. A round and its constants are parameters of the
compression of a block (`compress`), so that variants of the function can be
stated; `sha256` has the standard ones.
-/

namespace ZkPayroll.Framework

abbrev Word := BitVec 32

namespace Sha256

/-! ## Functions on words -/

variable (x : Word)

def bigSigma0 : Word := x.rotateRight 2 ^^^ x.rotateRight 13 ^^^ x.rotateRight 22

def bigSigma1 : Word := x.rotateRight 6 ^^^ x.rotateRight 11 ^^^ x.rotateRight 25

def smallSigma0 : Word := x.rotateRight 7 ^^^ x.rotateRight 18 ^^^ x >>> 3

def smallSigma1 : Word := x.rotateRight 17 ^^^ x.rotateRight 19 ^^^ x >>> 10

def ch (x y z : Word) : Word := (x &&& y) ^^^ (~~~x &&& z)

def maj (x y z : Word) : Word := (x &&& y) ^^^ (x &&& z) ^^^ (y &&& z)

/-! ## Compression -/

/-- The eight words of a state. -/
structure State where
  a : Word
  b : Word
  c : Word
  d : Word
  e : Word
  f : Word
  g : Word
  h : Word
  deriving DecidableEq

def State.add (s t : State) : State :=
  ⟨s.a + t.a, s.b + t.b, s.c + t.c, s.d + t.d, s.e + t.e, s.f + t.f, s.g + t.g, s.h + t.h⟩

def State.words (s : State) : List Word := [s.a, s.b, s.c, s.d, s.e, s.f, s.g, s.h]

/-- A round with the constant `k` and the word `w` of the schedule. -/
def round (k w : Word) (s : State) : State :=
  let t₁ := s.h + bigSigma1 s.e + ch s.e s.f s.g + k + w
  let t₂ := bigSigma0 s.a + maj s.a s.b s.c
  ⟨t₁ + t₂, s.a, s.b, s.c, s.d + t₁, s.e, s.f, s.g⟩

/-- The word of the schedule after sixteen words or more. -/
def nextWord (w : List Word) : Word :=
  w.getD (w.length - 16) 0 + smallSigma0 (w.getD (w.length - 15) 0) + w.getD (w.length - 7) 0 +
    smallSigma1 (w.getD (w.length - 2) 0)

/-- The words of a block and `n` more. -/
def schedule : (n : Nat) → (w : List Word) → List Word
  | 0, w => w
  | n + 1, w => schedule n (w ++ [nextWord w])

/-- The state after a block, for given rounds and their constants. -/
def compress (round : Word → Word → State → State) (k : List Word) (s : State) (block : List Word) : State :=
  s.add ((k.zip (schedule 48 block)).foldl (fun t kw => round kw.1 kw.2 t) s)

/-! ## Messages -/

variable (n : Nat)

def zeros : List UInt8 := List.replicate ((119 - n % 64) % 64) 0

/-- The bytes of a 64-bit number, the highest first. -/
def bytes64 : List UInt8 := (List.range 8).map fun i => UInt8.ofNat (n / 256 ^ (7 - i))

/-- The message, padded to whole blocks. -/
def pad (message : List UInt8) : List UInt8 :=
  message ++ 0x80 :: zeros message.length ++ bytes64 (8 * message.length)

/-- The words of bytes, the highest byte of a word first. -/
def toWords : List UInt8 → List Word
  | b₀ :: b₁ :: b₂ :: b₃ :: bytes =>
    (b₀.toBitVec ++ b₁.toBitVec ++ b₂.toBitVec ++ b₃.toBitVec : BitVec 32) :: toWords bytes
  | _ => []

/-- The first `n` blocks of words. -/
def blocks : (n : Nat) → List Word → List (List Word)
  | 0, _ => []
  | n + 1, words => words.take 16 :: blocks n (words.drop 16)

def wordBytes (w : Word) : List UInt8 := [24, 16, 8, 0].map fun i => UInt8.ofBitVec (w.extractLsb' i 8)

/-- The digest of words, for given rounds and their constants. -/
def digest (round : Word → Word → State → State) (k : List Word) (s : State) (words : List Word) : List UInt8 :=
  ((blocks (words.length / 16) words).foldl (compress round k) s).words.flatMap wordBytes

/-! ## The function -/

/-- The state before the first block. -/
def initial : State :=
  ⟨0x6a09e667, 0xbb67ae85, 0x3c6ef372, 0xa54ff53a, 0x510e527f, 0x9b05688c, 0x1f83d9ab, 0x5be0cd19⟩

def constants : List Word :=
  [0x428a2f98, 0x71374491, 0xb5c0fbcf, 0xe9b5dba5, 0x3956c25b, 0x59f111f1, 0x923f82a4, 0xab1c5ed5,
    0xd807aa98, 0x12835b01, 0x243185be, 0x550c7dc3, 0x72be5d74, 0x80deb1fe, 0x9bdc06a7, 0xc19bf174,
    0xe49b69c1, 0xefbe4786, 0x0fc19dc6, 0x240ca1cc, 0x2de92c6f, 0x4a7484aa, 0x5cb0a9dc, 0x76f988da,
    0x983e5152, 0xa831c66d, 0xb00327c8, 0xbf597fc7, 0xc6e00bf3, 0xd5a79147, 0x06ca6351, 0x14292967,
    0x27b70a85, 0x2e1b2138, 0x4d2c6dfc, 0x53380d13, 0x650a7354, 0x766a0abb, 0x81c2c92e, 0x92722c85,
    0xa2bfe8a1, 0xa81a664b, 0xc24b8b70, 0xc76c51a3, 0xd192e819, 0xd6990624, 0xf40e3585, 0x106aa070,
    0x19a4c116, 0x1e376c08, 0x2748774c, 0x34b0bcb5, 0x391c0cb3, 0x4ed8aa4a, 0x5b9cca4f, 0x682e6ff3,
    0x748f82ee, 0x78a5636f, 0x84c87814, 0x8cc70208, 0x90befffa, 0xa4506ceb, 0xbef9a3f7, 0xc67178f2]

/-- The function itself. -/
def sha256 (message : List UInt8) : List UInt8 := digest round constants initial (toWords (pad message))

theorem length_digest (round : Word → Word → State → State) (k : List Word) (s : State) (words : List Word) :
    (digest round k s words).length = 32 := rfl

theorem State.add_comm (s t : State) : s.add t = t.add s := by
  simp only [State.add, BitVec.add_comm]

/-! ## The schedule -/

/-- The last word of a schedule is computed from those before. -/
theorem schedule_succ : ∀ (n : Nat) (w : List Word),
    schedule (n + 1) w = schedule n w ++ [nextWord (schedule n w)]
  | 0, w => rfl
  | n + 1, w => by rw [schedule, schedule_succ n, schedule]

theorem length_schedule : ∀ (n : Nat) (w : List Word), (schedule n w).length = w.length + n
  | 0, w => rfl
  | n + 1, w => by
    rw [schedule, length_schedule n, List.length_append, List.length_singleton]
    omega

/-- More words leave those of a schedule as they are. -/
theorem schedule_isPrefix (w : List Word) {m n : Nat} (h : m ≤ n) : schedule m w <+: schedule n w := by
  obtain ⟨k, rfl⟩ := Nat.exists_eq_add_of_le h
  induction k with
  | zero => exact List.prefix_refl _
  | succ k ih =>
    rw [← Nat.add_assoc, schedule_succ]
    exact (ih (Nat.le_add_right m k)).trans (List.prefix_append _ _)

/-! ## Bytes and words -/

theorem length_zeros : (zeros n).length = (119 - n % 64) % 64 := List.length_replicate

theorem toWords_append : ∀ {bytes : List UInt8} (_ : 4 ∣ bytes.length) (rest : List UInt8),
    toWords (bytes ++ rest) = toWords bytes ++ toWords rest
  | [], _, _ => rfl
  | [_], h, _ | [_, _], h, _ | [_, _, _], h, _ => absurd h (by simp)
  | b₀ :: b₁ :: b₂ :: b₃ :: bytes, h, rest => by
    have htail : 4 ∣ bytes.length := (Nat.dvd_add_left (Nat.dvd_refl 4)).mp h
    simp only [List.cons_append, toWords, toWords_append htail rest]

theorem length_toWords : ∀ {bytes : List UInt8} (_ : 4 ∣ bytes.length), 4 * (toWords bytes).length = bytes.length
  | [], _ => rfl
  | [_], h | [_, _], h | [_, _, _], h => absurd h (by simp)
  | b₀ :: b₁ :: b₂ :: b₃ :: bytes, h => by
    have htail : 4 ∣ bytes.length := (Nat.dvd_add_left (Nat.dvd_refl 4)).mp h
    have := length_toWords htail
    simp only [toWords, List.length_cons]
    omega

/-- Four bytes of a number are its word. -/
theorem append_bytes :
    (BitVec.ofNat 8 (n / 256 ^ 3) ++ BitVec.ofNat 8 (n / 256 ^ 2) ++ BitVec.ofNat 8 (n / 256 ^ 1) ++
      BitVec.ofNat 8 (n / 256 ^ 0) : BitVec 32) = BitVec.ofNat 32 n := by
  apply BitVec.eq_of_getLsbD_eq
  intro i hi
  simp only [BitVec.getLsbD_append, BitVec.getLsbD_ofNat, show (256 : Nat) = 2 ^ 8 by rfl, ← Nat.pow_mul,
    Nat.testBit_div_two_pow]
  grind

theorem toWords_bytes64 : toWords (bytes64 n) = [BitVec.ofNat 32 (n / 2 ^ 32), BitVec.ofNat 32 n] := by
  have hhigh : ∀ i, n / 2 ^ 32 / 256 ^ i = n / 256 ^ (4 + i) := fun i => by
    rw [show 2 ^ 32 = 256 ^ 4 by rfl, Nat.div_div_eq_div_mul, Nat.pow_add]
  rw [← append_bytes, ← append_bytes n]
  simp only [hhigh]
  rfl

/-! ## Padding -/

variable (message : List UInt8)

/-- The padding leaves eight bytes of the last block for the length. -/
theorem dvd_length_padding : 64 ∣ (message ++ 0x80 :: zeros message.length).length + 8 := by
  rw [List.length_append, List.length_cons, length_zeros]
  omega

theorem toWords_pad :
    toWords (pad message) =
      toWords (message ++ 0x80 :: zeros message.length) ++
        [BitVec.ofNat 32 (8 * message.length / 2 ^ 32), BitVec.ofNat 32 (8 * message.length)] := by
  have hdvd := dvd_length_padding message
  rw [pad, toWords_append (by omega), toWords_bytes64]

theorem dvd_length_words : 16 ∣ (toWords (pad message)).length := by
  have hdvd := dvd_length_padding message
  have hwords : 4 * (toWords (message ++ 0x80 :: zeros message.length)).length = _ := length_toWords (by omega)
  rw [toWords_pad, List.length_append, List.length_cons, List.length_singleton]
  omega

end Sha256

end ZkPayroll.Framework
