import Mathlib.Algebra.GroupWithZero.Nat
import Mathlib.Data.List.Nodup
import ZkPayroll.Framework.Lists
import ZkPayroll.Framework.Text

/-!
# Hexadecimal, base64, base64url and UTF-8

The text encodings of bytes that Node's `Buffer` offers: `hex`, `base64`,
`base64url` and `utf8`. Decoding is as lenient as `Buffer.from`: `hexDecode`
stops at the first pair that is not hexadecimal, `base64Decode` and
`base64urlDecode` skip characters outside the alphabet, and `utf8Decode`
replaces what is not UTF-8. Decoding an encoding gives the bytes back
(`hexDecode_hexEncode`, `base64Decode_base64Encode`,
`base64urlDecode_base64urlEncode`, `utf8Decode_utf8Encode`).
-/

namespace ZkPayroll.Framework

/-! ## Hexadecimal -/

def hexDigits : List Char := "0123456789abcdef".toList

def hexDigit (n : Nat) : Char := hexDigits.getD n '0'

/-- The value of a hexadecimal digit, of either case. -/
def hexValue (c : Char) : Option Nat :=
  if 48 ≤ c.toNat ∧ c.toNat ≤ 57 then some (c.toNat - 48)
  else if 97 ≤ c.toNat ∧ c.toNat ≤ 102 then some (c.toNat - 87)
  else if 65 ≤ c.toNat ∧ c.toNat ≤ 70 then some (c.toNat - 55)
  else none

variable (bytes : List UInt8)

/-- `bytes.toString("hex")`. -/
def hexEncode : List Char :=
  bytes.flatMap fun b => [hexDigit (b.toNat / 16), hexDigit (b.toNat % 16)]

/-- `Buffer.from(cs, "hex")`. -/
def hexDecode : List Char → List UInt8
  | h :: l :: cs =>
    match hexValue h, hexValue l with
    | some a, some b => UInt8.ofNat (16 * a + b) :: hexDecode cs
    | _, _ => []
  | _ => []

theorem hexValue_hexDigit : ∀ n < 16, hexValue (hexDigit n) = some n := by decide

theorem hexDigit_mem : ∀ n < 16, hexDigit n ∈ hexDigits := by decide

variable (bytes : List UInt8)

@[simp] theorem hexDecode_hexEncode : hexDecode (hexEncode bytes) = bytes := by
  induction bytes with
  | nil => rfl
  | cons b bytes ih =>
    have hb : b.toNat < 256 := b.toNat_lt
    have hv : 16 * (b.toNat / 16) + b.toNat % 16 = b.toNat := Nat.div_add_mod _ _
    simp only [hexEncode, List.flatMap_cons, List.cons_append, List.nil_append, hexDecode,
      hexValue_hexDigit _ (show b.toNat / 16 < 16 by omega),
      hexValue_hexDigit _ (Nat.mod_lt b.toNat (by decide : 16 > 0)), hv, UInt8.ofNat_toNat]
    exact congrArg (b :: ·) ih

theorem hexEncode_injective : Function.Injective hexEncode := fun a b h => by
  rw [← hexDecode_hexEncode a, h, hexDecode_hexEncode]

theorem mem_hexEncode {bytes : List UInt8} {c : Char} (h : c ∈ hexEncode bytes) : c ∈ hexDigits := by
  obtain ⟨b, -, hc⟩ := List.mem_flatMap.mp h
  have hb : b.toNat < 256 := b.toNat_lt
  rcases List.mem_pair.mp hc with rfl | rfl
  · exact hexDigit_mem _ (by omega)
  · exact hexDigit_mem _ (Nat.mod_lt _ (by decide))

/-- Digits that are written are in lower case, and not white space. -/
theorem hexDigits_lower : ∀ c ∈ hexDigits, isSpace c = false ∧ (hexValue c).isSome = true ∧ lowerAscii c = c := by
  have hall : hexDigits.all (fun c => !isSpace c && (hexValue c).isSome && lowerAscii c == c) = true := by
    decide +kernel
  intro c hc
  simpa [and_assoc] using List.all_eq_true.mp hall c hc

theorem length_hexEncode : (hexEncode bytes).length = 2 * bytes.length := by
  induction bytes with
  | nil => rfl
  | cons b bytes ih =>
    simp only [hexEncode, List.flatMap_cons, List.length_append, List.length_cons,
      List.length_nil] at ih ⊢
    omega

/-! ## Base64url -/

def base64urlDigits : List Char :=
  "ABCDEFGHIJKLMNOPQRSTUVWXYZabcdefghijklmnopqrstuvwxyz0123456789-_".toList

def base64urlDigit (n : Nat) : Char := base64urlDigits.getD n 'A'

/-- The value of a base64 digit, in the URL-safe or the standard alphabet. -/
def base64Value (c : Char) : Option Nat :=
  if 65 ≤ c.toNat ∧ c.toNat ≤ 90 then some (c.toNat - 65)
  else if 97 ≤ c.toNat ∧ c.toNat ≤ 122 then some (c.toNat - 71)
  else if 48 ≤ c.toNat ∧ c.toNat ≤ 57 then some (c.toNat + 4)
  else if c = '-' ∨ c = '+' then some 62
  else if c = '_' ∨ c = '/' then some 63
  else none

/-- The 6-bit groups of a byte string, the last one padded with zero bits. -/
def toSextets : List UInt8 → List Nat
  | a :: b :: c :: bytes =>
    a.toNat / 4 :: (a.toNat % 4 * 16 + b.toNat / 16) :: (b.toNat % 16 * 4 + c.toNat / 64) ::
      c.toNat % 64 :: toSextets bytes
  | [a, b] => [a.toNat / 4, a.toNat % 4 * 16 + b.toNat / 16, b.toNat % 16 * 4]
  | [a] => [a.toNat / 4, a.toNat % 4 * 16]
  | [] => []

/-- The whole bytes of a list of 6-bit groups. -/
def ofSextets : List Nat → List UInt8
  | p :: q :: r :: s :: sextets =>
    UInt8.ofNat (p * 4 + q / 16) :: UInt8.ofNat (q % 16 * 16 + r / 4) ::
      UInt8.ofNat (r % 4 * 64 + s) :: ofSextets sextets
  | [p, q, r] => [UInt8.ofNat (p * 4 + q / 16), UInt8.ofNat (q % 16 * 16 + r / 4)]
  | [p, q] => [UInt8.ofNat (p * 4 + q / 16)]
  | _ => []

/-- `bytes.toString("base64url")`. -/
def base64urlEncode : List Char := (toSextets bytes).map base64urlDigit

/-- `Buffer.from(cs, "base64url")`. -/
def base64urlDecode (cs : List Char) : List UInt8 := ofSextets (cs.filterMap base64Value)

theorem base64Value_base64urlDigit : ∀ n < 64, base64Value (base64urlDigit n) = some n := by
  decide +kernel

theorem base64urlDigit_mem : ∀ n < 64, base64urlDigit n ∈ base64urlDigits := by decide +kernel

theorem toSextets_lt : ∀ {bytes : List UInt8}, ∀ n ∈ toSextets bytes, n < 64
  | [], n, h => by simp [toSextets] at h
  | [a], n, h => by
    have ha : a.toNat < 256 := a.toNat_lt
    simp only [toSextets, List.mem_cons, List.not_mem_nil, or_false] at h
    omega
  | [a, b], n, h => by
    have ha : a.toNat < 256 := a.toNat_lt
    have hb : b.toNat < 256 := b.toNat_lt
    simp only [toSextets, List.mem_cons, List.not_mem_nil, or_false] at h
    omega
  | a :: b :: c :: bytes, n, h => by
    have ha : a.toNat < 256 := a.toNat_lt
    have hb : b.toNat < 256 := b.toNat_lt
    have hc : c.toNat < 256 := c.toNat_lt
    simp only [toSextets, List.mem_cons] at h
    rcases h with h | h | h | h | h
    · omega
    · omega
    · omega
    · omega
    · exact toSextets_lt n h

theorem ofSextets_toSextets : ∀ bytes : List UInt8, ofSextets (toSextets bytes) = bytes
  | [] => rfl
  | [a] => by
    have ha : a.toNat < 256 := a.toNat_lt
    simp only [toSextets, ofSextets]
    rw [show a.toNat / 4 * 4 + a.toNat % 4 * 16 / 16 = a.toNat by omega, UInt8.ofNat_toNat]
  | [a, b] => by
    have ha : a.toNat < 256 := a.toNat_lt
    have hb : b.toNat < 256 := b.toNat_lt
    simp only [toSextets, ofSextets]
    rw [show a.toNat / 4 * 4 + (a.toNat % 4 * 16 + b.toNat / 16) / 16 = a.toNat by omega,
      show (a.toNat % 4 * 16 + b.toNat / 16) % 16 * 16 + b.toNat % 16 * 4 / 4 = b.toNat by omega,
      UInt8.ofNat_toNat, UInt8.ofNat_toNat]
  | a :: b :: c :: bytes => by
    have ha : a.toNat < 256 := a.toNat_lt
    have hb : b.toNat < 256 := b.toNat_lt
    have hc : c.toNat < 256 := c.toNat_lt
    simp only [toSextets, ofSextets]
    rw [show a.toNat / 4 * 4 + (a.toNat % 4 * 16 + b.toNat / 16) / 16 = a.toNat by omega,
      show (a.toNat % 4 * 16 + b.toNat / 16) % 16 * 16 + (b.toNat % 16 * 4 + c.toNat / 64) / 4 =
        b.toNat by omega,
      show (b.toNat % 16 * 4 + c.toNat / 64) % 4 * 64 + c.toNat % 64 = c.toNat by omega,
      UInt8.ofNat_toNat, UInt8.ofNat_toNat, UInt8.ofNat_toNat, ofSextets_toSextets bytes]

theorem filterMap_base64Value {digit : Nat → Char} (hdigit : ∀ n < 64, base64Value (digit n) = some n)
    {sextets : List Nat} (h : ∀ n ∈ sextets, n < 64) :
    (sextets.map digit).filterMap base64Value = sextets := by
  induction sextets with
  | nil => rfl
  | cons n sextets ih =>
    rw [List.map_cons, List.filterMap_cons_some (hdigit n (h n List.mem_cons_self)),
      ih fun m hm => h m (List.mem_cons_of_mem _ hm)]

@[simp] theorem base64urlDecode_base64urlEncode :
    base64urlDecode (base64urlEncode bytes) = bytes := by
  rw [base64urlDecode, base64urlEncode, filterMap_base64Value base64Value_base64urlDigit toSextets_lt,
    ofSextets_toSextets]

theorem mem_base64urlEncode {bytes : List UInt8} {c : Char} (h : c ∈ base64urlEncode bytes) :
    c ∈ base64urlDigits := by
  obtain ⟨n, hn, rfl⟩ := List.mem_map.mp h
  exact base64urlDigit_mem n (toSextets_lt n hn)

/-! ## Base64 -/

def base64Digits : List Char :=
  "ABCDEFGHIJKLMNOPQRSTUVWXYZabcdefghijklmnopqrstuvwxyz0123456789+/".toList

def base64Digit (n : Nat) : Char := base64Digits.getD n 'A'

/-- `bytes.toString("base64")`. -/
def base64Encode : List Char :=
  (toSextets bytes).map base64Digit ++ List.replicate ((3 - bytes.length % 3) % 3) '='

/-- `Buffer.from(cs, "base64")`, which accepts both alphabets. -/
def base64Decode (cs : List Char) : List UInt8 := ofSextets (cs.filterMap base64Value)

theorem base64Value_base64Digit : ∀ n < 64, base64Value (base64Digit n) = some n := by decide +kernel

/-- The padding is skipped. -/
theorem filterMap_base64Value_padding (n : Nat) : (List.replicate n '=').filterMap base64Value = [] := by
  have hpad : base64Value '=' = none := by decide
  rw [List.filterMap_replicate_of_none hpad]

@[simp] theorem base64Decode_base64Encode : base64Decode (base64Encode bytes) = bytes := by
  rw [base64Decode, base64Encode, List.filterMap_append, filterMap_base64Value base64Value_base64Digit toSextets_lt,
    filterMap_base64Value_padding, List.append_nil, ofSextets_toSextets]

/-! ## UTF-8 -/

/-- The bytes of a string. -/
def utf8Encode (s : String) : List UInt8 := s.toByteArray.data.toList

/-- How many bytes continue a character that starts with `b`, and the range of
the first of them; `none` if no character starts with `b`. -/
def leadByte (b : UInt8) : Option (Nat × UInt8 × UInt8) :=
  if b ≤ 0x7F then some (0, 0x80, 0xBF)
  else if 0xC2 ≤ b && b ≤ 0xDF then some (1, 0x80, 0xBF)
  else if b == 0xE0 then some (2, 0xA0, 0xBF)
  else if b == 0xED then some (2, 0x80, 0x9F)
  else if 0xE1 ≤ b && b ≤ 0xEF then some (2, 0x80, 0xBF)
  else if b == 0xF0 then some (3, 0x90, 0xBF)
  else if b == 0xF4 then some (3, 0x80, 0x8F)
  else if 0xF1 ≤ b && b ≤ 0xF3 then some (3, 0x80, 0xBF)
  else none

/-- Decodes bytes that are not UTF-8, with U+FFFD for each maximal part of a
character that is cut short. `need` bytes are missing of the character whose
bits so far are `acc`, the next of them between `lo` and `hi`. -/
def utf8DecodeLossy (need acc : Nat) (lo hi : UInt8) : List UInt8 → List Char
  | [] => if need = 0 then [] else ['\uFFFD']
  | b :: bytes =>
    if need ≠ 0 ∧ lo ≤ b ∧ b ≤ hi then
      let acc := acc * 64 + b.toNat % 64
      if need = 1 then Char.ofNat acc :: utf8DecodeLossy 0 0 0x80 0xBF bytes
      else utf8DecodeLossy (need - 1) acc 0x80 0xBF bytes
    else
      let cut := if need = 0 then [] else ['\uFFFD']
      match leadByte b with
      | none => cut ++ '\uFFFD' :: utf8DecodeLossy 0 0 0x80 0xBF bytes
      | some (0, _, _) => cut ++ Char.ofNat b.toNat :: utf8DecodeLossy 0 0 0x80 0xBF bytes
      | some (n, lo, hi) => cut ++ utf8DecodeLossy n (b.toNat % 2 ^ (6 - n)) lo hi bytes

/-- `bytes.toString("utf8")`. -/
def utf8Decode : String :=
  match String.fromUTF8? ⟨bytes.toArray⟩ with
  | some s => s
  | none => String.ofList (utf8DecodeLossy 0 0 0x80 0xBF bytes)

@[simp] theorem utf8Decode_utf8Encode (s : String) : utf8Decode (utf8Encode s) = s := by
  have h : (⟨(utf8Encode s).toArray⟩ : ByteArray) = s.toByteArray := by simp [utf8Encode]
  rw [utf8Decode, h, String.fromUTF8?, dif_pos s.isValidUTF8]
  rfl

theorem utf8Encode_injective : Function.Injective utf8Encode := fun s t h => by
  rw [← utf8Decode_utf8Encode s, h, utf8Decode_utf8Encode]

/-! ## Digests -/

/-- A 32-byte digest, from its hexadecimal form. -/
def digest (hex : String) : List UInt8 := hexDecode hex.toList

/-- A hash function that is given at the strings of `known`. No other string
has one of their digests, or that of another: it is hashed to itself, after 33
zeros. -/
def hashFrom (known : List (String × List UInt8)) (s : String) : List UInt8 :=
  match known.lookup s with
  | some d => d
  | none => List.replicate 33 0 ++ utf8Encode s

theorem hashFrom_injective {known : List (String × List UInt8)} (hlen : ∀ p ∈ known, p.2.length = 32)
    (hn : (known.map Prod.snd).Nodup) : Function.Injective (hashFrom known) := by
  have hlong : ∀ (s : String) (p : String × List UInt8), p ∈ known →
      p.2 ≠ List.replicate 33 0 ++ utf8Encode s := by
    intro s p hp h
    have := congrArg List.length h
    rw [hlen p hp, List.length_append, List.length_replicate] at this
    omega
  intro s t h
  simp only [hashFrom] at h
  cases hs : known.lookup s with
  | none =>
    cases ht : known.lookup t with
    | none =>
      rw [hs, ht] at h
      exact utf8Encode_injective (List.append_cancel_left h)
    | some d =>
      rw [hs, ht] at h
      exact absurd h.symm (hlong s _ (lookup_mem ht))
  | some d =>
    cases ht : known.lookup t with
    | none =>
      rw [hs, ht] at h
      exact absurd h (hlong t _ (lookup_mem hs))
    | some d' =>
      rw [hs, ht] at h
      have hd : d = d' := h
      exact congrArg Prod.fst (List.inj_on_of_nodup_map hn (lookup_mem hs) (lookup_mem ht) hd)

theorem hashFrom_ne_nil {known : List (String × List UInt8)} (hlen : ∀ p ∈ known, p.2.length = 32)
    (s : String) : hashFrom known s ≠ [] := by
  unfold hashFrom
  split
  · rename_i d hd
    intro h
    have hl : d.length = 32 := hlen _ (lookup_mem hd)
    rw [h] at hl
    cases hl
  · simp

end ZkPayroll.Framework
