import ZkPayroll.Framework.Encoding
import ZkPayroll.Framework.Text

/-!
# UTF-8 and UTF-16

Texts as bytes and as the code units of JavaScript strings. `encodeUtf8` gives
the bytes of a text and `decodeUtf8` reads bytes, with U+FFFD for what is no
character. Reading goes through the characters at the front one by one
(`decodeUtf8_append`), so a text is read back (`decodeUtf8_encodeUtf8`), and
of a text that is cut short only the last character is lost
(`length_encodeUtf8_decodeUtf8_le`).

The code units of a JavaScript string need not form characters. `scalars`
reads them with U+FFFD for each unit that stands alone, which gives the units
back just for a well-formed string (`units_scalars_iff`).
-/

namespace ZkPayroll.Framework

/-! ## Bytes of a text -/

/-- The UTF-8 bytes of a text. -/
def encodeUtf8 (cs : List Char) : List UInt8 := cs.flatMap String.utf8EncodeChar

/-- The text that bytes stand for, with U+FFFD for each maximal part of a
character that is cut short. -/
def decodeUtf8 (bytes : List UInt8) : List Char := utf8DecodeLossy 0 0 0x80 0xBF bytes

@[simp] theorem encodeUtf8_nil : encodeUtf8 [] = [] := rfl

variable (c : Char)

@[simp] theorem encodeUtf8_cons (cs : List Char) :
    encodeUtf8 (c :: cs) = String.utf8EncodeChar c ++ encodeUtf8 cs := rfl

theorem length_encodeChar_bounds :
    1 ≤ (String.utf8EncodeChar c).length ∧ (String.utf8EncodeChar c).length ≤ 4 := by
  rw [String.length_utf8EncodeChar]
  exact ⟨c.utf8Size_pos, c.utf8Size_le_four⟩

variable (cs : List Char)

theorem length_encodeUtf8_le : (encodeUtf8 cs).length ≤ 4 * cs.length := by
  induction cs with
  | nil => simp
  | cons c cs ih =>
    have hc := (length_encodeChar_bounds c).2
    rw [encodeUtf8_cons, List.length_append, List.length_cons]
    omega

/-! ## Reading one character -/

theorem toNat_byte {n : Nat} (h : n < 256) : (UInt8.ofNat n).toNat = n := UInt8.toNat_ofNat_of_lt' h

/-- What the lead byte of a character says, by its number. -/
theorem leadByte_ofNat : ∀ n < 256, leadByte (UInt8.ofNat n) =
    if n < 0x80 then some (0, 0x80, 0xBF)
    else if n < 0xC2 then none
    else if n < 0xE0 then some (1, 0x80, 0xBF)
    else if n < 0xF0 then some (2, if n = 0xE0 then 0xA0 else 0x80, if n = 0xED then 0x9F else 0xBF)
    else if n < 0xF5 then some (3, if n = 0xF0 then 0x90 else 0x80, if n = 0xF4 then 0x8F else 0xBF)
    else none := by
  decide +kernel

theorem decode_lead {b lo hi : UInt8} {n : Nat} (h : leadByte b = some (n + 1, lo, hi))
    (bytes : List UInt8) :
    decodeUtf8 (b :: bytes) = utf8DecodeLossy (n + 1) (b.toNat % 2 ^ (5 - n)) lo hi bytes := by
  simp [decodeUtf8, utf8DecodeLossy, h]

theorem decode_next {lo hi : UInt8} {n acc m : Nat} (hlo : lo.toNat ≤ m) (hhi : m ≤ hi.toNat)
    (bytes : List UInt8) :
    utf8DecodeLossy (n + 2) acc lo hi (UInt8.ofNat m :: bytes) =
      utf8DecodeLossy (n + 1) (acc * 64 + m % 64) 0x80 0xBF bytes := by
  have hm : (UInt8.ofNat m).toNat = m := toNat_byte (hhi.trans_lt hi.toNat_lt)
  simp [utf8DecodeLossy, UInt8.le_iff_toNat_le, hm, hlo, hhi]

theorem decode_last {lo hi : UInt8} {acc m : Nat} (hlo : lo.toNat ≤ m) (hhi : m ≤ hi.toNat)
    (bytes : List UInt8) :
    utf8DecodeLossy 1 acc lo hi (UInt8.ofNat m :: bytes) =
      Char.ofNat (acc * 64 + m % 64) :: decodeUtf8 bytes := by
  have hm : (UInt8.ofNat m).toNat = m := toNat_byte (hhi.trans_lt hi.toNat_lt)
  simp [utf8DecodeLossy, decodeUtf8, UInt8.le_iff_toNat_le, hm, hlo, hhi]

section Lengths

variable {n : Nat} (bytes : List UInt8)

theorem decode_one (h : n < 0x80) :
    decodeUtf8 (UInt8.ofNat n :: bytes) = Char.ofNat n :: decodeUtf8 bytes := by
  have hl : leadByte (UInt8.ofNat n) = some (0, 0x80, 0xBF) := by
    rw [leadByte_ofNat _ (by omega), if_pos h]
  have hn : (UInt8.ofNat n).toNat = n := toNat_byte (by omega)
  simp [decodeUtf8, utf8DecodeLossy, hl, hn]

theorem decode_two (h : 0x80 ≤ n) (h' : n < 0x800) :
    decodeUtf8 (UInt8.ofNat (n / 64 % 32 + 0xC0) :: UInt8.ofNat (n % 64 + 0x80) :: bytes) =
      Char.ofNat n :: decodeUtf8 bytes := by
  have hl : leadByte (UInt8.ofNat (n / 64 % 32 + 0xC0)) = some (0 + 1, 0x80, 0xBF) := by
    rw [leadByte_ofNat _ (by omega), if_neg (by omega), if_neg (by omega), if_pos (by omega)]
  rw [decode_lead hl, toNat_byte (by omega), decode_last (by simp) (by simp; omega)]
  rw [show (n / 64 % 32 + 0xC0) % 2 ^ (5 - 0) * 64 + (n % 64 + 0x80) % 64 = n by omega]

/-- After `0xE0` comes no character of two bytes, after `0xED` no surrogate. -/
theorem decode_three (h : 0x800 ≤ n) (h' : n < 0x10000) (hs : n < 0xD800 ∨ 0xDFFF < n) :
    decodeUtf8 (UInt8.ofNat (n / 4096 % 16 + 0xE0) :: UInt8.ofNat (n / 64 % 64 + 0x80) ::
      UInt8.ofNat (n % 64 + 0x80) :: bytes) = Char.ofNat n :: decodeUtf8 bytes := by
  have hl : leadByte (UInt8.ofNat (n / 4096 % 16 + 0xE0)) =
      some (1 + 1, if n / 4096 % 16 = 0 then 0xA0 else 0x80,
        if n / 4096 % 16 = 13 then 0x9F else 0xBF) := by
    rw [leadByte_ofNat _ (by omega), if_neg (by omega), if_neg (by omega), if_neg (by omega),
      if_pos (by omega)]
    simp
  have hlo : (if n / 4096 % 16 = 0 then (0xA0 : UInt8) else 0x80).toNat ≤ n / 64 % 64 + 0x80 := by
    split
    · show 0xA0 ≤ _
      omega
    · show 0x80 ≤ _
      omega
  have hhi : n / 64 % 64 + 0x80 ≤ (if n / 4096 % 16 = 13 then (0x9F : UInt8) else 0xBF).toNat := by
    split
    · show _ ≤ 0x9F
      omega
    · show _ ≤ 0xBF
      omega
  rw [decode_lead hl, toNat_byte (by omega), decode_next hlo hhi,
    decode_last (by simp) (by simp; omega)]
  rw [show ((n / 4096 % 16 + 0xE0) % 2 ^ (5 - 1) * 64 + (n / 64 % 64 + 0x80) % 64) * 64 +
    (n % 64 + 0x80) % 64 = n by omega]

/-- After `0xF0` comes no character of three bytes, after `0xF4` none past the
last. -/
theorem decode_four (h : 0x10000 ≤ n) (h' : n < 0x110000) :
    decodeUtf8 (UInt8.ofNat (n / 262144 % 8 + 0xF0) :: UInt8.ofNat (n / 4096 % 64 + 0x80) ::
      UInt8.ofNat (n / 64 % 64 + 0x80) :: UInt8.ofNat (n % 64 + 0x80) :: bytes) =
      Char.ofNat n :: decodeUtf8 bytes := by
  have hl : leadByte (UInt8.ofNat (n / 262144 % 8 + 0xF0)) =
      some (2 + 1, if n / 262144 % 8 = 0 then 0x90 else 0x80,
        if n / 262144 % 8 = 4 then 0x8F else 0xBF) := by
    rw [leadByte_ofNat _ (by omega), if_neg (by omega), if_neg (by omega), if_neg (by omega),
      if_neg (by omega), if_pos (by omega)]
    simp
  have hlo : (if n / 262144 % 8 = 0 then (0x90 : UInt8) else 0x80).toNat ≤ n / 4096 % 64 + 0x80 := by
    split
    · show 0x90 ≤ _
      omega
    · show 0x80 ≤ _
      omega
  have hhi : n / 4096 % 64 + 0x80 ≤ (if n / 262144 % 8 = 4 then (0x8F : UInt8) else 0xBF).toNat := by
    split
    · show _ ≤ 0x8F
      omega
    · show _ ≤ 0xBF
      omega
  rw [decode_lead hl, toNat_byte (by omega), decode_next hlo hhi,
    decode_next (by simp) (by simp; omega), decode_last (by simp) (by simp; omega)]
  rw [show (((n / 262144 % 8 + 0xF0) % 2 ^ (5 - 2) * 64 + (n / 4096 % 64 + 0x80) % 64) * 64 +
    (n / 64 % 64 + 0x80) % 64) * 64 + (n % 64 + 0x80) % 64 = n by omega]

end Lengths

/-- The character at the front is read back, whatever follows. -/
theorem decodeUtf8_encodeChar (bytes : List UInt8) :
    decodeUtf8 (String.utf8EncodeChar c ++ bytes) = c :: decodeUtf8 bytes := by
  have hc := char_not_surrogate c
  have hv : c.val.toNat = c.toNat := rfl
  unfold String.utf8EncodeChar
  simp only [hv]
  conv_rhs => rw [← Char.ofNat_toNat c]
  split
  · exact decode_one bytes (by omega)
  split
  · exact decode_two bytes (by omega) (by omega)
  split
  · exact decode_three bytes (by omega) (by omega) (by omega)
  · exact decode_four bytes (by omega) (by omega)

theorem decodeUtf8_append (bytes : List UInt8) :
    decodeUtf8 (encodeUtf8 cs ++ bytes) = cs ++ decodeUtf8 bytes := by
  induction cs with
  | nil => rfl
  | cons c cs ih =>
    rw [encodeUtf8_cons, List.append_assoc, decodeUtf8_encodeChar, ih]
    rfl

@[simp] theorem decodeUtf8_encodeUtf8 : decodeUtf8 (encodeUtf8 cs) = cs := by
  have h := decodeUtf8_append cs []
  rw [List.append_nil] at h
  exact h.trans (List.append_nil cs)

/-! ## Texts that are cut short -/

/-- Each byte gives at most one character; a character that is under way at
the front may give one more. -/
theorem length_utf8DecodeLossy_le (need acc : Nat) (lo hi : UInt8) (bytes : List UInt8) :
    (utf8DecodeLossy need acc lo hi bytes).length ≤ bytes.length + (if need = 0 then 0 else 1) := by
  induction bytes generalizing need acc lo hi with
  | nil =>
    unfold utf8DecodeLossy
    split <;> simp
  | cons b bytes ih =>
    have hcut : (if need = 0 then [] else ['\uFFFD']).length = if need = 0 then 0 else 1 := by
      split <;> rfl
    have h0 := ih 0 0 0x80 0xBF
    rw [if_pos rfl] at h0
    unfold utf8DecodeLossy
    split
    · rename_i h
      rw [if_neg h.1, List.length_cons]
      dsimp only
      split
      · rw [List.length_cons]
        omega
      · have hn := ih (need - 1) (acc * 64 + b.toNat % 64) 0x80 0xBF
        split at hn <;> omega
    · rw [List.length_cons]
      dsimp only
      split
      · rw [List.length_append, hcut, List.length_cons]
        omega
      · rw [List.length_append, hcut, List.length_cons]
        omega
      · rename_i n lo' hi' _ _
        have hn := ih n (b.toNat % 2 ^ (6 - n)) lo' hi'
        rw [List.length_append, hcut]
        split at hn <;> omega

theorem length_decodeUtf8_le (bytes : List UInt8) : (decodeUtf8 bytes).length ≤ bytes.length := by
  have h := length_utf8DecodeLossy_le 0 0 0x80 0xBF bytes
  rwa [if_pos rfl] at h

/-- The beginning of a text reads as the characters that are whole, and at
most four more for the one that is cut short. -/
theorem length_encodeUtf8_decodeUtf8_le {t y : List UInt8} : ∀ {cs : List Char}, t ++ y = encodeUtf8 cs →
    (encodeUtf8 (decodeUtf8 t)).length ≤ t.length + 16
  | [], h => by
    obtain ⟨rfl, -⟩ := List.append_eq_nil_iff.mp h
    exact Nat.zero_le _
  | c :: cs, h => by
    rcases List.append_eq_append_iff.mp h with ⟨a, hc, -⟩ | ⟨a, rfl, ha⟩
    · have hlen := congrArg List.length hc
      have hb := (length_encodeChar_bounds c).2
      have hd := length_decodeUtf8_le t
      have he := length_encodeUtf8_le (decodeUtf8 t)
      rw [List.length_append] at hlen
      omega
    · have ih := length_encodeUtf8_decodeUtf8_le ha.symm
      rw [decodeUtf8_encodeChar, encodeUtf8_cons, List.length_append, List.length_append]
      omega

/-! ## The byte order mark -/

/-- The bytes of U+FEFF. -/
def bom : List UInt8 := [0xEF, 0xBB, 0xBF]

/-- `new TextDecoder().decode(bytes)`: a byte order mark at the front is
dropped. -/
def decodeText (bytes : List UInt8) : List Char :=
  decodeUtf8 (if bom <+: bytes then bytes.drop bom.length else bytes)

theorem encodeChar_bom : String.utf8EncodeChar '\uFEFF' = bom := by decide

theorem encodeUtf8_cons_bom : encodeUtf8 ('\uFEFF' :: cs) = bom ++ encodeUtf8 cs := by
  rw [encodeUtf8_cons, encodeChar_bom]

theorem decodeText_bom (bytes : List UInt8) : decodeText (bom ++ bytes) = decodeUtf8 bytes := by
  rw [decodeText, if_pos (List.prefix_append _ _), List.drop_left]

theorem decodeText_of_no_bom {bytes : List UInt8} (h : ¬ bom <+: bytes) :
    decodeText bytes = decodeUtf8 bytes := by
  rw [decodeText, if_neg h]

/-- A text whose bytes start with a byte order mark starts with U+FEFF. -/
theorem exists_cons_of_bom {cs : List Char} {r : List UInt8} (h : encodeUtf8 cs = bom ++ r) :
    ∃ cs', cs = '\uFEFF' :: cs' ∧ r = encodeUtf8 cs' := by
  have hcs : cs = '\uFEFF' :: decodeUtf8 r := by
    rw [← decodeUtf8_encodeUtf8 cs, h, ← encodeChar_bom, decodeUtf8_encodeChar]
  refine ⟨decodeUtf8 r, hcs, ?_⟩
  rw [hcs, encodeUtf8_cons_bom] at h
  exact (List.append_cancel_left h).symm

theorem bom_prefix_encodeUtf8_iff {cs : List Char} : bom <+: encodeUtf8 cs ↔ cs.head? = some '\uFEFF' := by
  constructor
  · intro h
    obtain ⟨r, hr⟩ := h
    obtain ⟨cs', rfl, -⟩ := exists_cons_of_bom hr.symm
    rfl
  · intro h
    obtain ⟨cs', rfl⟩ := List.head?_eq_some_iff.mp h
    rw [encodeUtf8_cons_bom]
    exact List.prefix_append _ _

/-- A text is read back unless it starts with U+FEFF. -/
theorem decodeText_encodeUtf8_iff {cs : List Char} :
    decodeText (encodeUtf8 cs) = cs ↔ cs.head? ≠ some '\uFEFF' := by
  by_cases h : cs.head? = some '\uFEFF'
  · obtain ⟨cs', rfl⟩ := List.head?_eq_some_iff.mp h
    rw [encodeUtf8_cons_bom, decodeText_bom, decodeUtf8_encodeUtf8]
    simp
  · rw [decodeText_of_no_bom (fun hb => h (bom_prefix_encodeUtf8_iff.mp hb)), decodeUtf8_encodeUtf8]
    simp [h]

/-- Bytes are written back as they were read just if they are the bytes of a
text and do not start with a byte order mark. -/
theorem encodeUtf8_decodeText_iff {t : List UInt8} :
    encodeUtf8 (decodeText t) = t ↔ (∃ cs, encodeUtf8 cs = t) ∧ ¬ bom <+: t := by
  by_cases hb : bom <+: t
  · obtain ⟨r, rfl⟩ := hb
    rw [decodeText_bom]
    refine iff_of_false (fun h => ?_) (fun h => h.2 (List.prefix_append _ _))
    obtain ⟨cs', hcs, hr⟩ := exists_cons_of_bom h
    rw [hr, decodeUtf8_encodeUtf8] at hcs
    exact absurd (congrArg List.length hcs) (by simp)
  · rw [decodeText_of_no_bom hb]
    refine ⟨fun h => ⟨⟨_, h⟩, hb⟩, ?_⟩
    intro h
    obtain ⟨⟨cs, rfl⟩, -⟩ := h
    rw [decodeUtf8_encodeUtf8]

/-- What is read from the beginning of its own bytes is hardly longer. -/
theorem length_encodeUtf8_decodeText_le {t y : List UInt8} (h : encodeUtf8 (decodeText t) = t ++ y) :
    (encodeUtf8 (decodeText t)).length ≤ t.length + 16 := by
  by_cases hb : bom <+: t
  · obtain ⟨r, rfl⟩ := hb
    obtain ⟨cs', -, hr⟩ := exists_cons_of_bom (h.trans (List.append_assoc _ _ _))
    rw [decodeText_bom, List.length_append]
    exact (length_encodeUtf8_decodeUtf8_le hr).trans (by omega)
  · rw [decodeText_of_no_bom hb] at h ⊢
    exact length_encodeUtf8_decodeUtf8_le h.symm

/-! ## Code units -/

/-- A high surrogate. -/
def isHigh (u : UInt16) : Bool := 0xD800 ≤ u && u ≤ 0xDBFF

/-- A low surrogate. -/
def isLow (u : UInt16) : Bool := 0xDC00 ≤ u && u ≤ 0xDFFF

/-- The character of a unit that stands alone. -/
def single (u : UInt16) : Char := if isHigh u || isLow u then '\uFFFD' else Char.ofNat u.toNat

/-- The character of a surrogate pair. -/
def paired (u v : UInt16) : Char :=
  Char.ofNat (0x10000 + (u.toNat - 0xD800) * 0x400 + (v.toNat - 0xDC00))

/-- The characters of a JavaScript string, with U+FFFD for each surrogate that
is not one of a pair. -/
def scalars : List UInt16 → List Char
  | [] => []
  | [u] => [single u]
  | u :: v :: us => if isHigh u && isLow v then paired u v :: scalars us else single u :: scalars (v :: us)

/-- `s.isWellFormed()`: every surrogate is one of a pair. -/
def isWellFormed : List UInt16 → Bool
  | [] => true
  | [u] => !(isHigh u || isLow u)
  | u :: v :: us => if isHigh u && isLow v then isWellFormed us else !(isHigh u || isLow u) && isWellFormed (v :: us)

/-- The code units of a text. -/
def units (cs : List Char) : List UInt16 := (cs.flatMap charUnits).map UInt16.ofNat

@[simp] theorem units_cons (cs : List Char) :
    units (c :: cs) = (charUnits c).map UInt16.ofNat ++ units cs := by
  simp [units]

variable {u : UInt16}

theorem isHigh_iff : isHigh u = true ↔ 0xD800 ≤ u.toNat ∧ u.toNat ≤ 0xDBFF := by
  simp [isHigh, UInt16.le_iff_toNat_le]

theorem isLow_iff : isLow u = true ↔ 0xDC00 ≤ u.toNat ∧ u.toNat ≤ 0xDFFF := by
  simp [isLow, UInt16.le_iff_toNat_le]

theorem scalars_cons_of_not_high (h : isHigh u = false) (us : List UInt16) :
    scalars (u :: us) = single u :: scalars us := by
  cases us with
  | nil => rfl
  | cons v us => simp [scalars, h]

theorem isWellFormed_cons_of_not_high (h : isHigh u = false) (us : List UInt16) :
    isWellFormed (u :: us) = (!isLow u && isWellFormed us) := by
  cases us with
  | nil => simp [isWellFormed, h]
  | cons v us => simp [isWellFormed, h]

theorem toNat_ofNat_char {n : Nat} (h : n < 0xD800 ∨ 0xDFFF < n ∧ n < 0x110000) : (Char.ofNat n).toNat = n := by
  rw [Char.ofNat, dif_pos h]
  rfl

theorem units_single (h : (isHigh u || isLow u) = false) :
    (charUnits (single u)).map UInt16.ofNat = [u] := by
  have hn := u.toNat_lt
  obtain ⟨hh, hl⟩ := Bool.or_eq_false_iff.mp h
  rw [← Bool.not_eq_true, isHigh_iff] at hh
  rw [← Bool.not_eq_true, isLow_iff] at hl
  rw [single, h, if_neg (by decide), charUnits, toNat_ofNat_char (by omega), if_pos (by omega),
    List.map_singleton, UInt16.ofNat_toNat]

theorem units_paired {u v : UInt16} (hu : isHigh u = true) (hv : isLow v = true) :
    (charUnits (paired u v)).map UInt16.ofNat = [u, v] := by
  rw [isHigh_iff] at hu
  rw [isLow_iff] at hv
  rw [paired, charUnits, toNat_ofNat_char (by omega), if_neg (by omega)]
  rw [show 0xD800 + (0x10000 + (u.toNat - 0xD800) * 0x400 + (v.toNat - 0xDC00) - 0x10000) / 0x400 = u.toNat by
      omega,
    show 0xDC00 + (0x10000 + (u.toNat - 0xD800) * 0x400 + (v.toNat - 0xDC00) - 0x10000) % 0x400 = v.toNat by
      omega]
  simp

/-- The units of a character read as that character, and are well formed
together with what follows. -/
theorem charUnits_front (us : List UInt16) :
    scalars ((charUnits c).map UInt16.ofNat ++ us) = c :: scalars us ∧
      isWellFormed ((charUnits c).map UInt16.ofNat ++ us) = isWellFormed us := by
  have hc := char_not_surrogate c
  unfold charUnits
  split
  · rename_i h
    have hn : (UInt16.ofNat c.toNat).toNat = c.toNat := UInt16.toNat_ofNat_of_lt' h
    have hh : isHigh (UInt16.ofNat c.toNat) = false := by
      rw [← Bool.not_eq_true, isHigh_iff]
      omega
    have hl : isLow (UInt16.ofNat c.toNat) = false := by
      rw [← Bool.not_eq_true, isLow_iff]
      omega
    rw [List.map_singleton, List.singleton_append, scalars_cons_of_not_high hh,
      isWellFormed_cons_of_not_high hh, single, hh, hl, hn, Char.ofNat_toNat]
    exact ⟨rfl, rfl⟩
  · rename_i h
    have h1 : (UInt16.ofNat (0xD800 + (c.toNat - 0x10000) / 0x400)).toNat =
        0xD800 + (c.toNat - 0x10000) / 0x400 := UInt16.toNat_ofNat_of_lt' (show _ < 65536 by omega)
    have h2 : (UInt16.ofNat (0xDC00 + (c.toNat - 0x10000) % 0x400)).toNat =
        0xDC00 + (c.toNat - 0x10000) % 0x400 := UInt16.toNat_ofNat_of_lt' (show _ < 65536 by omega)
    have hh : isHigh (UInt16.ofNat (0xD800 + (c.toNat - 0x10000) / 0x400)) = true := by
      rw [isHigh_iff]
      omega
    have hl : isLow (UInt16.ofNat (0xDC00 + (c.toNat - 0x10000) % 0x400)) = true := by
      rw [isLow_iff]
      omega
    have hp : paired (UInt16.ofNat (0xD800 + (c.toNat - 0x10000) / 0x400))
        (UInt16.ofNat (0xDC00 + (c.toNat - 0x10000) % 0x400)) = c := by
      rw [paired, h1, h2]
      rw [show 0x10000 + (0xD800 + (c.toNat - 0x10000) / 0x400 - 0xD800) * 0x400 +
        (0xDC00 + (c.toNat - 0x10000) % 0x400 - 0xDC00) = c.toNat by omega, Char.ofNat_toNat]
    simp only [List.map_cons, List.map_nil, List.cons_append, List.nil_append, scalars, isWellFormed, hh, hl, hp,
      Bool.and_self, if_true, and_self]

@[simp] theorem scalars_units : scalars (units cs) = cs := by
  induction cs with
  | nil => rfl
  | cons c cs ih => rw [units_cons, (charUnits_front c _).1, ih]

@[simp] theorem isWellFormed_units : isWellFormed (units cs) = true := by
  induction cs with
  | nil => rfl
  | cons c cs ih => rw [units_cons, (charUnits_front c _).2, ih]

/-- The units are those of a text just if they are well formed. -/
theorem units_scalars_iff {us : List UInt16} : units (scalars us) = us ↔ isWellFormed us = true := by
  constructor
  · intro h
    rw [← h]
    exact isWellFormed_units _
  · intro h
    fun_induction isWellFormed us with
    | case1 => rfl
    | case2 u =>
      have hu : (isHigh u || isLow u) = false := by simpa using h
      rw [scalars, units_cons, units_single hu]
      rfl
    | case3 u v us hp ih =>
      obtain ⟨hu, hv⟩ := Bool.and_eq_true_iff.mp hp
      rw [scalars, if_pos hp, units_cons, units_paired hu hv, ih h]
      rfl
    | case4 u v us hp ih =>
      obtain ⟨hu, hr⟩ := Bool.and_eq_true_iff.mp h
      rw [scalars, if_neg hp, units_cons, units_single (by simpa using hu), ih hr]
      rfl

end ZkPayroll.Framework
