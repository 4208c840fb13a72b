import ZkPayroll.Crypto.SnarkjsProofGenerator
import ZkPayroll.Framework.Sha256
import ZkPayroll.Receipts.ReceiptVerifier
import ZkPayroll.Receipts.VerifiedReceipt

/-!
# Digests with and without Node's crypto

`sha256Sync` and `pureJsSha256` of `receipts/digest.ts`, and the digest that
WebCrypto computes. Numbers of which only the lower 32 bits are used are words.
The roots of which the constants are the first bits are taken to be exact, which
they are to more bits than are used.

With Node's crypto, `computeMetadataDigest` computes what WebCrypto does. Without
it, a text with a code unit that is no byte has the empty text for a digest
(`pureJsSha256_eq_empty`). Of a text of bytes the fallback pads the bytes and
expands the blocks as SHA-256 does, but its rounds change the roles of the two
halves of the state, and two of its constants are taken from the roots of 300 and
301 (`pureJsSha256_eq_digest`).
-/

namespace ZkPayroll.Receipts

section

open Framework Crypto

variable {ν : Type}

namespace PureJs

/-! ## Constants -/

/-- The root of degree `k` of `n`, where its lowest `bits` bits are still to be
found and `r` is the rest of it. -/
def rootBits (k n : Nat) : (bits r : Nat) → Nat
  | 0, r => r
  | bits + 1, r =>
    if (r + 2 ^ bits) ^ k ≤ n then rootBits k n bits (r + 2 ^ bits) else rootBits k n bits r

/-- `(mathPow(candidate, 1 / k) * maxWord) | 0`. -/
def rootWord (k candidate : Nat) : Word := BitVec.ofNat 32 (rootBits k (candidate * 2 ^ (32 * k)) 40 0)

/-- `for (i = 0; i < 300; i += candidate) isComposite[i] = true`. -/
def markMultiples (isComposite : Nat → Bool) (candidate i : Nat) : Bool :=
  isComposite i || (i < 300 && i % candidate == 0)

/-- The loop over the candidates, for at most `fuel` of them. -/
def collectPrimes : (fuel candidate : Nat) → (isComposite : Nat → Bool) → (primes : List Nat) → List Nat
  | 0, _, _, primes => primes
  | fuel + 1, candidate, isComposite, primes =>
    if primes.length < 64 then
      if isComposite candidate then collectPrimes fuel (candidate + 1) isComposite primes
      else collectPrimes fuel (candidate + 1) (markMultiples isComposite candidate) (primes ++ [candidate])
    else primes

/-- The candidates that are taken for primes. -/
def primes : List Nat := collectPrimes 400 2 (fun _ => false) []

def k : List Word := primes.map (rootWord 3)

/-- The first eight elements of `hash`; the others are not used. -/
def hash : Sha256.State :=
  let h i := rootWord 2 (primes.getD i 0)
  ⟨h 0, h 1, h 2, h 3, h 4, h 5, h 6, h 7⟩

/-! ## Words of a text -/

/-- `while ((str.length % 64) - 56) str += "\x00"`, at most `fuel` times. -/
def padZeros : (fuel : Nat) → List Nat → List Nat
  | 0, units => units
  | fuel + 1, units => if units.length % 64 = 56 then units else padZeros fuel (units ++ [0])

/-- `((3 - i) % 4) * 8`, as a shift takes it. -/
def shiftOf (i : Nat) : Nat := (((3 - i : Int).tmod 4 * 8) % 32).toNat

/-- `words[i] |= w`. -/
def orAt (words : List Word) (i : Nat) (w : Word) : List Word :=
  if i < words.length then words.modify i (· ||| w) else words ++ [w]

/-- The words of the code units from `i` on; there are none when a code unit is
no byte. -/
def readUnits : (i : Nat) → (units : List Nat) → (words : List Word) → Option (List Word)
  | _, [], words => some words
  | i, j :: units, words =>
    if j / 256 ≠ 0 then none
    else readUnits (i + 1) units (orAt words (i / 4) (BitVec.ofNat 32 j <<< shiftOf i))

/-! ## Rounds -/

def rightRotate (value : Word) (amount : Nat) : Word := value >>> amount ||| value <<< (32 - amount)

/-- A round on `hash[0]` to `hash[7]`. -/
def round (k s0 : Word) (hash : Sha256.State) : Sha256.State :=
  let s1 := rightRotate hash.a 2 ^^^ rightRotate hash.a 13 ^^^ rightRotate hash.a 22
  let ch := (hash.a &&& hash.b) ^^^ (~~~hash.a &&& hash.c)
  let temp1 := hash.h + s1 + ch + k + s0
  let s2 := rightRotate hash.e 6 ^^^ rightRotate hash.e 11 ^^^ rightRotate hash.e 25
  let maj := (hash.e &&& hash.f) ^^^ (hash.e &&& hash.g) ^^^ (hash.f &&& hash.g)
  let temp2 := s2 + maj
  ⟨temp1 + temp2, hash.a, hash.b, hash.c, hash.d + temp1, hash.e, hash.f, hash.g⟩

/-- `w` after its element `i` is computed. -/
def extend (w : List Word) (i : Nat) : List Word :=
  if i < 16 then w
  else
    let w15 := w.getD (i - 15) 0
    let w2 := w.getD (i - 2) 0
    w ++ [w.getD (i - 16) 0 + (rightRotate w15 7 ^^^ rightRotate w15 18 ^^^ w15 >>> 3) + w.getD (i - 7) 0 +
      (rightRotate w2 17 ^^^ rightRotate w2 19 ^^^ w2 >>> 10)]

/-- The rounds from `i` on. -/
def rounds : (k : List Word) → (i : Nat) → (w : List Word) → Sha256.State → Sha256.State
  | [], _, _, hash => hash
  | kᵢ :: k, i, w, hash => rounds k (i + 1) (extend w i) (round kᵢ ((extend w i).getD i 0) hash)

/-- The loop over the blocks of `words`, for at most `fuel` of them. -/
def hashWords : (fuel : Nat) → (words : List Word) → Sha256.State → Sha256.State
  | 0, _, hash => hash
  | fuel + 1, words, hash =>
    if words = [] then hash
    else hashWords fuel (words.drop 16) ((rounds k 0 (words.take 16) hash).add hash)

end PureJs

open PureJs

def pureJsSha256 (str : String) : String :=
  let asciiBitLength := (codeUnits str).length * 8
  match readUnits 0 (padZeros 64 (codeUnits str ++ [0x80])) [] with
  | none => ""
  | some words =>
    let words := words ++ [BitVec.ofNat 32 (asciiBitLength / 2 ^ 32), BitVec.ofNat 32 asciiBitLength]
    String.ofList (hexEncode ((hashWords words.length words hash).words.flatMap Sha256.wordBytes))

/-- `sha256Sync(message)`, where Node's crypto can be loaded or not. -/
def sha256Sync (nodeCrypto : Bool) (message : String) : String :=
  if nodeCrypto then sha256Digest Sha256.sha256 (utf8Encode message) else pureJsSha256 message

/-- The run time in which Node's crypto can be loaded or not. -/
def Runtime.withNodeCrypto (rt : Runtime ν) (nodeCrypto : Bool) : Runtime ν :=
  { rt with sha256Sync := Receipts.sha256Sync nodeCrypto }

def computeMetadataDigestAsync [NumberFormat ν] (metadata : Value ν) : String :=
  sha256Digest Sha256.sha256 (utf8Encode (canonicalizeMetadata metadata))

end

section

open Framework Crypto Sha256 PureJs

variable {ν : Type}

/-! ## Texts that are no bytes -/

theorem subset_padZeros : ∀ (fuel : Nat) (units : List Nat), units ⊆ padZeros fuel units
  | 0, _ => List.Subset.refl _
  | fuel + 1, units => by
    rw [padZeros]
    split
    · exact List.Subset.refl _
    · exact List.Subset.trans (List.subset_append_left units [0]) (subset_padZeros fuel _)

theorem readUnits_eq_none {units : List Nat} (h : ∃ u ∈ units, 256 ≤ u) : ∀ (i : Nat) (words : List Word),
    readUnits i units words = none := by
  induction units with
  | nil => exact absurd h (by simp)
  | cons j units ih =>
    intro i words
    rw [readUnits]
    split
    · rfl
    · rename_i hj
      obtain ⟨u, hmem, hu⟩ := h
      rcases List.mem_cons.mp hmem with rfl | hmem
      · exact absurd (Nat.div_pos hu (by decide)) (by omega)
      · exact ih ⟨u, hmem, hu⟩ _ _

theorem pureJsSha256_eq_empty {str : String} (h : ∃ u ∈ codeUnits str, 256 ≤ u) : pureJsSha256 str = "" := by
  obtain ⟨u, hmem, hu⟩ := h
  have hunits : u ∈ padZeros 64 (codeUnits str ++ [0x80]) := subset_padZeros 64 _ (List.mem_append_left _ hmem)
  simp only [pureJsSha256, readUnits_eq_none ⟨u, hunits, hu⟩]

/-! ## Words of a text -/

/-- The shift puts the first of four code units highest. -/
theorem shiftOf_eq (i : Nat) : shiftOf i = (3 - i % 4) * 8 := by
  rw [shiftOf]
  by_cases hi : i < 4
  · have htmod : (3 - (i : Int)).tmod 4 = 3 - (i : Int) := by
      rw [Int.tmod_eq_emod_of_nonneg (by omega)]
      omega
    rw [htmod]
    omega
  · have htmod : (3 - (i : Int)).tmod 4 = -(((i - 3) % 4 : Nat) : Int) := by
      rw [show (3 - (i : Int)) = -((i - 3 : Nat) : Int) by omega, Int.neg_tmod,
        Int.tmod_eq_emod_of_nonneg (by omega)]
      omega
    rw [htmod]
    omega

/-- Four shifted bytes are their word. -/
theorem or_shifts {a b c d : Nat} (ha : a < 256) (hb : b < 256) (hc : c < 256) (hd : d < 256) :
    BitVec.ofNat 32 a <<< 24 ||| BitVec.ofNat 32 b <<< 16 ||| BitVec.ofNat 32 c <<< 8 ||| BitVec.ofNat 32 d <<< 0 =
      (BitVec.ofNat 8 a ++ BitVec.ofNat 8 b ++ BitVec.ofNat 8 c ++ BitVec.ofNat 8 d : BitVec 32) := by
  have hbits : ∀ {n : Nat}, n < 256 → ∀ j, 8 ≤ j → n.testBit j = false := fun hn j hj =>
    Nat.testBit_lt_two_pow (hn.trans_le (Nat.pow_le_pow_right (by decide : 2 > 0) hj))
  have ha := hbits ha
  have hb := hbits hb
  have hc := hbits hc
  have hd := hbits hd
  apply BitVec.eq_of_getLsbD_eq
  intro i hi
  simp only [BitVec.getLsbD_or, BitVec.getLsbD_shiftLeft, BitVec.getLsbD_append, BitVec.getLsbD_ofNat]
  grind

theorem orAt_length (words : List Word) (w : Word) : orAt words words.length w = words ++ [w] := by
  simp [orAt]

theorem orAt_last (words : List Word) (x w : Word) : orAt (words ++ [x]) words.length w = words ++ [x ||| w] := by
  have hlength : words.length < (words ++ [x]).length := by simp
  rw [orAt, if_pos hlength, List.modify_eq_take_cons_drop hlength]
  simp

/-- Four bytes more give a word more. -/
theorem readUnits_four {a b c d : Nat} (ha : a < 256) (hb : b < 256) (hc : c < 256) (hd : d < 256)
    (units : List Nat) (words : List Word) :
    readUnits (4 * words.length) (a :: b :: c :: d :: units) words =
      readUnits (4 * (words.length + 1)) units
        (words ++ [BitVec.ofNat 8 a ++ BitVec.ofNat 8 b ++ BitVec.ofNat 8 c ++ BitVec.ofNat 8 d]) := by
  have hbyte : ∀ {u : Nat}, u < 256 → ¬u / 256 ≠ 0 := fun hu => not_not.mpr (Nat.div_eq_of_lt hu)
  have hindex : ∀ n < 4, (4 * words.length + n) / 4 = words.length := fun n hn => by omega
  have hshift : ∀ n < 4, shiftOf (4 * words.length + n) = (3 - n) * 8 := fun n hn => by
    rw [shiftOf_eq]
    omega
  have hindex₀ : 4 * words.length / 4 = words.length := hindex 0 (by decide)
  have hshift₀ : shiftOf (4 * words.length) = (3 - 0) * 8 := hshift 0 (by decide)
  simp only [readUnits, if_neg (hbyte ha), if_neg (hbyte hb), if_neg (hbyte hc), if_neg (hbyte hd), Nat.add_assoc,
    Nat.reduceAdd, hindex₀, hshift₀, hindex 1 (by decide), hshift 1 (by decide), hindex 2 (by decide),
    hshift 2 (by decide), hindex 3 (by decide), hshift 3 (by decide), orAt_length, orAt_last]
  rw [← or_shifts ha hb hc hd]
  rfl

/-- The words of bytes are those that SHA-256 takes. -/
theorem readUnits_eq_toWords : ∀ {units : List Nat} (_ : ∀ u ∈ units, u < 256) (_ : 4 ∣ units.length)
    (words : List Word),
    readUnits (4 * words.length) units words = some (words ++ toWords (units.map UInt8.ofNat))
  | [], _, _, words => by simp [readUnits, toWords]
  | [_], _, h, _ | [_, _], _, h, _ | [_, _, _], _, h, _ => absurd h (by simp)
  | a :: b :: c :: d :: units, hbytes, h, words => by
    have htail : 4 ∣ units.length := (Nat.dvd_add_left (Nat.dvd_refl 4)).mp h
    have hrest : ∀ u ∈ units, u < 256 := fun u hu => hbytes u (by simp [hu])
    rw [readUnits_four (hbytes a (by simp)) (hbytes b (by simp)) (hbytes c (by simp)) (hbytes d (by simp))]
    have hlength : words.length + 1 =
        (words ++ [BitVec.ofNat 8 a ++ BitVec.ofNat 8 b ++ BitVec.ofNat 8 c ++ BitVec.ofNat 8 d]).length := by
      rw [List.length_append, List.length_singleton]
    rw [hlength, readUnits_eq_toWords hrest htail, List.append_assoc]
    rfl

/-! ## Padding -/

theorem padZeros_eq : ∀ (fuel : Nat) (units : List Nat), (120 - units.length % 64) % 64 ≤ fuel →
    padZeros fuel units = units ++ List.replicate ((120 - units.length % 64) % 64) 0
  | 0, units, h => by
    rw [padZeros, Nat.le_zero.mp h, List.replicate_zero, List.append_nil]
  | fuel + 1, units, h => by
    rw [padZeros]
    split
    · rename_i hlen
      rw [hlen]
      simp
    · rename_i hlen
      have hnext : (120 - (units ++ [0]).length % 64) % 64 + 1 = (120 - units.length % 64) % 64 := by
        rw [List.length_append, List.length_singleton]
        omega
      rw [padZeros_eq fuel _ (by omega), ← hnext, List.append_assoc, Nat.add_comm, List.replicate_add]
      rfl

/-! ## Rounds -/

theorem rightRotate_eq {amount : Nat} (h : amount < 32) (value : Word) :
    rightRotate value amount = value.rotateRight amount := by
  rw [rightRotate, BitVec.rotateRight_def, Nat.mod_eq_of_lt h]

/-- The word that the loop appends is the next one of the schedule. -/
theorem extend_schedule {block : List Word} (hlen : block.length = 16) (i : Nat) :
    extend (schedule (i - 16) block) i = schedule (i + 1 - 16) block := by
  rw [extend]
  split
  · rename_i hi
    rw [show i - 16 = i + 1 - 16 by omega]
  · rename_i hi
    obtain ⟨n, rfl⟩ := Nat.exists_eq_add_of_le (Nat.le_of_not_lt hi)
    have hfull : (schedule n block).length = 16 + n := by rw [length_schedule, hlen]
    rw [Nat.add_sub_cancel_left, show 16 + n + 1 - 16 = n + 1 by omega, schedule_succ, nextWord, hfull,
      smallSigma0, smallSigma1, ← rightRotate_eq (by decide), ← rightRotate_eq (by decide),
      ← rightRotate_eq (by decide), ← rightRotate_eq (by decide), Nat.add_sub_cancel_left]

/-- The rounds from `i` on, over the words of the schedule from `i` on. -/
theorem rounds_eq {block : List Word} (hlen : block.length = 16) : ∀ (k : List Word) (i : Nat) (state : State),
    i + k.length ≤ 64 →
      rounds k i (schedule (i - 16) block) state =
        (k.zip ((schedule 48 block).drop i)).foldl (fun t kw => PureJs.round kw.1 kw.2 t) state
  | [], _, _, _ => rfl
  | kᵢ :: k, i, state, hk => by
    rw [List.length_cons] at hk
    have hi : i < (schedule 48 block).length := by
      rw [length_schedule, hlen]
      omega
    have hword : (schedule (i + 1 - 16) block).getD i 0 = (schedule 48 block)[i] := by
      have hbound : i < (schedule (i + 1 - 16) block).length := by
        rw [length_schedule, hlen]
        omega
      rw [List.getD_eq_getElem?_getD, List.getElem?_eq_getElem hbound, Option.getD_some]
      exact (schedule_isPrefix block (by omega)).getElem hbound
    rw [rounds, extend_schedule hlen, hword, rounds_eq hlen k (i + 1) _ (by omega), List.drop_eq_getElem_cons hi]
    rfl

/-- The loop over the blocks compresses one after the other. -/
theorem hashWords_eq : ∀ (fuel : Nat) (words : List Word) (state : State),
    16 ∣ words.length → words.length / 16 ≤ fuel →
      hashWords fuel words state = (blocks (words.length / 16) words).foldl (compress PureJs.round k) state
  | 0, words, state, _, hfuel => by rw [Nat.le_zero.mp hfuel, hashWords, blocks, List.foldl_nil]
  | fuel + 1, words, state, hdvd, hfuel => by
    rw [hashWords]
    split
    · rename_i hnil
      rw [hnil, List.length_nil, Nat.zero_div, blocks, List.foldl_nil]
    · rename_i hne
      obtain ⟨n, hn⟩ := hdvd
      have hpos : 0 < words.length := List.length_pos_of_ne_nil hne
      have hdrop : (words.drop 16).length = 16 * (n - 1) := by
        rw [List.length_drop, hn, Nat.mul_sub, Nat.mul_one]
      have htake : (words.take 16).length = 16 := by
        rw [List.length_take]
        omega
      have hblocks : words.length / 16 = (words.drop 16).length / 16 + 1 := by omega
      have hk : k.length = 64 := by decide +kernel
      have hblock : (rounds k 0 (words.take 16) state).add state =
          compress PureJs.round k state (words.take 16) := by
        have hrounds := rounds_eq htake k 0 state (by omega)
        rw [Nat.zero_sub, schedule, List.drop_zero] at hrounds
        rw [hrounds, State.add_comm, compress]
      rw [hblocks, blocks, List.foldl_cons, hblock, hashWords_eq fuel _ _ ⟨n - 1, hdrop⟩ (by omega)]

/-! ## The digest of a text of bytes -/

variable (str : String)

/-- The code units of a text as bytes. -/
def unitBytes : Bytes := (codeUnits str).map UInt8.ofNat

/-- The bytes of a text before the length is appended. -/
theorem padZeros_bytes :
    (padZeros 64 (codeUnits str ++ [0x80])).map UInt8.ofNat =
      unitBytes str ++ 0x80 :: zeros (unitBytes str).length := by
  have hzeros : (120 - (codeUnits str ++ [0x80]).length % 64) % 64 = (119 - (unitBytes str).length % 64) % 64 := by
    rw [List.length_append, List.length_singleton, unitBytes, List.length_map]
    omega
  rw [padZeros_eq 64 _ (Nat.le_of_lt (Nat.mod_lt _ (by decide))), hzeros, List.map_append, List.map_append,
    List.map_replicate, List.append_assoc, zeros]
  rfl

theorem lt_of_mem_padZeros {fuel : Nat} {units : List Nat} (h : ∀ u ∈ units, u < 256)
    (hfuel : (120 - units.length % 64) % 64 ≤ fuel) : ∀ u ∈ padZeros fuel units, u < 256 := by
  intro u hu
  rw [padZeros_eq fuel units hfuel] at hu
  rcases List.mem_append.mp hu with hu | hu
  · exact h u hu
  · rw [List.eq_of_mem_replicate hu]
    decide

/-- The fallback pads and expands bytes as SHA-256 does; its rounds and two of its
constants are its own. -/
theorem pureJsSha256_eq_digest {str : String} (h : ∀ u ∈ codeUnits str, u < 256) :
    pureJsSha256 str =
      String.ofList (hexEncode (Sha256.digest PureJs.round k PureJs.hash (toWords (pad (unitBytes str))))) := by
  have hbody := padZeros_bytes str
  have hdvd := dvd_length_padding (unitBytes str)
  rw [← hbody, List.length_map] at hdvd
  have hend : ∀ u ∈ codeUnits str ++ [0x80], u < 256 := by
    intro u hu
    rcases List.mem_append.mp hu with hu | hu
    · exact h u hu
    · rw [List.mem_singleton.mp hu]
      decide
  have hbytes := lt_of_mem_padZeros hend (Nat.le_of_lt (Nat.mod_lt _ (by decide : 64 > 0)))
  have hread := readUnits_eq_toWords hbytes (by omega) []
  rw [List.length_nil, Nat.mul_zero, List.nil_append, hbody] at hread
  have hlength : (codeUnits str).length * 8 = 8 * (unitBytes str).length := by
    rw [unitBytes, List.length_map, Nat.mul_comm]
  simp only [pureJsSha256, hread, hlength, ← toWords_pad]
  rw [hashWords_eq _ _ _ (dvd_length_words _) (Nat.div_le_self _ _), Sha256.digest]

/-! ## Agreement -/

/-- A text of bytes of which the fallback's variant of SHA-256 has the digest that
SHA-256 has. -/
def Collides : Prop :=
  (∀ u ∈ codeUnits str, u < 256) ∧
    Sha256.digest PureJs.round k PureJs.hash (toWords (pad (unitBytes str))) = sha256 (utf8Encode str)

theorem sha256Digest_ne_empty (bytes : Bytes) : sha256Digest sha256 bytes ≠ "" := by
  intro h
  have hlength := congrArg (·.toList.length) h
  simp [sha256Digest, length_hexEncode, sha256, length_digest] at hlength

theorem pureJsSha256_eq_iff :
    pureJsSha256 str = sha256Digest sha256 (utf8Encode str) ↔ Collides str := by
  by_cases h : ∀ u ∈ codeUnits str, u < 256
  · rw [pureJsSha256_eq_digest h, sha256Digest, String.ofList_inj, hexEncode_injective.eq_iff]
    exact ⟨fun heq => ⟨h, heq⟩, fun hc => hc.2⟩
  · have hempty : pureJsSha256 str = "" := pureJsSha256_eq_empty (by simpa using h)
    rw [hempty]
    exact ⟨fun heq => absurd heq.symm (sha256Digest_ne_empty _), fun hc => absurd hc.1 h⟩

/-- `sha256Sync` computes what WebCrypto does with Node's crypto, and without it at
a collision only. -/
theorem sha256Sync_eq_iff (nodeCrypto : Bool) (str : String) :
    sha256Sync nodeCrypto str = sha256Digest sha256 (utf8Encode str) ↔ nodeCrypto = true ∨ Collides str := by
  rw [← pureJsSha256_eq_iff]
  cases nodeCrypto with
  | true => simp only [sha256Sync, if_true, true_or]
  | false => simp only [sha256Sync, Bool.false_eq_true, if_false, false_or]

variable [NumberFormat ν] (rt : Runtime ν)

/-- With Node's crypto, the digests of any text and of any metadata agree. Without
it they do at a collision only. -/
theorem digests_agree (nodeCrypto : Bool) (str : String) (metadata : Value ν) :
    (sha256Sync nodeCrypto str = sha256Digest sha256 (utf8Encode str) ↔ nodeCrypto = true ∨ Collides str) ∧
      (computeMetadataDigest (rt.withNodeCrypto nodeCrypto) metadata = computeMetadataDigestAsync metadata ↔
        nodeCrypto = true ∨ Collides (canonicalizeMetadata metadata)) :=
  ⟨sha256Sync_eq_iff nodeCrypto str, sha256Sync_eq_iff nodeCrypto (canonicalizeMetadata metadata)⟩

/-- Without Node's crypto the digests of no metadata differ. -/
theorem digests_of_empty_differ :
    computeMetadataDigest (exampleRuntime.withNodeCrypto false) .undefined ≠
      computeMetadataDigestAsync (.undefined : Value Int) := by
  decide +kernel

end

end ZkPayroll.Receipts
