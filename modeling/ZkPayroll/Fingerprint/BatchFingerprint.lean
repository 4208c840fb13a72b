import Mathlib.Data.Nat.Bitwise
import ZkPayroll.Fingerprint.EntriesCommitment
import ZkPayroll.Framework.JsonParse
import ZkPayroll.Framework.Sha256
import ZkPayroll.Framework.Utf8

/-!
# Fingerprints of batches

`computeBatchFingerprint` and `verifyBatchFingerprint` of
`fingerprint/batchFingerprint.ts`: the SHA-256 of the JSON text of a batch's
normal form. Batches have the same fingerprint if they have the same normal form
(`SameBatch`), and otherwise only where two texts, which are known, have the same
SHA-256 (`fingerprints_identify`).

The conversions of the language to upper and to lower case are taken as they are
given.
-/

namespace ZkPayroll.Fingerprint

open Framework

/-- What the code uses of the platform. -/
structure Platform where
  /-- The SHA-256 of the UTF-8 of a text. -/
  sha256 : String → List UInt8
  toUpperCase : String → String
  toLowerCase : String → String

/-! ## Data -/

structure BatchFingerprintInput where
  employer : Option String
  period : Option String
  /-- `none` where it is no array. -/
  entries : Option (List BatchEntryInput)
  asset : Option String := none
  /-- A `bigint`, or an integral `number` below `1e21`: larger ones are printed
  with an exponent. -/
  sequence : Option Int := none
  metadataHash : Option String := none

structure BatchFingerprintOptions where
  domain : Option String := none
  shortPrefix : Option String := none
  /-- An integral `number`. -/
  shortLength : Option Int := none

structure BatchFingerprintResult where
  fingerprint : String
  shortFingerprint : String
  entryCount : Nat
  entriesCommitment : String
  canonicalPayload : String
  domain : String
  computedAt : Int
  deriving DecidableEq

structure BatchFingerprintError where
  message : String
  field : Option String := none
  deriving DecidableEq

def defaultFingerprintDomain : String := "zkpayroll:batch:v1"

/-! ## The fingerprint -/

/-- The fields that are hashed. -/
structure CanonicalFields where
  domain : String
  employer : String
  period : String
  entryCount : Nat
  entriesCommitment : String
  asset : String
  sequence : String
  metadataHash : String
  deriving DecidableEq

/-- The canonical payload of the fields. -/
def CanonicalFields.toJson (f : CanonicalFields) : Json Int :=
  .obj [("domain", .str f.domain), ("employer", .str f.employer), ("period", .str f.period),
    ("entryCount", .num f.entryCount), ("entriesCommitment", .str f.entriesCommitment), ("asset", .str f.asset),
    ("sequence", .str f.sequence), ("metadataHash", .str f.metadataHash)]

/-- `createHash("sha256").update(s, "utf8").digest("hex")`. -/
def Platform.sha256Hex (P : Platform) (s : String) : String := String.ofList (hexEncode (P.sha256 s))

/-- A text that is given and not empty. -/
def nonEmpty : Option String → Option String
  | some s => if s = "" then none else some s
  | none => none

/-- `s.slice(0, n)`, of a text of ASCII characters. -/
def sliceTo (s : String) (n : Int) : String :=
  String.ofList (s.toList.take (if n < 0 then s.toList.length + n else n).toNat)

section

variable (P : Platform)

/-- What is written of a batch. -/
def canonicalFields (input : BatchFingerprintInput) (options : BatchFingerprintOptions)
    (entries : List BatchEntryInput) : CanonicalFields where
  domain := options.domain.getD defaultFingerprintDomain
  employer := P.toUpperCase (trim (input.employer.getD ""))
  period := P.toLowerCase (trim (input.period.getD ""))
  entryCount := entries.length
  entriesCommitment := computeEntriesCommitment P.sha256 P.toUpperCase entries
  asset := ((nonEmpty input.asset).map trim).getD "native"
  sequence := (input.sequence.map fun n => String.ofList (integerText n)).getD "0"
  metadataHash := ((nonEmpty input.metadataHash).map fun s => P.toLowerCase (trim s)).getD ""

/-- The result that a batch has whose fields are these. -/
def fingerprintOf (options : BatchFingerprintOptions) (now : Int) (f : CanonicalFields) : BatchFingerprintResult :=
  let canonicalPayload := stringify f.toJson
  let fingerprint := P.sha256Hex canonicalPayload
  { fingerprint
    shortFingerprint := options.shortPrefix.getD "fp_" ++ sliceTo fingerprint (options.shortLength.getD 12)
    entryCount := f.entryCount
    entriesCommitment := f.entriesCommitment
    canonicalPayload
    domain := f.domain
    computedAt := now }

/-- `none` is a value that is no object. -/
def computeBatchFingerprint (input : Option BatchFingerprintInput) (options : BatchFingerprintOptions) (now : Int) :
    Except BatchFingerprintError BatchFingerprintResult :=
  match input with
  | none => .error { message := "Batch fingerprint input must be an object" }
  | some input =>
    if trim (input.employer.getD "") = "" then
      .error { message := "Employer address is required for batch fingerprint", field := some "employer" }
    else if trim (input.period.getD "") = "" then
      .error { message := "Period identifier is required for batch fingerprint", field := some "period" }
    else
      match input.entries with
      | none => .error { message := "Batch entries must be an array", field := some "entries" }
      | some entries => .ok (fingerprintOf P options now (canonicalFields P input options entries))

/-- The loop over the code units of two texts of the same length. -/
def mismatchOf (a b : List Nat) : Nat := (a.zip b).foldl (fun mismatch pair => mismatch ||| (pair.1 ^^^ pair.2)) 0

def compareFingerprints (a b : String) : Bool :=
  let cleanA := codeUnits (P.toLowerCase (trim a))
  let cleanB := codeUnits (P.toLowerCase (trim b))
  if cleanA.length ≠ cleanB.length then false else mismatchOf cleanA cleanB == 0

def verifyBatchFingerprint (input : Option BatchFingerprintInput) (expectedFingerprint : String)
    (options : BatchFingerprintOptions) (now : Int) : Bool :=
  if expectedFingerprint = "" then false
  else
    match computeBatchFingerprint P input options now with
    | .ok res => compareFingerprints P res.fingerprint (trim expectedFingerprint)
    | .error _ => false

/-- The batches have the same normal form: that of the entries is the text of
their sorted lines. -/
structure SameBatch (x y : BatchFingerprintInput) (options options' : BatchFingerprintOptions)
    (xs ys : List BatchEntryInput) : Prop where
  domain : options.domain.getD defaultFingerprintDomain = options'.domain.getD defaultFingerprintDomain
  employer : P.toUpperCase (trim (x.employer.getD "")) = P.toUpperCase (trim (y.employer.getD ""))
  period : P.toLowerCase (trim (x.period.getD "")) = P.toLowerCase (trim (y.period.getD ""))
  count : xs.length = ys.length
  entries : commitmentPreimage P.toUpperCase xs = commitmentPreimage P.toUpperCase ys
  asset : ((nonEmpty x.asset).map trim).getD "native" = ((nonEmpty y.asset).map trim).getD "native"
  sequence : x.sequence.getD 0 = y.sequence.getD 0
  metadataHash : ((nonEmpty x.metadataHash).map fun s => P.toLowerCase (trim s)).getD "" =
    ((nonEmpty y.metadataHash).map fun s => P.toLowerCase (trim s)).getD ""

/-- Two texts that are told apart have the same SHA-256. -/
def Collide (s t : String) : Prop := s ≠ t ∧ P.sha256 s = P.sha256 t

end

/-! ## Comparison -/

theorem foldl_mismatch_eq_zero {pairs : List (Nat × Nat)} {acc : Nat} :
    pairs.foldl (fun mismatch pair => mismatch ||| (pair.1 ^^^ pair.2)) acc = 0 ↔
      acc = 0 ∧ ∀ pair ∈ pairs, pair.1 = pair.2 := by
  induction pairs generalizing acc with
  | nil => simp
  | cons pair pairs ih => rw [List.foldl_cons, ih, Nat.or_eq_zero_iff, Nat.xor_eq_zero_iff, List.forall_mem_cons, and_assoc]

theorem mismatchOf_eq_zero_iff {a b : List Nat} (h : a.length = b.length) : mismatchOf a b = 0 ↔ a = b := by
  rw [mismatchOf, foldl_mismatch_eq_zero]
  constructor
  · intro hall
    apply List.ext_getElem h
    intro i hi hi'
    exact hall.2 (a[i], b[i]) (List.mem_iff_getElem.mpr ⟨i, by simp [hi, hi'], List.getElem_zip⟩)
  · rintro rfl
    refine ⟨rfl, fun pair hpair => ?_⟩
    rw [List.zip, List.zipWith_self] at hpair
    obtain ⟨n, -, rfl⟩ := List.mem_map.mp hpair
    rfl

variable {P : Platform}

/-- The comparison looks at all code units, and tells any difference. -/
theorem compareFingerprints_iff {a b : String} :
    compareFingerprints P a b = true ↔ P.toLowerCase (trim a) = P.toLowerCase (trim b) := by
  simp only [compareFingerprints]
  split
  · rename_i hlen
    exact iff_of_false Bool.false_ne_true fun h => hlen (by rw [h])
  · rename_i hlen
    rw [beq_iff_eq, mismatchOf_eq_zero_iff (not_not.mp hlen), codeUnits_injective.eq_iff]

/-! ## What a fingerprint tells -/

section

variable {x y : BatchFingerprintInput} {options options' : BatchFingerprintOptions} {xs ys : List BatchEntryInput}

theorem sha256Hex_eq_iff {s t : String} : P.sha256Hex s = P.sha256Hex t ↔ P.sha256 s = P.sha256 t := by
  constructor
  · intro h
    exact hexEncode_injective (String.ofList_injective h)
  · intro h
    rw [Platform.sha256Hex, h, Platform.sha256Hex]

/-- The text of the fields tells them apart. -/
theorem stringify_toJson_injective {f g : CanonicalFields} (h : stringify f.toJson = stringify g.toJson) : f = g := by
  have hdistinct : ∀ f : CanonicalFields, DistinctKeys f.toJson := by
    intro f
    simp [CanonicalFields.toJson, DistinctKeys, DistinctFields]
  have hjson := stringify_injective (hdistinct f) (hdistinct g) h
  cases f
  cases g
  simp only [CanonicalFields.toJson, Json.obj.injEq, List.cons.injEq, Prod.mk.injEq, Json.str.injEq, Json.num.injEq,
    Int.natCast_inj, true_and, and_true] at hjson
  simpa using hjson

theorem sequence_eq_iff {m n : Option Int} :
    (m.map fun k => String.ofList (integerText k)).getD "0" = (n.map fun k => String.ofList (integerText k)).getD "0" ↔
      m.getD 0 = n.getD 0 := by
  have htext : ∀ o : Option Int,
      (o.map fun k => String.ofList (integerText k)).getD "0" = String.ofList (integerText (o.getD 0)) := by
    intro o
    cases o <;> rfl
  rw [htext, htext]
  constructor
  · intro h
    exact Function.LeftInverse.injective readInteger_integerText (String.ofList_injective h)
  · intro h
    rw [h]

/-- A batch that is accepted has an employer, a period and entries. -/
theorem computeBatchFingerprint_eq_ok_iff {input : Option BatchFingerprintInput} {now : Int} {r : BatchFingerprintResult} :
    computeBatchFingerprint P input options now = .ok r ↔
      ∃ x xs, input = some x ∧ trim (x.employer.getD "") ≠ "" ∧ trim (x.period.getD "") ≠ "" ∧ x.entries = some xs ∧
        r = fingerprintOf P options now (canonicalFields P x options xs) := by
  unfold computeBatchFingerprint
  constructor
  · intro h
    split at h
    · cases h
    rename_i x
    split at h
    · cases h
    rename_i hemployer
    split at h
    · cases h
    rename_i hperiod
    split at h
    · cases h
    rename_i xs hentries
    cases h
    exact ⟨x, xs, rfl, hemployer, hperiod, hentries, rfl⟩
  · rintro ⟨x, xs, rfl, hemployer, hperiod, hentries, rfl⟩
    simp [hemployer, hperiod, hentries]

theorem SameBatch.canonicalFields_eq (h : SameBatch P x y options options' xs ys) :
    canonicalFields P x options xs = canonicalFields P y options' ys := by
  simp only [canonicalFields, CanonicalFields.mk.injEq, sequence_eq_iff]
  refine ⟨h.domain, h.employer, h.period, h.count, ?_, h.asset, h.sequence, h.metadataHash⟩
  rw [computeEntriesCommitment, h.entries, computeEntriesCommitment]

theorem sameBatch_of_canonicalFields_eq (h : canonicalFields P x options xs = canonicalFields P y options' ys) :
    SameBatch P x y options options' xs ys ∨
      Collide P (commitmentPreimage P.toUpperCase xs) (commitmentPreimage P.toUpperCase ys) := by
  by_cases hpre : commitmentPreimage P.toUpperCase xs = commitmentPreimage P.toUpperCase ys
  · simp only [canonicalFields, CanonicalFields.mk.injEq, sequence_eq_iff] at h
    obtain ⟨hdomain, hemployer, hperiod, hcount, -, hasset, hsequence, hmetadata⟩ := h
    exact .inl ⟨hdomain, hemployer, hperiod, hcount, hpre, hasset, hsequence, hmetadata⟩
  · exact .inr ⟨hpre, sha256Hex_eq_iff.mp (congrArg CanonicalFields.entriesCommitment h)⟩

/-- Plain entries, and how many times each is there, are told by the text of
their lines. -/
theorem preimage_eq_iff_of_plain (hx : ∀ e ∈ xs, Plain P.toUpperCase e) (hy : ∀ e ∈ ys, Plain P.toUpperCase e) :
    commitmentPreimage P.toUpperCase xs = commitmentPreimage P.toUpperCase ys ↔
      (xs.map (entryPair P.toUpperCase)).Perm (ys.map (entryPair P.toUpperCase)) := by
  constructor
  · exact perm_of_preimage_eq hy hx
  · intro h
    have hlines := h.map pairLine
    rw [List.map_map, List.map_map] at hlines
    exact commitmentPreimage_perm hlines

/-- The batches are the same, or the texts of their entries collide, or their own
texts do. -/
def SameOrCollide (P : Platform) (x y : BatchFingerprintInput) (options options' : BatchFingerprintOptions)
    (xs ys : List BatchEntryInput) (r s : BatchFingerprintResult) : Prop :=
  SameBatch P x y options options' xs ys ∨
    Collide P (commitmentPreimage P.toUpperCase xs) (commitmentPreimage P.toUpperCase ys) ∨
    Collide P r.canonicalPayload s.canonicalPayload

/-- What two batches that are accepted have to do with their fingerprints. -/
structure Identified (P : Platform) (x y : BatchFingerprintInput) (options options' : BatchFingerprintOptions)
    (xs ys : List BatchEntryInput) (r s : BatchFingerprintResult) : Prop where
  same : SameBatch P x y options options' xs ys →
    r.canonicalPayload = s.canonicalPayload ∧ r.fingerprint = s.fingerprint
  binds : r.fingerprint = s.fingerprint → SameOrCollide P x y options options' xs ys r s
  /-- Plain entries are the same, in whatever order. -/
  plain : (∀ e ∈ xs, Plain P.toUpperCase e) → (∀ e ∈ ys, Plain P.toUpperCase e) →
    SameBatch P x y options options' xs ys →
      (xs.map (entryPair P.toUpperCase)).Perm (ys.map (entryPair P.toUpperCase))
  /-- A text verifies a batch just if it is the fingerprint, in either case and with
  space around it. -/
  verifies : ∀ expected later, verifyBatchFingerprint P (some x) expected options later = true ↔
    expected ≠ "" ∧ P.toLowerCase (trim expected) = r.fingerprint
  /-- A batch that was changed does not verify. -/
  evident : ∀ later, verifyBatchFingerprint P (some y) r.fingerprint options' later = true →
    SameOrCollide P x y options options' xs ys r s

section

variable (hlower : ∀ bytes, P.toLowerCase (String.ofList (hexEncode bytes)) = String.ofList (hexEncode bytes))
include hlower

/-- A fingerprint is in lower case and has no white space. -/
theorem clean_sha256Hex (s : String) : P.toLowerCase (trim (P.sha256Hex s)) = P.sha256Hex s := by
  have hspace : ∀ c ∈ hexEncode (P.sha256 s), isSpace c = false := fun c hc => (hexDigits_lower c (mem_hexEncode hc)).1
  rw [Platform.sha256Hex, trim, String.toList_ofList, trimChars_of_no_space hspace, hlower]

theorem verifyBatchFingerprint_iff {now : Int} {r : BatchFingerprintResult}
    (hr : computeBatchFingerprint P (some x) options now = .ok r) (expected : String) (later : Int) :
    verifyBatchFingerprint P (some x) expected options later = true ↔
      expected ≠ "" ∧ P.toLowerCase (trim expected) = r.fingerprint := by
  obtain ⟨x', xs, hx, hemployer, hperiod, hentries, rfl⟩ := computeBatchFingerprint_eq_ok_iff.mp hr
  obtain rfl := Option.some.inj hx
  have hlater : computeBatchFingerprint P (some x) options later = .ok _ :=
    computeBatchFingerprint_eq_ok_iff.mpr ⟨x, xs, rfl, hemployer, hperiod, hentries, rfl⟩
  rw [verifyBatchFingerprint]
  by_cases hempty : expected = ""
  · simp [hempty]
  · simp only [if_neg hempty, hlater]
    rw [compareFingerprints_iff, trim_trim]
    show P.toLowerCase (trim (P.sha256Hex _)) = _ ↔ _
    rw [clean_sha256Hex hlower]
    exact ⟨fun h => ⟨hempty, h.symm⟩, fun h => h.2.symm⟩

end

/-- A fingerprint identifies a batch, up to its normal form and to collisions. -/
theorem fingerprints_identify (P : Platform)
    (hlower : ∀ bytes, P.toLowerCase (String.ofList (hexEncode bytes)) = String.ofList (hexEncode bytes))
    {now now' : Int} {r s : BatchFingerprintResult} (hxs : x.entries = some xs) (hys : y.entries = some ys)
    (hr : computeBatchFingerprint P (some x) options now = .ok r)
    (hs : computeBatchFingerprint P (some y) options' now' = .ok s) :
    Identified P x y options options' xs ys r s := by
  have hverifies := verifyBatchFingerprint_iff hlower hr
  have hverifies' := verifyBatchFingerprint_iff hlower hs
  obtain ⟨x', xs', hx, -, -, hentries, rfl⟩ := computeBatchFingerprint_eq_ok_iff.mp hr
  obtain rfl := Option.some.inj hx
  obtain rfl := Option.some.inj (hxs.symm.trans hentries)
  obtain ⟨y', ys', hy, -, -, hentries', rfl⟩ := computeBatchFingerprint_eq_ok_iff.mp hs
  obtain rfl := Option.some.inj hy
  obtain rfl := Option.some.inj (hys.symm.trans hentries')
  have hbinds : P.sha256Hex (stringify (canonicalFields P x options xs).toJson) =
      P.sha256Hex (stringify (canonicalFields P y options' ys).toJson) →
      SameOrCollide P x y options options' xs ys (fingerprintOf P options now (canonicalFields P x options xs))
        (fingerprintOf P options' now' (canonicalFields P y options' ys)) := by
    intro h
    by_cases hpayload : stringify (canonicalFields P x options xs).toJson =
        stringify (canonicalFields P y options' ys).toJson
    · exact (sameBatch_of_canonicalFields_eq (stringify_toJson_injective hpayload)).imp_right Or.inl
    · exact .inr (.inr ⟨hpayload, sha256Hex_eq_iff.mp h⟩)
  exact {
    same := fun h => by simp only [fingerprintOf, h.canonicalFields_eq, and_self]
    binds := hbinds
    plain := fun hx hy h => (preimage_eq_iff_of_plain hx hy).mp h.entries
    verifies := hverifies
    evident := fun later h => by
      have heq := ((hverifies' _ later).mp h).2
      simp only [fingerprintOf, clean_sha256Hex hlower] at heq
      exact hbinds heq }

end

/-- The functions of the platform, as they are on ASCII. -/
def asciiPlatform : Platform where
  sha256 s := Sha256.sha256 (encodeUtf8 s.toList)
  toUpperCase := upperAscii
  toLowerCase s := String.ofList (s.toList.map lowerAscii)

theorem toLowerCase_hexEncode (bytes : List UInt8) :
    asciiPlatform.toLowerCase (String.ofList (hexEncode bytes)) = String.ofList (hexEncode bytes) := by
  have hdigit : ∀ c ∈ hexEncode bytes, lowerAscii c = c := fun c hc => (hexDigits_lower c (mem_hexEncode hc)).2.2
  show String.ofList ((String.ofList (hexEncode bytes)).toList.map lowerAscii) = _
  rw [String.toList_ofList, List.map_congr_left hdigit, List.map_id']

/-- A batch of two payments. -/
def september (employer : String) (entries : List BatchEntryInput) : BatchFingerprintInput where
  employer := some employer
  period := some "2026-09"
  entries := some entries

theorem september_accepted {employer : String} (h : trim employer ≠ "") (entries : List BatchEntryInput) (now : Int) :
    ∃ r, computeBatchFingerprint asciiPlatform (some (september employer entries)) {} now = .ok r :=
  ⟨_, computeBatchFingerprint_eq_ok_iff.mpr
    ⟨_, entries, rfl, h, (by decide : trim "2026-09" ≠ ""), rfl, rfl⟩⟩

/-- The order of the entries, and the case of the employer, make no difference. -/
theorem reordered_fingerprint :
    ∃ r s, computeBatchFingerprint asciiPlatform
        (some (september "GABC" [⟨"alice", some (.integer 100)⟩, ⟨"bob", none⟩])) {} 0 = .ok r ∧
      computeBatchFingerprint asciiPlatform
        (some (september " gabc" [⟨"bob", none⟩, ⟨" Alice", some (.text "100")⟩])) {} 60000 = .ok s ∧
      r.fingerprint = s.fingerprint := by
  obtain ⟨r, hr⟩ := september_accepted (by decide : trim "GABC" ≠ "")
    [⟨"alice", some (.integer 100)⟩, ⟨"bob", none⟩] 0
  obtain ⟨s, hs⟩ := september_accepted (by decide : trim " gabc" ≠ "")
    [⟨"bob", none⟩, ⟨" Alice", some (.text "100")⟩] 60000
  refine ⟨r, s, hr, hs, ((fingerprints_identify asciiPlatform toLowerCase_hexEncode rfl rfl hr hs).same ?_).2⟩
  exact ⟨rfl, by decide, rfl, rfl, by decide, rfl, rfl, rfl⟩

end ZkPayroll.Fingerprint
