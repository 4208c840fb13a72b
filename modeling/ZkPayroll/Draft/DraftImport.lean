import Mathlib.Algebra.Order.Ring.Int
import ZkPayroll.Draft.DraftSerializer
import ZkPayroll.Framework.JsValue
import ZkPayroll.Framework.JsonParse
import ZkPayroll.Framework.PolynomialHash

/-!
# What an import reports

A text is accepted when it is a JSON object with a numeric version and an array
of entries, and has the checksum that is expected (`Accepted`); every other text
is refused with the error of its first problem (`importDraft_refused`). Of an
accepted text, the warnings are those of the version and of each entry
(`mem_validateEntries_iff`), unless the conversion of an amount throws.

The hash of `simpleChecksum` is a polynomial hash of the text with base 31 in
32-bit arithmetic (`simpleChecksum_eq`), and the checksum is its absolute value.
The change of one code unit always changes the hash; the checksum stays the same
exactly where the new hash is the opposite of the old one (`detected_iff`).
-/

namespace ZkPayroll.Draft

section

open Framework ZkPayroll.Core Serialization

variable {ν : Type} [NumberFormat ν]

/-! ## Entries -/

/-- The amount is one that `BigInt` reads, and above zero. -/
def PositiveAmount (e : Json (JsNumber ν)) : Prop := ∃ amount, amountOf e = .ok amount ∧ 0 < amount

/-- The problems of an entry, each with the text that reports it. -/
inductive EntryProblem (e : Json (JsNumber ν)) (i : Nat) : String → Prop
  | notAnObject : isObject e = false → EntryProblem e i s!"Entry at index {i} is not an object."
  | recipientId : isObject e = true → hasText (property e "recipientId") = false →
    EntryProblem e i s!"Entry {i}: missing or empty recipientId."
  | amount : isObject e = true → ¬PositiveAmount e → EntryProblem e i s!"Entry {i}: amount must be a positive value."
  | asset : isObject e = true → hasText (property e "asset") = false →
    EntryProblem e i s!"Entry {i}: missing or empty asset."

/-- The conversion of the amount of the entry, if it is made, throws nothing. -/
def Readable (e : Json (JsNumber ν)) : Prop := isObject e = true → (property e "amount").all readsAsInteger = true

theorem mem_ite_nil {c : Prop} [Decidable c] {w v : String} : w ∈ (if c then [] else [v]) ↔ ¬c ∧ w = v := by
  split <;> simp [*]

theorem mem_ite_singleton {c : Prop} [Decidable c] {w v : String} : w ∈ (if c then [v] else []) ↔ c ∧ w = v := by
  split <;> simp [*]

/-- Where an entry is checked to the end, the warnings are its problems. -/
theorem mem_validateEntry_iff {e : Json (JsNumber ν)} {i : Nat} {warnings : List String}
    (h : validateEntry e i = .ok warnings) {w : String} : w ∈ warnings ↔ EntryProblem e i w := by
  unfold validateEntry at h
  split at h
  · rename_i hobj
    obtain ⟨amount, hamount, h⟩ := except_bind_eq_ok.mp h
    cases h
    have hpos : amount ≤ 0 ↔ ¬PositiveAmount e := by
      rw [← not_lt, not_iff_not, PositiveAmount, hamount]
      exact ⟨fun h => ⟨amount, rfl, h⟩, fun ⟨_, ha, h⟩ => by cases ha; exact h⟩
    rw [List.mem_append, List.mem_append, mem_ite_nil, mem_ite_singleton, mem_ite_nil, hpos, Bool.not_eq_true,
      Bool.not_eq_true]
    constructor
    · rintro ((⟨hc, rfl⟩ | ⟨hc, rfl⟩) | ⟨hc, rfl⟩)
      · exact .recipientId hobj hc
      · exact .amount hobj hc
      · exact .asset hobj hc
    · rintro (hnot | ⟨-, hc⟩ | ⟨-, hc⟩ | ⟨-, hc⟩)
      · rw [hobj] at hnot; cases hnot
      · exact .inl (.inl ⟨hc, rfl⟩)
      · exact .inl (.inr ⟨hc, rfl⟩)
      · exact .inr ⟨hc, rfl⟩
  · rename_i hobj
    cases h
    rw [Bool.not_eq_true] at hobj
    constructor
    · intro hw
      rw [List.mem_singleton.mp hw]
      exact .notAnObject hobj
    · rintro (- | ⟨hobj', -⟩ | ⟨hobj', -⟩ | ⟨hobj', -⟩)
      · exact List.mem_singleton.mpr rfl
      all_goals rw [hobj] at hobj'; cases hobj'

theorem validateEntry_ok_iff {e : Json (JsNumber ν)} {i : Nat} :
    (∃ warnings, validateEntry e i = .ok warnings) ↔ Readable e := by
  unfold validateEntry Readable
  split
  · rename_i hobj
    simp only [except_bind_eq_ok, hobj, true_imp_iff, ← amountOf_ok_iff]
    constructor
    · rintro ⟨_, amount, hamount, -⟩
      exact ⟨amount, hamount⟩
    · rintro ⟨amount, hamount⟩
      exact ⟨_, amount, hamount, rfl⟩
  · rename_i hobj
    exact iff_of_true ⟨_, rfl⟩ fun h => absurd h hobj

/-- The warnings of the loop are the problems of the entries, each under its
index. -/
theorem mem_validateEntries_iff : ∀ {entries : List (Json (JsNumber ν))} {i : Nat} {warnings : List String},
    validateEntries entries i = .ok warnings → ∀ {w : String},
      w ∈ warnings ↔ ∃ k e, entries[k]? = some e ∧ EntryProblem e (i + k) w
  | [], _, _, h, w => by
    cases h
    simp
  | e :: entries, i, warnings, h, w => by
    rw [validateEntries] at h
    obtain ⟨ws, hws, h⟩ := except_bind_eq_ok.mp h
    obtain ⟨rest, hrest, h⟩ := except_bind_eq_ok.mp h
    cases h
    rw [List.mem_append, mem_validateEntry_iff hws, mem_validateEntries_iff hrest]
    constructor
    · rintro (hw | ⟨k, e', he, hw⟩)
      · exact ⟨0, e, rfl, hw⟩
      · exact ⟨k + 1, e', he, by rwa [Nat.add_assoc, Nat.add_comm 1 k] at hw⟩
    · rintro ⟨_ | k, e', he, hw⟩
      · cases he
        exact .inl hw
      · exact .inr ⟨k, e', he, by rwa [Nat.add_assoc, Nat.add_comm 1 k]⟩

theorem validateEntries_ok_iff : ∀ {entries : List (Json (JsNumber ν))} {i : Nat},
    (∃ warnings, validateEntries entries i = .ok warnings) ↔ ∀ e ∈ entries, Readable e
  | [], _ => iff_of_true ⟨[], rfl⟩ nofun
  | e :: entries, i => by
    rw [List.forall_mem_cons, ← validateEntry_ok_iff (i := i), ← validateEntries_ok_iff (i := i + 1)]
    simp only [validateEntries, except_bind_eq_ok]
    constructor
    · rintro ⟨_, ws, hws, rest, hrest, -⟩
      exact ⟨⟨ws, hws⟩, rest, hrest⟩
    · rintro ⟨⟨ws, hws⟩, rest, hrest⟩
      exact ⟨_, ws, hws, rest, hrest, rfl⟩

/-! ## Texts -/

section Texts

variable [NatCast ν] [LE ν] [DecidableLE ν] (parse : List Nat → Option (Json (JsNumber ν)))
variable (createdNow updatedNow : String) (raw : List Nat) (expectedChecksum : Option String)

omit [NumberFormat ν] [NatCast ν] [LE ν] [DecidableLE ν] in
/-- The text is a JSON object with this version and these entries, and has the
checksum that is expected. -/
structure Accepted (parsed : Json (JsNumber ν)) (version : JsNumber ν) (entries : List (Json (JsNumber ν))) : Prop where
  not_blank : isBlankText raw = false
  parsed_eq : parse raw = some parsed
  object : isObject parsed = true
  version_eq : numberOf (property parsed "version") = some version
  entries_eq : itemsOf (property parsed "entries") = some entries
  checksum : ∀ expected ∈ expectedChecksum, simpleChecksum raw = expected

omit [NumberFormat ν] [NatCast ν] [LE ν] [DecidableLE ν] in
/-- The problems for which a text is refused. -/
inductive TopLevelProblem : SdkError → Prop
  | empty : isBlankText raw = true → TopLevelProblem (serializationError "Draft data is empty." "EMPTY_DRAFT_DATA")
  | notJson : parse raw = none →
    TopLevelProblem (serializationError "Draft data is not valid JSON." "INVALID_JSON")
  | notAnObject {parsed : Json (JsNumber ν)} : parse raw = some parsed → isObject parsed = false →
    TopLevelProblem (serializationError "Draft data must be a JSON object." "INVALID_JSON_OBJECT")
  | version {parsed : Json (JsNumber ν)} : parse raw = some parsed →
    numberOf (property parsed "version") = none →
    TopLevelProblem (serializationError "Draft is missing a numeric version field." "MISSING_VERSION")
  | entries {parsed : Json (JsNumber ν)} : parse raw = some parsed → itemsOf (property parsed "entries") = none →
    TopLevelProblem (serializationError "Draft is missing an entries array." "MISSING_ENTRIES")
  | checksum {expected : String} : expected ∈ expectedChecksum → simpleChecksum raw ≠ expected →
    TopLevelProblem
      (serializationError "Draft checksum mismatch — data may have been tampered with." "CHECKSUM_MISMATCH")

/-- What an import is to do with a text. -/
structure Imports : Prop where
  /-- An accepted text gives its entries, with a warning for each problem. -/
  accepted : ∀ {parsed version entries}, Accepted parse raw expectedChecksum parsed version entries →
    ∃ result, importDraft parse createdNow updatedNow raw expectedChecksum = .ok result ∧
      result.draft.version = version ∧ result.draft.entries = entries ∧
      ∀ w, w ∈ result.warnings ↔
        w ∈ versionWarnings version ∨ ∃ i e, entries[i]? = some e ∧ EntryProblem e i w
  /-- Only a problem of the text as a whole throws, and then a serialization error. -/
  throws : ∀ {e}, importDraft parse createdNow updatedNow raw expectedChecksum = .error e →
    TopLevelProblem parse raw expectedChecksum e ∧ e.name = "SerializationError"

variable {parse createdNow updatedNow raw expectedChecksum}

/-- An accepted text is imported as far as its entries are checked. -/
theorem importDraft_of_accepted {parsed : Json (JsNumber ν)} {version : JsNumber ν} {entries : List (Json (JsNumber ν))}
    (h : Accepted parse raw expectedChecksum parsed version entries) :
    importDraft parse createdNow updatedNow raw expectedChecksum =
      (validateEntries entries 0).map fun warnings =>
        { draft := importedDraft createdNow updatedNow parsed version entries
          warnings := versionWarnings version ++ warnings } := by
  have hobject : ¬isObject parsed = false := by simp [h.object]
  have hchecksum : ¬∃ expected ∈ expectedChecksum, simpleChecksum raw ≠ expected := by
    rintro ⟨expected, hmem, hne⟩
    exact hne (h.checksum expected hmem)
  rw [importDraft, throwIf_bind_of_not (by rw [h.not_blank]; decide), orThrow_bind_of_some h.parsed_eq,
    throwIf_bind_of_not hobject, orThrow_bind_of_some h.version_eq, orThrow_bind_of_some h.entries_eq,
    throwIf_bind_of_not hchecksum]
  cases validateEntries entries 0 <;> rfl

/-- A text that is not accepted is refused for one of its problems. -/
theorem importDraft_refused (h : ¬∃ parsed version entries, Accepted parse raw expectedChecksum parsed version entries) :
    ∃ e, importDraft parse createdNow updatedNow raw expectedChecksum = .error e ∧
      TopLevelProblem parse raw expectedChecksum e := by
  unfold importDraft
  by_cases hblank : isBlankText raw = true
  · exact ⟨_, throwIf_bind_of hblank, .empty hblank⟩
  rw [throwIf_bind_of_not hblank]
  cases hparsed : parse raw with
  | none => exact ⟨_, rfl, .notJson hparsed⟩
  | some parsed =>
    rw [orThrow_bind_of_some rfl]
    by_cases hobj : isObject parsed = false
    · exact ⟨_, throwIf_bind_of hobj, .notAnObject hparsed hobj⟩
    rw [throwIf_bind_of_not hobj]
    cases hversion : numberOf (property parsed "version") with
    | none => exact ⟨_, rfl, .version hparsed hversion⟩
    | some version =>
      rw [orThrow_bind_of_some rfl]
      cases hentries : itemsOf (property parsed "entries") with
      | none => exact ⟨_, rfl, .entries hparsed hentries⟩
      | some entries =>
        rw [orThrow_bind_of_some rfl]
        by_cases hsum : ∃ expected ∈ expectedChecksum, simpleChecksum raw ≠ expected
        · obtain ⟨expected, hmem, hne⟩ := id hsum
          exact ⟨_, throwIf_bind_of hsum, .checksum hmem hne⟩
        · push Not at hsum
          refine absurd ⟨parsed, version, entries, ?_⟩ h
          exact ⟨Bool.eq_false_iff.mpr hblank, hparsed, Bool.not_eq_false _ ▸ hobj, hversion, hentries, hsum⟩

omit [NumberFormat ν] [NatCast ν] [LE ν] [DecidableLE ν] in
theorem TopLevelProblem.name_eq {e : SdkError} (h : TopLevelProblem parse raw expectedChecksum e) :
    e.name = "SerializationError" := by
  cases h <;> rfl

variable (parse createdNow updatedNow raw expectedChecksum)

/-- The import does what it is to do with a text exactly where the conversion
of no amount of an accepted text throws. -/
theorem importDraft_iff :
    Imports parse createdNow updatedNow raw expectedChecksum ↔
      ∀ parsed version entries, Accepted parse raw expectedChecksum parsed version entries →
        ∀ e ∈ entries, Readable e := by
  constructor
  · intro himports parsed version entries haccepted
    obtain ⟨result, hresult, -⟩ := himports.accepted haccepted
    rw [importDraft_of_accepted haccepted] at hresult
    refine (validateEntries_ok_iff (i := 0)).mp ?_
    cases hws : validateEntries entries 0 with
    | error e => rw [hws] at hresult; cases hresult
    | ok warnings => exact ⟨warnings, rfl⟩
  · intro hreadable
    refine ⟨fun {parsed version entries} haccepted => ?_, fun {e} herror => ?_⟩
    · obtain ⟨warnings, hws⟩ := validateEntries_ok_iff.mpr (hreadable parsed version entries haccepted)
      refine ⟨_, by rw [importDraft_of_accepted haccepted, hws]; rfl, rfl, rfl, fun w => ?_⟩
      rw [List.mem_append, mem_validateEntries_iff hws]
      simp only [Nat.zero_add]
    · by_cases haccepted : ∃ parsed version entries, Accepted parse raw expectedChecksum parsed version entries
      · obtain ⟨parsed, version, entries, haccepted⟩ := haccepted
        obtain ⟨warnings, hws⟩ := validateEntries_ok_iff.mpr (hreadable parsed version entries haccepted)
        rw [importDraft_of_accepted haccepted, hws] at herror
        cases herror
      · obtain ⟨e', he', hproblem⟩ := 
          @importDraft_refused _ _ _ _ _ parse createdNow updatedNow raw expectedChecksum haccepted
        rw [he'] at herror
        cases herror
        exact ⟨hproblem, hproblem.name_eq⟩

end Texts

/-! ## An amount with a fraction -/

/-- `JSON.parse` of a text of ASCII characters with integers that are not too
large. -/
def parseAscii (raw : List Nat) : Option (Json (JsNumber Int)) :=
  (parseJson (String.ofList (raw.map Char.ofNat))).map loaded

def fractionText : List Nat :=
  codeUnits "\x7b\"version\":1,\"entries\":[\x7b\"recipientId\":\"GA\",\"amount\":\"1.5\",\"asset\":\"USDC\"\x7d]\x7d"

def fractionEntries : List (Json (JsNumber Int)) :=
  [.obj [("recipientId", .str "GA"), ("amount", .str "1.5"), ("asset", .str "USDC")]]

/-- The text is accepted, and what importing it throws is no serialization
error. -/
theorem fraction_throws :
    Accepted parseAscii fractionText none (.obj [("version", .num (.finite 1)), ("entries", .arr fractionEntries)])
        (.finite 1) fractionEntries ∧
      importDraft parseAscii "now" "now" fractionText none =
        .error (syntaxError "Cannot convert 1.5 to a BigInt") ∧
      ¬Imports parseAscii "now" "now" fractionText none := by
  have haccepted : Accepted parseAscii fractionText none
      (.obj [("version", .num (.finite 1)), ("entries", .arr fractionEntries)]) (.finite 1) fractionEntries :=
    ⟨by decide +kernel, by decide +kernel, rfl, rfl, rfl, nofun⟩
  have hthrows : importDraft parseAscii "now" "now" fractionText none =
      .error (syntaxError "Cannot convert 1.5 to a BigInt") := by
    rw [importDraft_of_accepted haccepted]
    have hentries : validateEntries fractionEntries 0 = .error (syntaxError "Cannot convert 1.5 to a BigInt") := by
      decide +kernel
    rw [hentries]
    rfl
  refine ⟨haccepted, hthrows, fun himports => ?_⟩
  obtain ⟨-, hname⟩ := himports.throws hthrows
  revert hname
  decide

end

section

open Framework ZkPayroll.Core

variable {ν : Type}

/-! ## The text of a checksum -/

theorem checksumStep_eq (hash : Int) (char : Nat) : checksumStep hash char = (31 * hash + char).bmod (2 ^ 32) := by
  have hsum : toInt32 (hash * 2 ^ 5) - hash + char = toInt32 (hash * 2 ^ 5) + (char - hash) := by omega
  rw [checksumStep, hsum, toInt32, toInt32, Int.bmod_add_bmod]
  congr 1
  omega

/-- The hash of a text. -/
theorem foldl_checksumStep (data : List Nat) : data.foldl checksumStep 0 = (polyHash 31 data).bmod (2 ^ 32) := by
  rw [← foldl_wrap checksumStep_eq]
  cases data using List.reverseRecOn with
  | nil => rfl
  | append_singleton data u => rw [List.foldl_append, List.foldl_cons, List.foldl_nil, checksumStep_eq, Int.bmod_bmod]

/-- Different numbers have different texts. -/
theorem padStart8_toString16_injective : Function.Injective fun n => padStart8 (toString16 n) := by
  intro m n h
  have hread : ∀ n, continueNumber 16 0 (padStart8 (toString16 n)).toList = some n := by
    intro n
    rw [padStart8, String.toList_append, String.toList_ofList, continueNumber_append,
      continueNumber_zeros (by decide), Option.bind_some, toString16, String.toList_ofList,
      continueNumber_toDigits (by decide) (by decide)]
  have hsame := congrArg (fun s : String => continueNumber 16 0 s.toList) h
  simp only [hread] at hsame
  exact Option.some.inj hsame

/-- Two texts have the same checksum when their hashes are equal or opposite. -/
theorem simpleChecksum_eq_iff (data data' : List Nat) :
    simpleChecksum data = simpleChecksum data' ↔
      (2 ^ 32 : Int) ∣ polyHash 31 data - polyHash 31 data' ∨ (2 ^ 32 : Int) ∣ polyHash 31 data + polyHash 31 data' := by
  rw [simpleChecksum, simpleChecksum, padStart8_toString16_injective.eq_iff, foldl_checksumStep, foldl_checksumStep,
    natAbs_bmod_eq_iff]
  norm_num

/-! ## One changed unit -/

theorem charUnits_lt {c : Char} : ∀ u ∈ charUnits c, u < 2 ^ 16 := by
  intro u hu
  have hc := char_not_surrogate c
  unfold charUnits at hu
  split at hu
  · rw [List.mem_singleton.mp hu]
    omega
  · simp only [List.mem_cons, List.not_mem_nil, or_false] at hu
    omega

section Change

variable [NumberFormat ν] [NatCast ν] [LE ν] [DecidableLE ν] (parse : List Nat → Option (Json (JsNumber ν)))
variable (createdNow updatedNow now : String) (draft : List (String × Json (JsNumber ν)))

omit [LE ν] [DecidableLE ν] in
theorem exportDraft_units : ∀ u ∈ (exportDraft now draft).data, u < 2 ^ 16 := by
  intro u hu
  obtain ⟨c, -, hu⟩ := List.mem_flatMap.mp hu
  exact charUnits_lt u hu

/-- The checksum of the text is not the one that is expected, and the import
throws. -/
def Detected (text : List Nat) (checksum : String) : Prop :=
  simpleChecksum text ≠ checksum ∧ ∃ e, importDraft parse createdNow updatedNow text (some checksum) = .error e

variable {parse createdNow updatedNow} in
theorem detected_of_ne {text : List Nat} {checksum : String} (h : simpleChecksum text ≠ checksum) :
    Detected parse createdNow updatedNow text checksum := by
  have hnot : ¬∃ parsed version entries, Accepted parse text (some checksum) parsed version entries := by
    rintro ⟨parsed, version, entries, haccepted⟩
    exact h (haccepted.checksum checksum rfl)
  obtain ⟨e, he, -⟩ := @importDraft_refused _ _ _ _ _ parse createdNow updatedNow _ _ hnot
  exact ⟨h, e, he⟩

variable {now draft} in
/-- The change of one code unit of an exported text is detected exactly where it
does not make the hash of the text the opposite of what it was. -/
theorem detected_iff {before after : List Nat} {u v : Nat} (hdata : (exportDraft now draft).data = before ++ u :: after)
    (hne : v ≠ u) (hv : v < 2 ^ 16) :
    Detected parse createdNow updatedNow (before ++ v :: after) (exportDraft now draft).checksum ↔
      ¬(2 ^ 32 : Int) ∣ 2 * polyHash 31 (exportDraft now draft).data + ((v : Int) - u) * 31 ^ after.length := by
  have hu : u < 2 ^ 16 := by
    refine exportDraft_units now draft u ?_
    rw [hdata]
    exact List.mem_append_right _ List.mem_cons_self
  have hchecksum : (exportDraft now draft).checksum = simpleChecksum (exportDraft now draft).data := rfl
  have hchange : ¬(2 ^ 32 : Int) ∣ ((v : Int) - u) * 31 ^ after.length := by
    refine not_dvd_change (w := 32) (by decide) (by omega) (by omega) _
  have hdetected : Detected parse createdNow updatedNow (before ++ v :: after) (exportDraft now draft).checksum ↔
      simpleChecksum (before ++ v :: after) ≠ (exportDraft now draft).checksum :=
    ⟨And.left, detected_of_ne⟩
  rw [hdetected, hchecksum, ne_eq, not_iff_not, simpleChecksum_eq_iff, hdata, polyHash_change 31 before after u v,
    add_sub_cancel_left, or_iff_right hchange]
  have hsum : ∀ h d : Int, h + d + h = 2 * h + d := fun h d => by ring
  rw [hsum]

end Change

/-! ## An amount of a draft -/

/-- A draft with one entry. -/
def labelledDraft (label : String) : List (String × Json (JsNumber Int)) :=
  [("version", .num (.finite 1)), ("createdAt", .str "2026-05-01T00:00:00.000Z"),
    ("updatedAt", .str "2026-05-01T00:00:00.000Z"), ("label", .str label),
    ("entries", .arr [.obj [("recipientId", .str "GA"), ("amount", .str "1000"), ("asset", .str "USDC")]])]

def exported (label : String) : DraftExportResult := exportDraft "2026-05-02T00:00:00.000Z" (labelledDraft label)

/-- The text with the first digit of the amount, which is at `i`, replaced. -/
def amountChanged (label : String) (i : Nat) : List Nat :=
  (exported label).data.take i ++ 51 :: (exported label).data.drop (i + 1)

/-- In this draft, an amount of 1000 that becomes 3000 is detected. -/
theorem may_detected :
    (exported "May").data = (exported "May").data.take 187 ++ 49 :: (exported "May").data.drop 188 ∧
      Detected parseAscii "now" "now" (amountChanged "May" 187) (exported "May").checksum := by
  have hdata : (exported "May").data = (exported "May").data.take 187 ++ 49 :: (exported "May").data.drop 188 := by
    decide +kernel
  refine ⟨hdata, (detected_iff parseAscii "now" "now" hdata (by decide) (by decide)).mpr ?_⟩
  decide +kernel

/-- In a draft with this label it is not. -/
theorem amount_change_hidden :
    (exported "May hopadly").data =
        (exported "May hopadly").data.take 195 ++ 49 :: (exported "May hopadly").data.drop 196 ∧
      simpleChecksum (amountChanged "May hopadly" 195) = (exported "May hopadly").checksum ∧
      ¬Detected parseAscii "now" "now" (amountChanged "May hopadly" 195) (exported "May hopadly").checksum := by
  have hsame : simpleChecksum (amountChanged "May hopadly" 195) = (exported "May hopadly").checksum := by
    decide +kernel
  exact ⟨by decide +kernel, hsame, fun h => h.1 hsame⟩

end

end ZkPayroll.Draft
