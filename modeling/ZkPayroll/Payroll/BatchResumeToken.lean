import ZkPayroll.Batch.Paginate
import ZkPayroll.Framework.JsonParse
import ZkPayroll.Framework.Separated
import ZkPayroll.Payroll.Types

/-!
# Resume tokens

`payroll/batchResumeToken.ts`. A token is the checkpoint as JSON, in
base64url, with a checksum. `decode_createBatchResumeToken` reads back the
checkpoint that a token was made from, and `resolveResumeStart_create` says
when `resolveResumeStart` accepts such a token, for the entries it was made
for or any others.

The numbers of a checkpoint are integers here.

A resume token holds a commitment to the entries that forgets their order, and
an index into their batches that depends on it. So a token is accepted for
every re-ordering of its entries (`resolveResumeStart_reordered`), and the
batches that it skips are the completed ones just when the completed prefixes
agree (`token_binds_prefix_iff`).
-/

namespace ZkPayroll.Payroll

open Framework ZkPayroll.Core Batch Fingerprint

section

/-- `BatchResumeCheckpoint`. -/
structure BatchResumeCheckpoint where
  version : Int
  nextBatchIndex : Int
  itemsProcessed : Int
  totalItems : Int
  totalBatches : Int
  batchSize : Int
  entriesCommitment : String
  createdAt : Int
  deriving DecidableEq

/-- `ResumeStartPoint`. -/
structure ResumeStartPoint where
  startBatchIndex : Int
  itemsAlreadyProcessed : Int
  checkpoint : BatchResumeCheckpoint
  deriving DecidableEq

def RESUME_TOKEN_VERSION : Int := 1

section Tokens

variable {T : Type} [PayrollEntry T] (host : Host)
variable (entries : List T)

def toCommitmentInput : List BatchEntryInput :=
  entries.map fun entry =>
    { recipient := (PayrollEntry.recipient entry).getD "", amount := PayrollEntry.amount entry }

def checksumPayload (payload : String) : List Char := (hexEncode (host.sha256 payload)).take 16

/-- A checkpoint as `JSON.stringify` sees it. -/
def BatchResumeCheckpoint.toJson (c : BatchResumeCheckpoint) : Json Int :=
  .obj [("version", .num c.version), ("nextBatchIndex", .num c.nextBatchIndex),
    ("itemsProcessed", .num c.itemsProcessed), ("totalItems", .num c.totalItems),
    ("totalBatches", .num c.totalBatches), ("batchSize", .num c.batchSize),
    ("entriesCommitment", .str c.entriesCommitment), ("createdAt", .num c.createdAt)]

/-- The checkpoint of a token made at time `createdAt`. -/
def makeCheckpoint (nextBatchIndex itemsProcessed totalBatches batchSize createdAt : Int) :
    BatchResumeCheckpoint where
  version := RESUME_TOKEN_VERSION
  nextBatchIndex := nextBatchIndex
  itemsProcessed := itemsProcessed
  totalItems := entries.length
  totalBatches := totalBatches
  batchSize := batchSize
  entriesCommitment := computeEntriesCommitment host.sha256 host.toUpperCase (toCommitmentInput entries)
  createdAt := createdAt

/-- The characters of the token with a given payload. -/
def tokenChars (payload : String) : List Char :=
  "zkbr1".toList ++ '.' :: (base64urlEncode (utf8Encode payload) ++ '.' :: checksumPayload host payload)

/-- The token with a given payload. -/
def encodePayload (payload : String) : String := String.ofList (tokenChars host payload)

def createBatchResumeToken
    (nextBatchIndex itemsProcessed totalBatches batchSize createdAt : Int) : String :=
  let checkpoint :=
    makeCheckpoint host entries nextBatchIndex itemsProcessed totalBatches batchSize createdAt
  encodePayload host (stringify checkpoint.toJson)

def malformed (message : String) : SdkError :=
  validationError message "resumeToken" "BATCH_RESUME_TOKEN_MALFORMED"

/-- A field of a parsed object, where it is a number. -/
def numberField (fields : List (String × Json Int)) (key : String) : Option Int :=
  match fields.lookup key with
  | some (.num n) => some n
  | _ => none

/-- A field of a parsed object, where it is a string. -/
def stringField (fields : List (String × Json Int)) (key : String) : Option String :=
  match fields.lookup key with
  | some (.str s) => some s
  | _ => none

/-- The checkpoint in a parsed payload, if it has all fields at their types. -/
def readCheckpoint : Json Int → Option BatchResumeCheckpoint
  | .obj fields => do
    let version ← numberField fields "version"
    let nextBatchIndex ← numberField fields "nextBatchIndex"
    let itemsProcessed ← numberField fields "itemsProcessed"
    let totalItems ← numberField fields "totalItems"
    let totalBatches ← numberField fields "totalBatches"
    let batchSize ← numberField fields "batchSize"
    let entriesCommitment ← stringField fields "entriesCommitment"
    let createdAt ← numberField fields "createdAt"
    if version = RESUME_TOKEN_VERSION then
      some { version, nextBatchIndex, itemsProcessed, totalItems, totalBatches, batchSize,
             entriesCommitment, createdAt }
    else none
  | _ => none

def decodeBatchResumeToken (token : String) : Except SdkError BatchResumeCheckpoint :=
  if isBlank token then .error (malformed "Batch resume token must be a non-empty string.")
  else
    match (trimChars token.toList).splitOn '.' with
    | [tag, encoded, checksum] =>
      if tag = "zkbr1".toList then
        let payload := utf8Decode (base64urlDecode encoded)
        if checksumPayload host payload = checksum then
          match parseJson payload with
          | none => .error (malformed "Batch resume token could not be parsed.")
          | some parsed =>
            match readCheckpoint parsed with
            | some checkpoint => .ok checkpoint
            | none =>
              .error (malformed
                "Batch resume token is missing required fields or from an unsupported version.")
        else
          .error (malformed
            "Batch resume token failed integrity verification and may be corrupted or tampered with.")
      else .error (malformed "Batch resume token is malformed or from an unsupported version.")
    | _ => .error (malformed "Batch resume token is malformed or from an unsupported version.")

def entriesMismatch : SdkError :=
  validationError
    ("Batch resume token does not match the provided entries. Resume tokens are only valid " ++
      "for the exact entries collection the original submission was created for; verify you " ++
      "are resuming with the same (unmodified) payroll batch.")
    "resumeToken" "BATCH_RESUME_TOKEN_ENTRIES_MISMATCH"

def batchSizeMismatch (original attempted : Int) : SdkError :=
  validationError
    (s!"Batch resume token was created with batchSize={original}, but resume was " ++
      s!"attempted with batchSize={attempted}. Resume using the original batch size.")
    "resumeToken" "BATCH_RESUME_TOKEN_BATCH_SIZE_MISMATCH"

def outOfRange : SdkError :=
  validationError "Batch resume token references a batch index outside the current submission plan."
    "resumeToken" "BATCH_RESUME_TOKEN_OUT_OF_RANGE"

def resolveResumeStart (batchSize : Option Int) (token : String) :
    Except SdkError ResumeStartPoint := do
  assertValidPageSize batchSize
  let checkpoint ← decodeBatchResumeToken host token
  let currentCommitment :=
    computeEntriesCommitment host.sha256 host.toUpperCase (toCommitmentInput entries)
  if currentCommitment ≠ checkpoint.entriesCommitment then .error entriesMismatch
  else
    let effectiveBatchSize := batchSize.getD entries.length
    if effectiveBatchSize ≠ checkpoint.batchSize then
      .error (batchSizeMismatch checkpoint.batchSize effectiveBatchSize)
    else
      let batches ← iterateBatches entries batchSize
      if checkpoint.nextBatchIndex < 0 ∨ checkpoint.nextBatchIndex > batches.length then
        .error outOfRange
      else
        return { startBatchIndex := checkpoint.nextBatchIndex
                 itemsAlreadyProcessed := checkpoint.itemsProcessed
                 checkpoint }

end Tokens

/-! ## Reading a token back -/

theorem digit_plain : ∀ c ∈ base64urlDigits ++ hexDigits, (c == '.') = false ∧ isSpace c = false := by
  have hall : (base64urlDigits ++ hexDigits).all (fun c => c != '.' && !isSpace c) = true := by decide +kernel
  intro c hc
  simpa using List.all_eq_true.mp hall c hc

theorem tag_plain : ∀ c ∈ "zkbr1".toList, (c == '.') = false ∧ isSpace c = false := by
  have hall : "zkbr1".toList.all (fun c => c != '.' && !isSpace c) = true := by decide
  intro c hc
  simpa using List.all_eq_true.mp hall c hc

theorem distinctKeys_toJson (c : BatchResumeCheckpoint) : DistinctKeys c.toJson := by
  have hkeys : (["version", "nextBatchIndex", "itemsProcessed", "totalItems", "totalBatches",
      "batchSize", "entriesCommitment", "createdAt"] : List String).Nodup := by decide
  simp only [BatchResumeCheckpoint.toJson, DistinctKeys, DistinctFields, List.map, and_self, and_true]
  exact hkeys

theorem readCheckpoint_toJson {c : BatchResumeCheckpoint} (h : c.version = RESUME_TOKEN_VERSION) :
    readCheckpoint c.toJson = some c := by
  have hread : readCheckpoint c.toJson =
      if c.version = RESUME_TOKEN_VERSION then some c else none := rfl
  exact hread.trans (if_pos h)

/-- A token is split into its tag, its payload and its checksum. -/
theorem split_encodePayload (host : Host) (payload : String) :
    (trimChars (encodePayload host payload).toList).splitOn '.' =
      ["zkbr1".toList, base64urlEncode (utf8Encode payload), checksumPayload host payload] := by
  have henc : ∀ x ∈ base64urlEncode (utf8Encode payload), (x == '.') = false ∧ isSpace x = false :=
    fun x hx => digit_plain x (List.mem_append_left _ (mem_base64urlEncode hx))
  have hsum : ∀ x ∈ checksumPayload host payload, (x == '.') = false ∧ isSpace x = false :=
    fun x hx => digit_plain x (List.mem_append_right _ (mem_hexEncode (List.mem_of_mem_take hx)))
  have hchars : (encodePayload host payload).toList = tokenChars host payload := String.toList_ofList
  rw [hchars, trimChars_of_no_space]
  · exact splitOn_three (fun x hx => (tag_plain x hx).1) (fun x hx => (henc x hx).1)
      (fun x hx => (hsum x hx).1)
  · intro x hx
    rcases List.mem_append.mp hx with hx | hx
    · exact (tag_plain x hx).2
    rcases List.mem_cons.mp hx with rfl | hx
    · decide
    rcases List.mem_append.mp hx with hx | hx
    · exact (henc x hx).2
    rcases List.mem_cons.mp hx with rfl | hx
    · decide
    · exact (hsum x hx).2

/-- Decoding a token reads its payload. -/
theorem decode_encodePayload (host : Host) {payload : String} {parsed : Json Int}
    {c : BatchResumeCheckpoint} (hp : parseJson payload = some parsed) (hc : readCheckpoint parsed = some c) :
    decodeBatchResumeToken host (encodePayload host payload) = .ok c := by
  have hs := split_encodePayload host payload
  have hblank : isBlank (encodePayload host payload) = false := by
    by_contra h
    rw [splitOn_of_isBlank (by simpa using h)] at hs
    simp at hs
  rw [decodeBatchResumeToken, hblank, hs]
  simp only [Bool.false_eq_true, if_false, if_true, base64urlDecode_base64urlEncode,
    utf8Decode_utf8Encode, hp, hc]

variable {T : Type} [PayrollEntry T]

/-- A token gives back the checkpoint that it was made from. -/
theorem decode_createBatchResumeToken (host : Host) (entries : List T) (k items n b t : Int) :
    decodeBatchResumeToken host (createBatchResumeToken host entries k items n b t) =
      .ok (makeCheckpoint host entries k items n b t) :=
  decode_encodePayload host (parseJson_stringify (distinctKeys_toJson _)) (readCheckpoint_toJson rfl)

theorem createBatchResumeToken_ne_empty (host : Host) (entries : List T) (k items n b t : Int) :
    createBatchResumeToken host entries k items n b t ≠ "" := by
  intro h
  have hs := split_encodePayload host (stringify (makeCheckpoint host entries k items n b t).toJson)
  rw [createBatchResumeToken] at h
  rw [h] at hs
  simp [trimChars] at hs

/-- A token made for `entries` is accepted with `entries'` and the same batch
size if the commitments agree and its index is in the plan. -/
theorem resolveResumeStart_create (host : Host) (entries entries' : List T) {k items n b t : Int}
    (hb : 0 < b) :
    resolveResumeStart host entries' (some b) (createBatchResumeToken host entries k items n b t) =
      if computeEntriesCommitment host.sha256 host.toUpperCase (toCommitmentInput entries') ≠
          computeEntriesCommitment host.sha256 host.toUpperCase (toCommitmentInput entries) then
        .error entriesMismatch
      else if k < 0 ∨ k > totalPages entries'.length b.toNat then .error outOfRange
      else .ok { startBatchIndex := k, itemsAlreadyProcessed := items,
                 checkpoint := makeCheckpoint host entries k items n b t } := by
  have hsize : ¬ b ≠ (makeCheckpoint host entries k items n b t).batchSize := fun h => h rfl
  rw [resolveResumeStart, assertValidPageSize_some hb, decode_createBatchResumeToken]
  simp only [bind, Except.bind, iterateBatches_some hb, Option.getD_some, length_batchPages,
    if_neg hsize]
  rfl

/-- A token whose index is in the plan resumes the entries it was made for. -/
theorem resolveResumeStart_self (host : Host) (entries : List T) {k items n b t : Int} (hb : 0 < b)
    (hk : 0 ≤ k) (hn : k ≤ totalPages entries.length b.toNat) :
    resolveResumeStart host entries (some b) (createBatchResumeToken host entries k items n b t) =
      .ok { startBatchIndex := k, itemsAlreadyProcessed := items,
            checkpoint := makeCheckpoint host entries k items n b t } := by
  rw [resolveResumeStart_create host entries entries hb, if_neg (by simp), if_neg (by omega)]

/-- An accepted token, whoever made it, resumes inside the plan. -/
theorem resolveResumeStart_range {host : Host} {entries : List T} {b : Int} {token : String}
    {r : ResumeStartPoint} (hb : 0 < b) (h : resolveResumeStart host entries (some b) token = .ok r) :
    0 ≤ r.startBatchIndex ∧ r.startBatchIndex ≤ totalPages entries.length b.toNat := by
  rw [resolveResumeStart, assertValidPageSize_some hb] at h
  cases hd : decodeBatchResumeToken host token with
  | error e => rw [hd] at h; cases h
  | ok c =>
    rw [hd] at h
    simp only [bind, Except.bind, iterateBatches_some hb, length_batchPages, pure, Except.pure] at h
    split at h
    · cases h
    split at h
    · cases h
    split at h
    · cases h
    rename_i hrange
    obtain rfl := Except.ok.inj h
    simp only []
    omega

end

section

variable {T : Type} [PayrollEntry T]

/-- What a payment is made from: the recipient and the amount of an entry. -/
def payee (e : T) : Option String × Option Amount := (PayrollEntry.recipient e, PayrollEntry.amount e)

/-- The recipients and amounts of the first `k` batches of `entries`, position
by position. -/
def prefixPayees (entries : List T) (batchSize k : Nat) : List (Option String × Option Amount) :=
  ((batchPages entries batchSize).take k).flatMap fun batch => batch.items.map payee

theorem prefixPayees_eq (entries : List T) {batchSize : Nat} (h : 0 < batchSize) (k : Nat) :
    prefixPayees entries batchSize k = (entries.take (k * batchSize)).map payee := by
  have hmin : entries.take (min k (totalPages entries.length batchSize) * batchSize) =
      entries.take (k * batchSize) := by
    rcases Nat.le_total k (totalPages entries.length batchSize) with hk | hk
    · rw [Nat.min_eq_left hk]
    · have hall := le_totalPages_mul (n := entries.length) h
      rw [Nat.min_eq_right hk, List.take_of_length_le hall,
        List.take_of_length_le (hall.trans (Nat.mul_le_mul_right _ hk))]
  rw [prefixPayees, batchPages, ← List.map_take, List.take_range, ← hmin,
    ← flatten_range_pages entries batchSize, List.map_flatten, List.map_map, List.flatMap_map,
    List.flatMap_def]
  rfl

/-- When `resolveResumeStart` accepts a token made for `E` with the entries
`E'`. -/
theorem resolveResumeStart_ok_iff {host : Host} (hsha : Function.Injective host.sha256) (E E' : List T)
    {k items n b t : Int} :
    (∃ r, resolveResumeStart host E' (some b) (createBatchResumeToken host E k items n b t) = .ok r) ↔
      0 < b ∧ 0 ≤ k ∧ k ≤ totalPages E'.length b.toNat ∧
        commitmentPreimage host.toUpperCase (toCommitmentInput E') =
          commitmentPreimage host.toUpperCase (toCommitmentInput E) := by
  rcases lt_or_ge 0 b with hb | hb
  · rw [resolveResumeStart_create host E E' hb]
    simp only [ne_eq, computeEntriesCommitment_eq_iff hsha]
    split
    · rename_i h; simp [h]
    · rename_i h
      split
      · rename_i hr
        simp only [reduceCtorEq, exists_false, false_iff]
        omega
      · rename_i hr
        simp only [Except.ok.injEq, exists_eq', true_iff]
        exact ⟨hb, by omega, by omega, not_not.mp h⟩
  · have hbad : ∃ e, assertValidPageSize (some b) = .error e := by
      rw [assertValidPageSize, if_pos hb]
      exact ⟨_, rfl⟩
    obtain ⟨e, he⟩ := hbad
    rw [resolveResumeStart, he]
    simp only [bind, Except.bind, reduceCtorEq, exists_false, false_iff]
    omega

/-- A token is accepted for every re-ordering of the entries it was made
for. -/
theorem resolveResumeStart_reordered {host : Host} {E E' : List T} (h : E'.Perm E) {k items n b t : Int}
    (hb : 0 < b) (hk : 0 ≤ k) (hn : k ≤ totalPages E.length b.toNat) :
    resolveResumeStart host E' (some b) (createBatchResumeToken host E k items n b t) =
      .ok { startBatchIndex := k, itemsAlreadyProcessed := items,
            checkpoint := makeCheckpoint host E k items n b t } := by
  have hlines : ((toCommitmentInput E').map (entryLine host.toUpperCase)).Perm
      ((toCommitmentInput E).map (entryLine host.toUpperCase)) := (h.map _).map _
  have hlen := h.length_eq
  rw [resolveResumeStart_create host E E' hb, computeEntriesCommitment, computeEntriesCommitment,
    commitmentPreimage_perm hlines, if_neg (by simp), if_neg (by rw [hlen]; omega)]

/-- The batches that a token skips hold the payments of the batches that it
was made after, unless the two lists have one pre-image and differ in the first
`k * b` payments. -/
theorem token_binds_prefix_iff {host : Host} (hsha : Function.Injective host.sha256) (E E' : List T)
    (k items n b t : Int) :
    ((∃ r, resolveResumeStart host E' (some b) (createBatchResumeToken host E k items n b t) = .ok r) →
        prefixPayees E' b.toNat k.toNat = prefixPayees E b.toNat k.toNat) ↔
      ¬ (0 < b ∧ 0 ≤ k ∧ k ≤ totalPages E'.length b.toNat ∧
        commitmentPreimage host.toUpperCase (toCommitmentInput E') =
          commitmentPreimage host.toUpperCase (toCommitmentInput E) ∧
        (E'.take (k.toNat * b.toNat)).map payee ≠ (E.take (k.toNat * b.toNat)).map payee) := by
  rw [resolveResumeStart_ok_iff hsha]
  constructor
  · rintro h ⟨hb, hk, hn, hpre, hne⟩
    have hpos : 0 < b.toNat := by omega
    have := h ⟨hb, hk, hn, hpre⟩
    rw [prefixPayees_eq E' hpos, prefixPayees_eq E hpos] at this
    exact hne this
  · rintro h ⟨hb, hk, hn, hpre⟩
    have hpos : 0 < b.toNat := by omega
    rw [prefixPayees_eq E' hpos, prefixPayees_eq E hpos]
    by_contra hne
    exact h ⟨hb, hk, hn, hpre, hne⟩

/-- SHA-256 as it is on the lists of employees below, and upper case for
ASCII. -/
def plainHost : Host where
  sha256 := hashFrom
    [("GALICE:100|GBOB:200", digest "beece9bc9b24ee12c346f11f8a6af3f2a1345e2fa16c250170415a5a08005b3b"),
      ("GALICE:150|GBOB:200", digest "11bf5c77453d0b0d3866f70281a2e4dcbdba220798b8bb3fbcb03c4251ba8cc8")]
  toUpperCase s := String.ofList (s.toList.map Char.toUpper)

theorem plainHost_injective : Function.Injective plainHost.sha256 :=
  hashFrom_injective (by decide +kernel) (by decide +kernel)

/-- Two employees, in the order of the first submission. -/
def aliceBob : List PaymentParams :=
  [{ recipient := "GALICE", amount := 100, asset := "native" },
    { recipient := "GBOB", amount := 200, asset := "native" }]

/-- A token made after the batch of the first employee is accepted with the
list reversed, and then skips the second employee. -/
theorem token_accepts_reversed :
    Function.Injective plainHost.sha256 ∧
      (∃ r, resolveResumeStart plainHost aliceBob.reverse (some 1)
        (createBatchResumeToken plainHost aliceBob 1 1 2 1 0) = .ok r ∧ r.startBatchIndex = 1) ∧
      prefixPayees aliceBob.reverse 1 1 ≠ prefixPayees aliceBob 1 1 := by
  refine ⟨plainHost_injective, ⟨_, resolveResumeStart_reordered (List.reverse_perm _) ?_ ?_ ?_, rfl⟩,
    by decide⟩ <;> decide

/-- The same employees, with the amount of the first changed. -/
def aliceRaised : List PaymentParams :=
  [{ recipient := "GALICE", amount := 150, asset := "native" },
    { recipient := "GBOB", amount := 200, asset := "native" }]

theorem aliceRaised_preimage :
    commitmentPreimage plainHost.toUpperCase (toCommitmentInput aliceRaised) ≠
      commitmentPreimage plainHost.toUpperCase (toCommitmentInput aliceBob) := by
  decide +kernel

/-- With one amount changed, the token is refused, and nothing is skipped. -/
theorem token_binds_aliceRaised :
    commitmentPreimage plainHost.toUpperCase (toCommitmentInput aliceRaised) ≠
        commitmentPreimage plainHost.toUpperCase (toCommitmentInput aliceBob) ∧
      ((∃ r, resolveResumeStart plainHost aliceRaised (some 1)
          (createBatchResumeToken plainHost aliceBob 1 1 2 1 0) = .ok r) →
        prefixPayees aliceRaised 1 1 = prefixPayees aliceBob 1 1) :=
  ⟨aliceRaised_preimage, (token_binds_prefix_iff plainHost_injective aliceBob aliceRaised 1 1 2 1 0).mpr
    fun h => aliceRaised_preimage h.2.2.2.1⟩

end

end ZkPayroll.Payroll
