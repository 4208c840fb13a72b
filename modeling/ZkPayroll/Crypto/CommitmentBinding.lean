import ZkPayroll.Batches.DraftCommitment
import ZkPayroll.Core.Errors
import ZkPayroll.Framework.Encoding
import ZkPayroll.Framework.Separated
import ZkPayroll.Simulation.CommitmentGenerator

/-!
# What commitments bind

`computeMemoCommitment` of `crypto/memoCommitment.ts`: the SHA-256 of the
encrypted payload and its context, joined by `|`. The first field cannot be
empty, so a `|` at its start cannot have come from another field; any other
`|` inside of a field can (`memo_ambiguous`), and without one the fields are
found again (`memo_fields_eq`).

Three commitments hash fields joined by `|`. `commitments_bind_iff` says for
which inputs a commitment is given to no input that differs in a field: a
field that contains the separator can give up text to the field beside it
without a change of the hash.
-/

namespace ZkPayroll.Crypto

section

open Framework ZkPayroll.Core

/-- `MemoCommitmentContext`. -/
structure MemoCommitmentContext where
  encryptedPayload : String
  asset : Option String := none
  periodId : Option String := none
  recipientId : Option String := none
  deriving DecidableEq

/-- What `computeMemoCommitment` hashes. -/
def memoPreimage (context : MemoCommitmentContext) : String :=
  "|".intercalate
    ["zkpayroll-memo-commitment-v1", context.encryptedPayload, context.recipientId.getD "",
      context.asset.getD "", context.periodId.getD ""]

/-- `computeMemoCommitment(context)`, where `sha256` is the hash of the UTF-8
encoding of a string. -/
def computeMemoCommitment (sha256 : String → List UInt8) (context : MemoCommitmentContext) :
    Except SdkError String :=
  if context.encryptedPayload = "" then
    .error (validationError
      "encryptedPayload must be a non-empty encrypted string; raw plaintext memos are never committed"
      "encryptedPayload" "MEMO_COMMITMENT_INVALID_PAYLOAD")
  else .ok ("memo:" ++ String.ofList (hexEncode (sha256 (memoPreimage context))))

/-- The contexts agree, an absent field counting as empty. -/
structure SameMemo (c d : MemoCommitmentContext) : Prop where
  encryptedPayload : c.encryptedPayload = d.encryptedPayload
  recipientId : c.recipientId.getD "" = d.recipientId.getD ""
  asset : c.asset.getD "" = d.asset.getD ""
  periodId : c.periodId.getD "" = d.periodId.getD ""

/-- No field has a `|`, except for one that starts the payload. -/
structure MemoUnambiguous (c : MemoCommitmentContext) : Prop where
  encryptedPayload : '|' ∉ c.encryptedPayload.toList.tail
  recipientId : '|' ∉ (c.recipientId.getD "").toList
  asset : '|' ∉ (c.asset.getD "").toList
  periodId : '|' ∉ (c.periodId.getD "").toList

/-- The fields as they are joined. -/
def MemoCommitmentContext.fields (c : MemoCommitmentContext) : List (List Char) :=
  [c.encryptedPayload.toList, (c.recipientId.getD "").toList, (c.asset.getD "").toList,
    (c.periodId.getD "").toList]

theorem toList_memoPreimage (c : MemoCommitmentContext) :
    (memoPreimage c).toList = "zkpayroll-memo-commitment-v1".toList ++ separate '|' c.fields :=
  toList_intercalate_cons '|' _ _

variable {c d : MemoCommitmentContext}

theorem memoPreimage_eq_iff :
    memoPreimage c = memoPreimage d ↔ separate '|' c.fields = separate '|' d.fields := by
  rw [← String.toList_inj, toList_memoPreimage, toList_memoPreimage, List.append_right_inj]

/-- Where SHA-256 does not collide, contexts have one commitment exactly when
they are hashed alike. -/
theorem computeMemoCommitment_eq_iff {sha256 : String → List UInt8} (hsha : Function.Injective sha256)
    {commitment : String} (hc : computeMemoCommitment sha256 c = .ok commitment) :
    computeMemoCommitment sha256 d = .ok commitment ↔
      d.encryptedPayload ≠ "" ∧ separate '|' d.fields = separate '|' c.fields := by
  rw [← memoPreimage_eq_iff]
  unfold computeMemoCommitment at hc ⊢
  split at hc
  · cases hc
  · cases hc
    split
    · rename_i hempty
      simp [hempty]
    · rename_i hne
      simp only [Except.ok.injEq, String.append_right_inj, String.ofList_inj, hexEncode_injective.eq_iff,
        hsha.eq_iff]
      exact ⟨fun h => ⟨hne, h⟩, And.right⟩

theorem sameMemo_of_fields_eq (h : d.fields = c.fields) : SameMemo d c := by
  simp only [MemoCommitmentContext.fields, List.cons.injEq, String.toList_inj, and_true] at h
  exact ⟨h.1, h.2.1, h.2.2.1, h.2.2.2⟩

/-- Fields without a `|` are found again. -/
theorem memo_fields_eq (hc : c.encryptedPayload ≠ "") (hd : d.encryptedPayload ≠ "")
    (hu : MemoUnambiguous c) (h : separate '|' d.fields = separate '|' c.fields) : d.fields = c.fields := by
  have hne : ∀ {s : String}, s ≠ "" → s.toList ≠ [] := fun hs => mt String.toList_eq_nil_iff.mp hs
  refine (separate_inj_of_ne_nil ?_ (hne hc) (hne hd) hu.encryptedPayload ?_ h.symm).symm
  · rfl
  · simpa using ⟨hu.recipientId, hu.asset, hu.periodId⟩

/-- Text moves across a `|` into the field beside it. -/
theorem memo_ambiguous {c : MemoCommitmentContext} (hc : c.encryptedPayload ≠ "") (hu : ¬MemoUnambiguous c) :
    ∃ d : MemoCommitmentContext, d.encryptedPayload ≠ "" ∧
      separate '|' d.fields = separate '|' c.fields ∧ ¬SameMemo d c := by
  by_cases hpayload : '|' ∈ c.encryptedPayload.toList.tail
  · obtain ⟨pre, post, hsplit⟩ := List.append_of_mem hpayload
    obtain ⟨a, xs, hx⟩ := List.exists_cons_of_ne_nil (mt String.toList_eq_nil_iff.mp hc)
    rw [hx, List.tail_cons] at hsplit
    refine ⟨{ c with
      encryptedPayload := String.ofList (a :: pre)
      recipientId := some (String.ofList (post ++ '|' :: (c.recipientId.getD "").toList)) }, ?_, ?_, fun h => ?_⟩
    · simp
    · simp [MemoCommitmentContext.fields, hx, hsplit]
    · have := congrArg String.toList h.encryptedPayload
      simp [hx, hsplit] at this
  by_cases hrecipient : '|' ∈ (c.recipientId.getD "").toList
  · obtain ⟨pre, post, hsplit⟩ := List.append_of_mem hrecipient
    refine ⟨{ c with
      recipientId := some (String.ofList pre)
      asset := some (String.ofList (post ++ '|' :: (c.asset.getD "").toList)) }, hc, ?_, fun h => ?_⟩
    · simp [MemoCommitmentContext.fields, hsplit]
    · have := congrArg String.toList h.recipientId
      simp [hsplit] at this
  by_cases hasset : '|' ∈ (c.asset.getD "").toList
  · obtain ⟨pre, post, hsplit⟩ := List.append_of_mem hasset
    refine ⟨{ c with
      asset := some (String.ofList pre)
      periodId := some (String.ofList (post ++ '|' :: (c.periodId.getD "").toList)) }, hc, ?_, fun h => ?_⟩
    · simp [MemoCommitmentContext.fields, hsplit]
    · have := congrArg String.toList h.asset
      simp [hsplit] at this
  by_cases hperiod : '|' ∈ (c.periodId.getD "").toList
  · obtain ⟨pre, post, hsplit⟩ := List.append_of_mem hperiod
    refine ⟨{ c with
      asset := some (String.ofList ((c.asset.getD "").toList ++ '|' :: pre))
      periodId := some (String.ofList post) }, hc, ?_, fun h => ?_⟩
    · simp [MemoCommitmentContext.fields, hsplit]
    · have := congrArg String.toList h.asset
      simp at this
  exact absurd ⟨hpayload, hrecipient, hasset, hperiod⟩ hu

end

section

open Framework ZkPayroll.Core Simulation Batches

/-- What is given to `x` is given only to what agrees with `x`. -/
def Binds {α : Type} (gives : α → String → Prop) (agree : α → α → Prop) (x : α) : Prop :=
  ∀ y commitment, gives x commitment → gives y commitment → agree y x

/-- The commitment is that of the memo. -/
def GivesMemo (sha256 : String → List UInt8) (c : MemoCommitmentContext) (commitment : String) : Prop :=
  computeMemoCommitment sha256 c = .ok commitment

/-- The commitment is that of the draft. -/
def GivesDraft {ν : Type} [NumberFormat ν] (sha256 : String → List UInt8) (d : CompiledPayrollDraft ν)
    (commitment : String) : Prop :=
  computeDraftMetadataCommitment sha256 d = commitment

variable {sha256 : String → List UInt8}

theorem memo_binds_iff (hsha : Function.Injective sha256) (c : MemoCommitmentContext) :
    Binds (GivesMemo sha256) SameMemo c ↔ c.encryptedPayload = "" ∨ MemoUnambiguous c := by
  by_cases hempty : c.encryptedPayload = ""
  · refine iff_of_true (fun d commitment hc => ?_) (.inl hempty)
    rw [GivesMemo, computeMemoCommitment, if_pos hempty] at hc
    cases hc
  have hgiven : GivesMemo sha256 c ("memo:" ++ String.ofList (hexEncode (sha256 (memoPreimage c)))) := by
    rw [GivesMemo, computeMemoCommitment, if_neg hempty]
  rw [or_iff_right hempty]
  constructor
  · intro hbinds
    by_contra hu
    obtain ⟨d, hd, hfields, hother⟩ := memo_ambiguous hempty hu
    exact hother (hbinds d _ hgiven ((computeMemoCommitment_eq_iff hsha hgiven).mpr ⟨hd, hfields⟩))
  · intro hu d commitment hc hd
    obtain ⟨hne, hfields⟩ := (computeMemoCommitment_eq_iff hsha hc).mp hd
    exact sameMemo_of_fields_eq (memo_fields_eq hempty hne hu hfields)

theorem salary_binds_iff (hsha : Function.Injective sha256) (l : Line) :
    Binds (CommitsTo sha256) SameLine l ↔ SalaryUnambiguous l := by
  constructor
  · intro hbinds
    by_contra hu
    obtain ⟨m, htext, hother⟩ := salary_ambiguous hu
    refine hother (hbinds m _ (commitsTo_iff.mpr rfl) (commitsTo_iff.mpr ?_))
    exact (computeCommitmentHash_eq_iff hsha).mpr htext
  · intro hu m hash hl hm
    rw [commitsTo_iff] at hl hm
    exact salary_fields_eq hu ((computeCommitmentHash_eq_iff hsha).mp (hm.trans hl.symm))

theorem draft_binds_iff {ν : Type} [NumberFormat ν] (hsha : Function.Injective sha256)
    (d : CompiledPayrollDraft ν) : Binds (GivesDraft sha256) SameDraft d ↔ DraftUnambiguous d := by
  constructor
  · intro hbinds
    by_contra hu
    obtain ⟨c, htext, hother⟩ := draft_ambiguous hu
    exact hother (hbinds c _ rfl ((computeDraftMetadataCommitment_eq_iff hsha).mpr htext))
  · intro hu c commitment hd hc
    exact draft_fields_eq hu ((computeDraftMetadataCommitment_eq_iff hsha).mp (hc.trans hd.symm))

/-- A commitment binds all that it covers exactly when no covered text has a
separator that can be taken for another, and JSON can write what is written as
JSON. -/
theorem commitments_bind_iff {ν : Type} [NumberFormat ν] (hsha : Function.Injective sha256) :
    (∀ c : MemoCommitmentContext,
      Binds (GivesMemo sha256) SameMemo c ↔ c.encryptedPayload = "" ∨ MemoUnambiguous c) ∧
    (∀ l : Line, Binds (CommitsTo sha256) SameLine l ↔ SalaryUnambiguous l) ∧
    ∀ d : CompiledPayrollDraft ν, Binds (GivesDraft sha256) SameDraft d ↔ DraftUnambiguous d :=
  ⟨memo_binds_iff hsha, salary_binds_iff hsha, draft_binds_iff hsha⟩

/-- SHA-256 as it is on the texts below. -/
def knownSha256 : String → List UInt8 :=
  hashFrom
    [("zkpayroll-memo-commitment-v1|iv:tag:cipher|GALICE|native|2026-01",
        digest "0cfbba057a05da6ec387e64794cb6af3a981dd391619287ec17514507018526e"),
      ("zkpayroll-commitment-v1|emp-1|GALICE|2026-01|100|native",
        digest "59870dbebf675cf33e236d1309d6b2edf708caf1fe65fe7d375caeff7dfe5009"),
      ("zkpayroll-draft-metadata-v1|draft-1|100|native|2026-02-01T00:00:00Z|\x7b\"policyId\":\"a|b\"\x7d|[\x7b\"approverId\":\"alice\"\x7d]",
        digest "83597808fe4e4d7bd932f9374d2534eeeb427fe48affb311210faf57c7ab34de"),
      ("zkpayroll-memo-commitment-v1|iv|cipher|GALICE|native|",
        digest "58a8849e5bd4dc602995c1a3ade6070b635d5608c55879287c5ea1d944a1f7ab"),
      ("zkpayroll-commitment-v1|emp|7|GALICE|2026-01|100|native",
        digest "1601ad00bb99985ea11fed5b32afb6b5b17957d7825c299fd2138f828f0989ee"),
      ("zkpayroll-draft-metadata-v1|draft-1|9|100|native|2026-02-01T00:00:00Z|\x7b\x7d|[]",
        digest "73d0ab0527ebc3f5afbafe115efca1cf0b09c5a07ae32d7ccfe0a0d1cec520c5")]

theorem knownSha256_injective : Function.Injective knownSha256 :=
  hashFrom_injective (by decide +kernel) (by decide +kernel)

def plainMemo : MemoCommitmentContext :=
  { encryptedPayload := "iv:tag:cipher", recipientId := some "GALICE", asset := some "native", periodId := some "2026-01" }

def plainLine : Line :=
  { employee := { id := "emp-1", address := "GALICE", salaryAmount := 100, asset := "native" }
    period := { periodId := "2026-01", startDate := "2026-01-01", endDate := "2026-01-31" } }

def plainDraft : CompiledPayrollDraft Int where
  draftId := "draft-1"
  totalAmount := "100"
  asset := "native"
  scheduleTimestamp := "2026-02-01T00:00:00Z"
  policy := .obj [("policyId", .str "a|b")]
  approvals := .arr [.obj [("approverId", .str "alice")]]
  distinct_policy := by simp [DistinctKeys, DistinctFields]
  distinct_approvals := by simp [DistinctKeys, DistinctFields, DistinctItems]

/-- Commitments to inputs without a misleading separator bind them. -/
theorem plain_commitments_bind :
    computeMemoCommitment knownSha256 plainMemo =
        .ok "memo:0cfbba057a05da6ec387e64794cb6af3a981dd391619287ec17514507018526e" ∧
      Binds (GivesMemo knownSha256) SameMemo plainMemo ∧ Binds (CommitsTo knownSha256) SameLine plainLine ∧
        Binds (GivesDraft knownSha256) SameDraft plainDraft := by
  obtain ⟨hmemo, hline, hdraft⟩ := commitments_bind_iff (ν := Int) knownSha256_injective
  refine ⟨by rfl, (hmemo _).mpr (.inr ?_), (hline _).mpr ?_, (hdraft _).mpr ?_⟩
  · exact ⟨by decide, by decide, by decide, by decide⟩
  · refine ⟨by decide, by decide, by decide, ?_⟩
    rintro ⟨n, post, h | ⟨pre, h⟩⟩
    · have hbar : '|' ∈ plainLine.employee.asset.toList := by rw [h]; simp
      revert hbar
      decide
    · have hbar : '|' ∈ plainLine.employee.asset.toList := by rw [h]; simp
      revert hbar
      decide
  · exact ⟨by decide, by decide, by decide, by decide, by decide, by decide⟩

def barredMemo : MemoCommitmentContext :=
  { encryptedPayload := "iv|cipher", recipientId := some "GALICE", asset := some "native" }

def barredLine : Line :=
  { employee := { id := "emp|7", address := "GALICE", salaryAmount := 100, asset := "native" }
    period := { periodId := "2026-01", startDate := "2026-01-01", endDate := "2026-01-31" } }

def barredDraft : CompiledPayrollDraft Int where
  draftId := "draft-1|9"
  totalAmount := "100"
  asset := "native"
  scheduleTimestamp := "2026-02-01T00:00:00Z"
  policy := .obj []
  approvals := .arr []
  distinct_policy := ⟨List.nodup_nil, trivial⟩
  distinct_approvals := trivial

/-- The text after a `|` counts for the field beside it as well: the recipient
`cipher|GALICE`, the address `7|GALICE` and the total `9|100` have the same
commitments. -/
theorem barred_commitments_shared :
    Function.Injective knownSha256 ∧ ¬Binds (GivesMemo knownSha256) SameMemo barredMemo ∧
      ¬Binds (CommitsTo knownSha256) SameLine barredLine ∧
        ¬Binds (GivesDraft knownSha256) SameDraft barredDraft := by
  refine ⟨knownSha256_injective, fun h => ?_, fun h => ?_, fun h => ?_⟩
  · have hother := h { barredMemo with encryptedPayload := "iv", recipientId := some "cipher|GALICE" } _ rfl rfl
    exact absurd hother.encryptedPayload (by decide)
  · have hother := h { barredLine with employee := { barredLine.employee with id := "emp", address := "7|GALICE" } } _
      (commitsTo_iff.mpr rfl) (commitsTo_iff.mpr rfl)
    exact absurd hother.id (by decide)
  · have hother := h { barredDraft with draftId := "draft-1", totalAmount := "9|100" } _ rfl rfl
    exact absurd hother.draftId (by decide)

end

end ZkPayroll.Crypto
