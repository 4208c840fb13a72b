import Mathlib.Data.List.Perm.Lattice
import ZkPayroll.Batches.DraftCommitment
import ZkPayroll.Framework.BigIntText
import ZkPayroll.Framework.Firsts
import ZkPayroll.Framework.Sha256
import ZkPayroll.Framework.Utf8

/-!
# The difference of two drafts

`diffPayrollBatches` of `batches/diff.ts`. Drafts have no differences just if
they are the same draft in every part (`hasDifferences_iff`): their ids are
compared as well, amounts as integers where both are one, and policies and
approvals by their JSON text. The difference of two drafts in the other order
has the same changes, each the other way round (`diff_swap`): what comes first
in a list of changes may depend on the order of the drafts, where the locale
takes two names for equal.
-/

namespace ZkPayroll.Batches

open Framework

structure PayrollDraftRecipient where
  recipientId : String
  amount : String
  /-- The asset, where it is a string. -/
  asset : Option String
  deriving DecidableEq

/-- A draft with its recipients. -/
structure PayrollDraft (ν : Type) extends CompiledPayrollDraft ν where
  recipients : List PayrollDraftRecipient

inductive DraftRecipientChangeKind where
  | added
  | removed
  | edited
  deriving DecidableEq

structure DraftRecipientDiff where
  kind : DraftRecipientChangeKind
  recipientId : String
  previousAmount : Option String := none
  currentAmount : Option String := none
  amountChanged : Bool
  assetChanged : Bool
  previousAsset : Option String := none
  currentAsset : Option String := none
  previousCommitment : Option String := none
  currentCommitment : Option String := none
  deriving DecidableEq

structure DraftMetadataChange where
  field : String
  previous : Option String := none
  current : Option String := none
  deriving DecidableEq

/-- Two digests of metadata, compared. -/
structure MetadataCommitment where
  previous : String
  current : String
  changed : Bool
  deriving DecidableEq

structure PayrollBatchDiff where
  hasDifferences : Bool
  changedFields : List String
  recipients : List DraftRecipientDiff
  addedRecipientIds : List String
  removedRecipientIds : List String
  editedRecipientIds : List String
  assetChanges : List DraftMetadataChange
  metadataChanges : List DraftMetadataChange
  metadataCommitment : MetadataCommitment
  redacted : Bool
  deriving DecidableEq

/-! ## Recipients -/

def REDACTED_PLACEHOLDER : String := "[REDACTED]"

def revealValue (value : String) (reveal : Bool) : String := if reveal then value else REDACTED_PLACEHOLDER

def amountsEqual (a b : String) : Bool :=
  if a = b then true
  else
    match bigIntOf a, bigIntOf b with
    | some m, some n => m = n
    | _, _ => false

/-- The recipients by id: the first one of each. -/
def indexRecipients (recipients : List PayrollDraftRecipient) : List PayrollDraftRecipient :=
  firsts (·.recipientId) [] recipients

/-- `byKey.get(recipientId)` -/
def getRecipient (byKey : List PayrollDraftRecipient) (recipientId : String) : Option PayrollDraftRecipient :=
  byKey.find? fun r => r.recipientId = recipientId

section

variable (sha256 : String → List UInt8) (reveal : Bool)

def recipientCommitment (recipient : PayrollDraftRecipient) : String :=
  "recipient:" ++ String.ofList (hexEncode (sha256
    ("|".intercalate ["zkpayroll-recipient-v1", recipient.amount, recipient.asset.getD ""])))

def addedDiff (current : PayrollDraftRecipient) : DraftRecipientDiff where
  kind := .added
  recipientId := current.recipientId
  currentAmount := some (revealValue current.amount reveal)
  amountChanged := false
  assetChanged := false
  currentAsset := current.asset
  currentCommitment := some (recipientCommitment sha256 current)

def removedDiff (previous : PayrollDraftRecipient) : DraftRecipientDiff where
  kind := .removed
  recipientId := previous.recipientId
  previousAmount := some (revealValue previous.amount reveal)
  amountChanged := false
  assetChanged := false
  previousAsset := previous.asset
  previousCommitment := some (recipientCommitment sha256 previous)

/-- The change of a recipient of both drafts, if there is one. -/
def editedDiff (previous current : PayrollDraftRecipient) : Option DraftRecipientDiff :=
  let amountChanged := !amountsEqual previous.amount current.amount
  let assetChanged := decide (previous.asset ≠ current.asset)
  if amountChanged || assetChanged then
    some { kind := .edited
           recipientId := current.recipientId
           previousAmount := some (revealValue previous.amount reveal)
           currentAmount := some (revealValue current.amount reveal)
           amountChanged := amountChanged
           assetChanged := assetChanged
           previousAsset := previous.asset
           currentAsset := current.asset
           previousCommitment := some (recipientCommitment sha256 previous)
           currentCommitment := some (recipientCommitment sha256 current) }
  else none

/-- The loop over the recipients of the modified draft, and that over those of
the original one. -/
def recipientDiffs (originalByKey modifiedByKey : List PayrollDraftRecipient) : List DraftRecipientDiff :=
  (modifiedByKey.filterMap fun current =>
    match getRecipient originalByKey current.recipientId with
    | none => some (addedDiff sha256 reveal current)
    | some previous => editedDiff sha256 reveal previous current) ++
  (originalByKey.filter fun previous => getRecipient modifiedByKey previous.recipientId = none).map
    (removedDiff sha256 reveal)

end

/-- The ids that are pushed together with the changes of a kind. -/
def idsOf (kind : DraftRecipientChangeKind) (diffs : List DraftRecipientDiff) : List String :=
  (diffs.filter fun d => d.kind = kind).map (·.recipientId)

/-- The changes of assets that are pushed together with those of recipients. -/
def recipientAssetChanges (diffs : List DraftRecipientDiff) : List DraftMetadataChange :=
  (diffs.filter (·.assetChanged)).map fun d =>
    { field := s!"recipients[{d.recipientId}].asset", previous := d.previousAsset, current := d.currentAsset }

/-- The fields of `changedFields` about recipients, before they are sorted. -/
def recipientFields (diffs : List DraftRecipientDiff) : List String :=
  (if diffs.any (·.amountChanged) then ["recipients.edited"] else []) ++
  (if diffs.any (·.assetChanged) then ["recipients.assets"] else []) ++
  (if (idsOf .added diffs).length > 0 then ["recipients.added"] else []) ++
  (if (idsOf .removed diffs).length > 0 then ["recipients.removed"] else [])

/-! ## Drafts -/

variable {ν : Type} [NumberFormat ν]

/-- The fields of a draft that are compared, and whether they differ. -/
def metadataFields (original modified : PayrollDraft ν) : List (String × Bool) :=
  [("draftId", original.draftId ≠ modified.draftId),
    ("totalAmount", original.totalAmount ≠ modified.totalAmount),
    ("asset", original.asset ≠ modified.asset),
    ("scheduleTimestamp", original.scheduleTimestamp ≠ modified.scheduleTimestamp),
    ("policy", stableStringify original.policy ≠ stableStringify modified.policy),
    ("approvals", stableStringify original.approvals ≠ stableStringify modified.approvals)]

def metadataChanges (reveal : Bool) (original modified : PayrollDraft ν) : List DraftMetadataChange :=
  (if original.draftId ≠ modified.draftId then
    [{ field := "draftId", previous := some original.draftId, current := some modified.draftId }] else []) ++
  (if original.totalAmount ≠ modified.totalAmount then
    [{ field := "totalAmount"
       previous := some (revealValue original.totalAmount reveal)
       current := some (revealValue modified.totalAmount reveal) }] else []) ++
  (if original.scheduleTimestamp ≠ modified.scheduleTimestamp then
    [{ field := "scheduleTimestamp"
       previous := some original.scheduleTimestamp
       current := some modified.scheduleTimestamp }] else []) ++
  (if stableStringify original.policy ≠ stableStringify modified.policy then [{ field := "policy" }] else []) ++
  (if stableStringify original.approvals ≠ stableStringify modified.approvals then [{ field := "approvals" }] else [])

def draftAssetChanges (original modified : PayrollDraft ν) : List DraftMetadataChange :=
  if original.asset ≠ modified.asset then
    [{ field := "asset", previous := some original.asset, current := some modified.asset }] else []

def kindOrder : DraftRecipientChangeKind → Int
  | .added => 0
  | .removed => 1
  | .edited => 2

section

variable (sha256 : String → List UInt8) (localeCompare : String → String → Int)

/-- `xs.sort((a, b) => a.field.localeCompare(b.field))` -/
def sortByField (changes : List DraftMetadataChange) : List DraftMetadataChange :=
  changes.insertionSort fun a b => localeCompare a.field b.field ≤ 0

/-- The comparison of two changes of recipients: by id, then by kind. -/
def compareDiffs (a b : DraftRecipientDiff) : Int :=
  if localeCompare a.recipientId b.recipientId ≠ 0 then localeCompare a.recipientId b.recipientId
  else kindOrder a.kind - kindOrder b.kind

def sortDiffs (diffs : List DraftRecipientDiff) : List DraftRecipientDiff :=
  diffs.insertionSort fun a b => compareDiffs localeCompare a b ≤ 0

def diffPayrollBatches (reveal : Bool) (original modified : PayrollDraft ν) : PayrollBatchDiff :=
  let diffs := recipientDiffs sha256 reveal (indexRecipients original.recipients)
    (indexRecipients modified.recipients)
  let orderedFields := ((metadataFields original modified).filter (·.2)).map (·.1) ++
    sortStrings (recipientFields diffs)
  let previousCommitment := computeDraftMetadataCommitment sha256 original.toCompiledPayrollDraft
  let currentCommitment := computeDraftMetadataCommitment sha256 modified.toCompiledPayrollDraft
  { hasDifferences := orderedFields.length > 0
    changedFields := orderedFields
    recipients := sortDiffs localeCompare diffs
    addedRecipientIds := sortStrings (idsOf .added diffs)
    removedRecipientIds := sortStrings (idsOf .removed diffs)
    editedRecipientIds := sortStrings (idsOf .edited diffs)
    assetChanges := sortByField localeCompare (recipientAssetChanges diffs ++ draftAssetChanges original modified)
    metadataChanges := sortByField localeCompare (metadataChanges reveal original modified)
    metadataCommitment :=
      { previous := previousCommitment
        current := currentCommitment
        changed := previousCommitment ≠ currentCommitment }
    redacted := !reveal }

end

/-! ## No differences -/

/-- Two amounts that are one text, or one integer. -/
def SameAmount (a b : String) : Prop := a = b ∨ ∃ n, bigIntOf a = some n ∧ bigIntOf b = some n

/-- Two lists of recipients with the same payments. -/
structure SameRecipients (rs rs' : List PayrollDraftRecipient) : Prop where
  ids : ∀ id, id ∈ rs.map (·.recipientId) ↔ id ∈ rs'.map (·.recipientId)
  payments : ∀ r ∈ rs, ∀ r' ∈ rs', r.recipientId = r'.recipientId → SameAmount r.amount r'.amount ∧ r.asset = r'.asset

/-- The drafts agree in everything that is compared. -/
structure SamePayroll (original modified : PayrollDraft ν) : Prop where
  draftId : original.draftId = modified.draftId
  totalAmount : original.totalAmount = modified.totalAmount
  asset : original.asset = modified.asset
  scheduleTimestamp : original.scheduleTimestamp = modified.scheduleTimestamp
  policy : SameJson (written original.policy) (written modified.policy)
  approvals : SameJson (written original.approvals) (written modified.approvals)
  recipients : SameRecipients original.recipients modified.recipients

theorem amountsEqual_iff {a b : String} : amountsEqual a b = true ↔ SameAmount a b := by
  rw [amountsEqual, SameAmount]
  by_cases h : a = b
  · simp [h]
  · rw [if_neg h, or_iff_right h]
    cases ha : bigIntOf a with
    | none => simp
    | some m =>
      cases hb : bigIntOf b with
      | none => simp
      | some n => simp [eq_comm]

theorem indexRecipients_of_nodup {rs : List PayrollDraftRecipient} (h : (rs.map (·.recipientId)).Nodup) :
    indexRecipients rs = rs :=
  firsts_eq_self h fun _ _ => List.not_mem_nil

variable {sha256 : String → List UInt8} {reveal : Bool} {os ms : List PayrollDraftRecipient}

theorem getRecipient_eq_none {id : String} : getRecipient os id = none ↔ id ∉ os.map (·.recipientId) := by
  rw [getRecipient, List.find?_eq_none]
  simp

theorem getRecipient_eq_some {id : String} {r : PayrollDraftRecipient} (h : (os.map (·.recipientId)).Nodup) :
    getRecipient os id = some r ↔ r ∈ os ∧ r.recipientId = id := by
  constructor
  · intro hget
    exact ⟨List.mem_of_find?_eq_some hget, by simpa using List.find?_some hget⟩
  · intro ⟨hr, hid⟩
    rw [← indexRecipients_of_nodup h, indexRecipients] at hr
    rw [← hid]
    exact (mem_firsts_iff_find? (l := os) List.not_mem_nil).mp hr

variable {previous current : PayrollDraftRecipient}

theorem editedDiff_eq_none :
    editedDiff sha256 reveal previous current = none ↔
      SameAmount previous.amount current.amount ∧ previous.asset = current.asset := by
  rw [editedDiff, ← amountsEqual_iff]
  by_cases hamount : amountsEqual previous.amount current.amount = true
  · by_cases hasset : previous.asset = current.asset <;> simp [hamount, hasset]
  · simp [hamount]

/-- Recipients without changes have the same payments. -/
theorem recipientDiffs_eq_nil (ho : (os.map (·.recipientId)).Nodup) :
    recipientDiffs sha256 reveal os ms = [] ↔ SameRecipients os ms := by
  rw [recipientDiffs, List.append_eq_nil_iff, List.filterMap_eq_nil_iff, List.map_eq_nil_iff, List.filter_eq_nil_iff]
  constructor
  · intro ⟨hcurrent, hprevious⟩
    refine ⟨fun id => ⟨fun hid => ?_, fun hid => ?_⟩, fun r hr r' hr' hid => ?_⟩
    · obtain ⟨r, hr, rfl⟩ := List.mem_map.mp hid
      have hnone := hprevious r hr
      rw [decide_eq_true_eq, getRecipient_eq_none, not_not] at hnone
      exact hnone
    · obtain ⟨r', hr', rfl⟩ := List.mem_map.mp hid
      have hnone := hcurrent r' hr'
      by_contra hcontra
      rw [getRecipient_eq_none.mpr hcontra] at hnone
      cases hnone
    · have hnone := hcurrent r' hr'
      rw [(getRecipient_eq_some ho).mpr ⟨hr, hid⟩] at hnone
      exact editedDiff_eq_none.mp hnone
  · intro h
    refine ⟨fun r' hr' => ?_, fun r hr => ?_⟩
    · obtain ⟨r, hr, hid⟩ := List.mem_map.mp ((h.ids r'.recipientId).mpr (List.mem_map_of_mem hr'))
      rw [(getRecipient_eq_some ho).mpr ⟨hr, hid⟩]
      exact editedDiff_eq_none.mpr (h.payments r hr r' hr' hid)
    · rw [decide_eq_true_eq, getRecipient_eq_none, not_not]
      exact (h.ids r.recipientId).mp (List.mem_map_of_mem hr)

theorem changed_of_editedDiff {d : DraftRecipientDiff}
    (h : editedDiff sha256 reveal previous current = some d) : d.amountChanged = true ∨ d.assetChanged = true := by
  rw [editedDiff] at h
  split at h
  next hchanged =>
    cases h
    rwa [Bool.or_eq_true] at hchanged
  next => cases h

/-- A change of a recipient is one of those that have a field. -/
theorem changed_of_mem {d : DraftRecipientDiff} (h : d ∈ recipientDiffs sha256 reveal os ms) :
    d.amountChanged = true ∨ d.assetChanged = true ∨ d.kind = .added ∨ d.kind = .removed := by
  rw [recipientDiffs, List.mem_append, List.mem_filterMap, List.mem_map] at h
  rcases h with ⟨r, -, h⟩ | ⟨r, -, rfl⟩
  · split at h
    · cases h
      exact .inr (.inr (.inl rfl))
    · exact (changed_of_editedDiff h).imp_right .inl
  · exact .inr (.inr (.inr rfl))

theorem idsOf_eq_nil {kind : DraftRecipientChangeKind} {diffs : List DraftRecipientDiff} :
    ¬(idsOf kind diffs).length > 0 ↔ ∀ d ∈ diffs, d.kind ≠ kind := by
  rw [gt_iff_lt, List.length_pos_iff, not_not, idsOf, List.map_eq_nil_iff, List.filter_eq_nil_iff]
  simp

theorem ite_singleton_eq_nil {α : Type} {c : Prop} [Decidable c] {a : α} : (if c then [a] else []) = [] ↔ ¬c := by
  split <;> simp [*]

theorem recipientFields_eq_nil :
    recipientFields (recipientDiffs sha256 reveal os ms) = [] ↔ recipientDiffs sha256 reveal os ms = [] := by
  constructor
  · intro h
    simp only [recipientFields, List.append_eq_nil_iff, ite_singleton_eq_nil, idsOf_eq_nil, Bool.not_eq_true,
      List.any_eq_false] at h
    obtain ⟨⟨⟨hamount, hasset⟩, hadded⟩, hremoved⟩ := h
    refine List.eq_nil_iff_forall_not_mem.mpr fun d hd => ?_
    rcases changed_of_mem hd with h | h | h | h
    · exact absurd h (by simp [hamount d hd])
    · exact absurd h (by simp [hasset d hd])
    · exact hadded d hd h
    · exact hremoved d hd h
  · intro h
    rw [h]
    rfl

/-- Drafts without differences are the same. -/
theorem hasDifferences_iff {localeCompare : String → String → Int} {original modified : PayrollDraft ν}
    (ho : (original.recipients.map (·.recipientId)).Nodup) (hm : (modified.recipients.map (·.recipientId)).Nodup) :
    (diffPayrollBatches sha256 localeCompare reveal original modified).hasDifferences = false ↔
      SamePayroll original modified := by
  have hrecipients : sortStrings (recipientFields (recipientDiffs sha256 reveal (indexRecipients original.recipients)
      (indexRecipients modified.recipients))) = [] ↔ SameRecipients original.recipients modified.recipients := by
    rw [indexRecipients_of_nodup ho, indexRecipients_of_nodup hm, ← recipientDiffs_eq_nil ho, ← recipientFields_eq_nil]
    constructor
    · intro h
      exact (h ▸ sortStrings_perm _).nil_eq.symm
    · intro h
      rw [h]
      rfl
  have hfields : ((metadataFields original modified).filter (·.2)).map (·.1) = [] ↔
      original.draftId = modified.draftId ∧ original.totalAmount = modified.totalAmount ∧
        original.asset = modified.asset ∧ original.scheduleTimestamp = modified.scheduleTimestamp ∧
        stableStringify original.policy = stableStringify modified.policy ∧
        stableStringify original.approvals = stableStringify modified.approvals := by
    rw [List.map_eq_nil_iff, List.filter_eq_nil_iff]
    simp [metadataFields]
  show decide _ = false ↔ _
  rw [decide_eq_false_iff_not, gt_iff_lt, List.length_pos_iff, not_not, List.append_eq_nil_iff, hrecipients, hfields,
    stableStringify_eq_iff original.distinct_policy modified.distinct_policy,
    stableStringify_eq_iff original.distinct_approvals modified.distinct_approvals]
  constructor
  · intro ⟨⟨hid, htotal, hasset, hschedule, hpolicy, happrovals⟩, hsame⟩
    exact ⟨hid, htotal, hasset, hschedule, hpolicy, happrovals, hsame⟩
  · intro h
    exact ⟨⟨h.draftId, h.totalAmount, h.asset, h.scheduleTimestamp, h.policy, h.approvals⟩, h.recipients⟩

/-! ## The other order -/

/-- The change the other way round. -/
def DraftRecipientChangeKind.swap : DraftRecipientChangeKind → DraftRecipientChangeKind
  | .added => .removed
  | .removed => .added
  | .edited => .edited

/-- A change, seen from the other draft. -/
def DraftRecipientDiff.swap (d : DraftRecipientDiff) : DraftRecipientDiff where
  kind := d.kind.swap
  recipientId := d.recipientId
  previousAmount := d.currentAmount
  currentAmount := d.previousAmount
  amountChanged := d.amountChanged
  assetChanged := d.assetChanged
  previousAsset := d.currentAsset
  currentAsset := d.previousAsset
  previousCommitment := d.currentCommitment
  currentCommitment := d.previousCommitment

/-- The change the other way round. -/
def DraftMetadataChange.swap (c : DraftMetadataChange) : DraftMetadataChange where
  field := c.field
  previous := c.current
  current := c.previous

/-- A field of the recipients that are new in one draft, seen from the other. -/
def swapField (field : String) : String :=
  if field = "recipients.added" then "recipients.removed"
  else if field = "recipients.removed" then "recipients.added"
  else field

/-- The second difference is the first one, the other way round. -/
structure Swapped (d d' : PayrollBatchDiff) : Prop where
  hasDifferences : d'.hasDifferences = d.hasDifferences
  changedFields : d'.changedFields.Perm (d.changedFields.map swapField)
  recipients : d'.recipients.Perm (d.recipients.map DraftRecipientDiff.swap)
  added : d'.addedRecipientIds = d.removedRecipientIds
  removed : d'.removedRecipientIds = d.addedRecipientIds
  edited : d'.editedRecipientIds = d.editedRecipientIds
  assetChanges : d'.assetChanges.Perm (d.assetChanges.map DraftMetadataChange.swap)
  metadataChanges : d'.metadataChanges.Perm (d.metadataChanges.map DraftMetadataChange.swap)
  previous : d'.metadataCommitment.previous = d.metadataCommitment.current
  current : d'.metadataCommitment.current = d.metadataCommitment.previous
  changed : d'.metadataCommitment.changed = d.metadataCommitment.changed
  redacted : d'.redacted = d.redacted

/-- The recipients of both drafts, each with what it was. -/
def sharedRecipients (os ms : List PayrollDraftRecipient) : List (PayrollDraftRecipient × PayrollDraftRecipient) :=
  ms.filterMap fun current => (getRecipient os current.recipientId).map fun previous => (previous, current)

theorem mem_sharedRecipients (ho : (os.map (·.recipientId)).Nodup) :
    (previous, current) ∈ sharedRecipients os ms ↔
      previous ∈ os ∧ current ∈ ms ∧ previous.recipientId = current.recipientId := by
  rw [sharedRecipients, List.mem_filterMap]
  simp only [Option.map_eq_some_iff, getRecipient_eq_some ho, Prod.mk.injEq]
  constructor
  · intro ⟨r, hr, r', ⟨hr', hid⟩, heq, heq'⟩
    rw [← heq, ← heq']
    exact ⟨hr', hr, hid⟩
  · intro ⟨hprevious, hcurrent, hid⟩
    exact ⟨current, hcurrent, previous, ⟨hprevious, hid⟩, rfl, rfl⟩

theorem nodup_sharedRecipients (hm : (ms.map (·.recipientId)).Nodup) : (sharedRecipients os ms).Nodup := by
  refine hm.of_map.filterMap fun current current' pair h h' => ?_
  rw [Option.mem_map] at h h'
  obtain ⟨_, -, rfl⟩ := h
  obtain ⟨_, -, heq⟩ := h'
  exact (Prod.mk.inj heq).2.symm

theorem sharedRecipients_swap (ho : (os.map (·.recipientId)).Nodup) (hm : (ms.map (·.recipientId)).Nodup) :
    (sharedRecipients ms os).Perm ((sharedRecipients os ms).map Prod.swap) := by
  refine (List.perm_ext_iff_of_nodup (nodup_sharedRecipients ho)
    ((nodup_sharedRecipients hm).map Prod.swap_injective)).mpr fun pair => ?_
  rw [← Prod.swap_swap pair, List.mem_map_of_injective Prod.swap_injective, Prod.swap_swap]
  obtain ⟨previous, current⟩ := pair
  show (previous, current) ∈ sharedRecipients ms os ↔ (current, previous) ∈ sharedRecipients os ms
  rw [mem_sharedRecipients hm, mem_sharedRecipients ho]
  exact ⟨fun h => ⟨h.2.1, h.1, h.2.2.symm⟩, fun h => ⟨h.2.1, h.1, h.2.2.symm⟩⟩

theorem sharedRecipients_cons (current : PayrollDraftRecipient) :
    sharedRecipients os (current :: ms) =
      match getRecipient os current.recipientId with
      | none => sharedRecipients os ms
      | some previous => (previous, current) :: sharedRecipients os ms := by
  rw [sharedRecipients, List.filterMap_cons]
  cases getRecipient os current.recipientId <;> rfl

/-- The changes by kind: the recipients added, edited and removed. -/
theorem recipientDiffs_perm :
    (recipientDiffs sha256 reveal os ms).Perm
      ((ms.filter fun current => getRecipient os current.recipientId = none).map (addedDiff sha256 reveal) ++
        (sharedRecipients os ms).filterMap (fun pair => editedDiff sha256 reveal pair.1 pair.2) ++
        (os.filter fun previous => getRecipient ms previous.recipientId = none).map (removedDiff sha256 reveal)) := by
  refine List.Perm.append ?_ (List.Perm.refl _)
  induction ms with
  | nil => rfl
  | cons current ms ih =>
    rw [sharedRecipients_cons, List.filterMap_cons, List.filter_cons]
    cases hget : getRecipient os current.recipientId with
    | none => simpa using ih
    | some previous =>
      cases hedit : editedDiff sha256 reveal previous current with
      | none => simpa [hedit] using ih
      | some d =>
        simp only [hedit, List.filterMap_cons, reduceCtorEq, decide_false, Bool.false_eq_true, if_false]
        exact (ih.cons d).trans List.perm_middle.symm

theorem amountsEqual_comm (a b : String) : amountsEqual a b = amountsEqual b a := by
  rw [Bool.eq_iff_iff, amountsEqual_iff, amountsEqual_iff]
  constructor
  · intro h
    exact h.imp Eq.symm fun ⟨n, ha, hb⟩ => ⟨n, hb, ha⟩
  · intro h
    exact h.imp Eq.symm fun ⟨n, ha, hb⟩ => ⟨n, hb, ha⟩

theorem editedDiff_swap (h : previous.recipientId = current.recipientId) :
    editedDiff sha256 reveal current previous =
      (editedDiff sha256 reveal previous current).map DraftRecipientDiff.swap := by
  simp only [editedDiff, amountsEqual_comm current.amount, ne_comm (a := current.asset), h]
  split <;> rfl

theorem recipientDiffs_swap (ho : (os.map (·.recipientId)).Nodup) (hm : (ms.map (·.recipientId)).Nodup) :
    (recipientDiffs sha256 reveal ms os).Perm ((recipientDiffs sha256 reveal os ms).map DraftRecipientDiff.swap) := by
  have hshared : ((sharedRecipients ms os).filterMap fun pair => editedDiff sha256 reveal pair.1 pair.2).Perm
      (((sharedRecipients os ms).filterMap fun pair => editedDiff sha256 reveal pair.1 pair.2).map
        DraftRecipientDiff.swap) := by
    refine ((sharedRecipients_swap ho hm).filterMap _).trans (List.Perm.of_eq ?_)
    rw [List.filterMap_map, List.map_filterMap]
    refine List.filterMap_congr fun pair hpair => ?_
    exact editedDiff_swap ((mem_sharedRecipients ho).mp hpair).2.2
  refine recipientDiffs_perm.trans (.trans ?_ (recipientDiffs_perm.map _).symm)
  rw [List.map_append, List.map_append, List.map_map, List.map_map]
  refine List.perm_append_comm.trans ?_
  rw [List.append_assoc]
  exact List.Perm.append_left _ ((List.perm_append_comm).trans (hshared.append_right _))

/-! ## Sorted lists -/

variable {diffs diffs' : List DraftRecipientDiff}

theorem idsOf_swap (h : diffs'.Perm (diffs.map DraftRecipientDiff.swap))
    (kind : DraftRecipientChangeKind) : (idsOf kind diffs').Perm (idsOf kind.swap diffs) := by
  refine ((h.filter _).map _).trans (List.Perm.of_eq ?_)
  have hkind : ∀ d : DraftRecipientDiff, decide (d.swap.kind = kind) = decide (d.kind = kind.swap) := by
    intro d
    show decide (d.kind.swap = kind) = _
    cases d.kind <;> cases kind <;> rfl
  rw [List.filter_map, List.map_map, idsOf]
  exact congrArg (List.map _) (List.filter_congr fun d _ => hkind d)

theorem recipientAssetChanges_swap (h : diffs'.Perm (diffs.map DraftRecipientDiff.swap)) :
    (recipientAssetChanges diffs').Perm ((recipientAssetChanges diffs).map DraftMetadataChange.swap) := by
  refine ((h.filter _).map _).trans (List.Perm.of_eq ?_)
  rw [List.filter_map, List.map_map, recipientAssetChanges, List.map_map]
  rfl

theorem recipientFields_swap (h : diffs'.Perm (diffs.map DraftRecipientDiff.swap)) :
    (recipientFields diffs').Perm ((recipientFields diffs).map swapField) := by
  have hamount : diffs'.any (·.amountChanged) = diffs.any (·.amountChanged) := by
    rw [h.any_eq, List.any_map]
    rfl
  have hasset : diffs'.any (·.assetChanged) = diffs.any (·.assetChanged) := by
    rw [h.any_eq, List.any_map]
    rfl
  have hadded : (idsOf .added diffs').length = (idsOf .removed diffs).length := (idsOf_swap h .added).length_eq
  have hremoved : (idsOf .removed diffs').length = (idsOf .added diffs).length := (idsOf_swap h .removed).length_eq
  rw [recipientFields, recipientFields, hamount, hasset, hadded, hremoved]
  simp only [List.map_append, apply_ite (List.map swapField), List.append_assoc]
  exact ((List.perm_append_comm).append_left _).append_left _

variable (original modified : PayrollDraft ν)

theorem metadataFields_comm :
    metadataFields modified original = metadataFields original modified := by
  simp only [metadataFields, ne_comm]

theorem map_swapField_metadataFields :
    (((metadataFields original modified).filter (·.2)).map (·.1)).map swapField =
      ((metadataFields original modified).filter (·.2)).map (·.1) := by
  have hname : ∀ f ∈ metadataFields original modified, swapField f.1 = f.1 := by
    simp [metadataFields, swapField]
  rw [List.map_map]
  exact List.map_congr_left fun f hf => hname f (List.mem_of_mem_filter hf)

theorem metadataChanges_swap :
    metadataChanges reveal modified original = (metadataChanges reveal original modified).map DraftMetadataChange.swap := by
  simp only [metadataChanges, List.map_append, apply_ite (List.map DraftMetadataChange.swap),
    ne_comm (a := modified.draftId),
    ne_comm (a := modified.totalAmount), ne_comm (a := modified.scheduleTimestamp),
    ne_comm (a := stableStringify modified.policy), ne_comm (a := stableStringify modified.approvals)]
  rfl

omit [NumberFormat ν] in
theorem draftAssetChanges_swap :
    draftAssetChanges modified original = (draftAssetChanges original modified).map DraftMetadataChange.swap := by
  simp only [draftAssetChanges, apply_ite (List.map DraftMetadataChange.swap), ne_comm (a := modified.asset)]
  rfl

theorem sortByField_perm (localeCompare : String → String → Int) {changes changes' : List DraftMetadataChange}
    (h : changes'.Perm (changes.map DraftMetadataChange.swap)) :
    (sortByField localeCompare changes').Perm ((sortByField localeCompare changes).map DraftMetadataChange.swap) :=
  ((List.perm_insertionSort _ _).trans h).trans ((List.perm_insertionSort _ _).symm.map _)

/-- The difference of two drafts has the same changes in the other order. -/
theorem diff_swap (localeCompare : String → String → Int) (original modified : PayrollDraft ν) :
    Swapped (diffPayrollBatches sha256 localeCompare reveal original modified)
      (diffPayrollBatches sha256 localeCompare reveal modified original) := by
  have hdiffs : (recipientDiffs sha256 reveal (indexRecipients modified.recipients)
      (indexRecipients original.recipients)).Perm _ :=
    recipientDiffs_swap (nodup_keys_firsts original.recipients []) (nodup_keys_firsts modified.recipients [])
  have hfields : (diffPayrollBatches sha256 localeCompare reveal modified original).changedFields.Perm
      ((diffPayrollBatches sha256 localeCompare reveal original modified).changedFields.map swapField) := by
    simp only [diffPayrollBatches, List.map_append, map_swapField_metadataFields, metadataFields_comm original]
    refine List.Perm.append_left _ ?_
    exact ((sortStrings_perm _).trans (recipientFields_swap hdiffs)).trans ((sortStrings_perm _).symm.map _)
  have hlen := hfields.length_eq
  rw [List.length_map] at hlen
  exact {
    hasDifferences := by
      show decide (_ > 0) = decide (_ > 0)
      exact congrArg (fun n => decide (n > 0)) hlen
    changedFields := hfields
    recipients := ((List.perm_insertionSort _ _).trans hdiffs).trans ((List.perm_insertionSort _ _).symm.map _)
    added := sortStrings_eq_iff.mpr (idsOf_swap hdiffs .added)
    removed := sortStrings_eq_iff.mpr (idsOf_swap hdiffs .removed)
    edited := sortStrings_eq_iff.mpr (idsOf_swap hdiffs .edited)
    assetChanges := sortByField_perm localeCompare (by
      rw [List.map_append, draftAssetChanges_swap]
      exact (recipientAssetChanges_swap hdiffs).append_right _)
    metadataChanges := sortByField_perm localeCompare (List.Perm.of_eq (metadataChanges_swap original modified))
    previous := rfl
    current := rfl
    changed := by
      show decide (_ ≠ _) = decide (_ ≠ _)
      exact decide_eq_decide.mpr ne_comm
    redacted := rfl }

/-- Drafts have no differences just if they are the same, and their differences
are the same in both orders. -/
theorem diff_of_drafts (sha256 : String → List UInt8) (localeCompare : String → String → Int) (reveal : Bool)
    {original modified : PayrollDraft ν} (ho : (original.recipients.map (·.recipientId)).Nodup)
    (hm : (modified.recipients.map (·.recipientId)).Nodup) :
    ((diffPayrollBatches sha256 localeCompare reveal original modified).hasDifferences = false ↔
        SamePayroll original modified) ∧
      Swapped (diffPayrollBatches sha256 localeCompare reveal original modified)
        (diffPayrollBatches sha256 localeCompare reveal modified original) :=
  ⟨hasDifferences_iff ho hm, diff_swap localeCompare original modified⟩

/-- A draft of two employees. -/
def julyDraft (draftId : String) (recipients : List PayrollDraftRecipient) : PayrollDraft Int where
  draftId := draftId
  totalAmount := "300"
  asset := "native"
  scheduleTimestamp := "2026-07-31T00:00:00Z"
  policy := .obj [("policyId", .str "standard")]
  approvals := .arr []
  distinct_policy := by simp [DistinctKeys, DistinctFields]
  distinct_approvals := trivial
  recipients := recipients

def alice : PayrollDraftRecipient := ⟨"alice", "100", none⟩

def bob (amount : String) : PayrollDraftRecipient := ⟨"bob", amount, none⟩

/-- The hash of a text. -/
def sha256Text (s : String) : List UInt8 := Sha256.sha256 (encodeUtf8 s.toList)

/-- The order of lower-case ASCII names. -/
def compareNames (s t : String) : Int := if s = t then 0 else if leUnits s t then -1 else 1

/-- The order of the recipients and the spelling of an amount make no
difference. -/
theorem reordered_without_differences :
    (diffPayrollBatches sha256Text compareNames false (julyDraft "july" [alice, bob "200"])
      (julyDraft "july" [bob "0200", alice])).hasDifferences = false := by
  have hrecipients : SameRecipients [alice, bob "200"] [bob "0200", alice] := by
    refine ⟨fun id => ?_, ?_⟩
    · simp [alice, bob, or_comm]
    · have hamount : ∃ n, bigIntOf "200" = some n ∧ bigIntOf "0200" = some n := ⟨200, by decide +kernel, by decide +kernel⟩
      simp [alice, bob, SameAmount, hamount]
  exact (diff_of_drafts sha256Text compareNames false (by decide) (by decide)).1.mpr
    ⟨rfl, rfl, rfl, rfl, rfl, rfl, hrecipients⟩

/-- Drafts that differ in their ids only have a difference. -/
theorem other_id_is_difference :
    ¬∀ original modified : PayrollDraft Int, original.totalAmount = modified.totalAmount → original.asset = modified.asset →
      original.scheduleTimestamp = modified.scheduleTimestamp → original.policy = modified.policy →
      original.approvals = modified.approvals → original.recipients = modified.recipients →
        (diffPayrollBatches (fun _ => []) (fun _ _ => 0) false original modified).hasDifferences = false := by
  intro h
  have hfalse := h (julyDraft "july" [alice]) (julyDraft "july-2" [alice]) rfl rfl rfl rfl rfl rfl
  exact absurd (((hasDifferences_iff (by decide) (by decide)).mp hfalse).draftId) (by decide)

end ZkPayroll.Batches
