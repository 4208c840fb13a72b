import ZkPayroll.Framework.Separated
import ZkPayroll.Framework.Transition
import ZkPayroll.Request.PayrollRequestBuilder

/-!
# Keys of requests

An override is set for an entry. `Attached` has each entry with its own
override, so nothing has to be moved when an entry is removed. The builder
keeps the overrides by position and does not move them: it agrees with
`Attached` (`KeysFollow`) in the runs in which no entry is removed while a
later one has an override (`overrides_attached`).

A key is made of fields that are joined by colons (`keyFields`). Two payments
have the same key exactly when the fields have the same parts between colons
(`deriveIdempotencyKey_eq_iff`): they are the same payment after normalisation,
or divide the same parts differently (`Shifted`), which takes a colon inside a
field (`not_shifted_of_free`). The builder does not compare recipients as the
key does, so it builds requests with equal keys (`keys_apart_iff`).
-/

namespace ZkPayroll.Request

open Framework ZkPayroll.Core

/-- The entries, each with the override that was set for it. -/
abbrev Attached := List (PayrollRequestEntry × Option String)

/-- The position that an argument stands for in a list of length `n`. -/
def IndexArgument.position (n : Nat) : IndexArgument → Option Nat
  | .integer i => if 0 ≤ i ∧ i < n then some i.toNat else none
  | .other _ => none

/-- An entry that has no override. -/
def withoutOverride (entry : PayrollRequestEntry) : PayrollRequestEntry × Option String := (entry, none)

/-- What an operation is to make of the entries and their overrides. -/
def Attached.next (as : Attached) : BuilderOperation → Attached
  | .add entry => as ++ [withoutOverride entry]
  | .addMany entries => as ++ entries.map withoutOverride
  | .update index entry =>
    match index.position as.length with
    | some i => as.set i (withoutOverride entry)
    | none => as
  | .remove index =>
    match index.position as.length with
    | some i => as.eraseIdx i
    | none => as
  | .clear => []
  | .withContext _ => as.map fun p => withoutOverride p.1
  | .withKeyOverride index key =>
    match index.position as.length with
    | some i => as.modify i fun p => (p.1, truthy (some (trim key)))
    | none => as

variable (b : PayrollRequestBuilder)

/-- The override that the builder uses at position `i`. -/
def PayrollRequestBuilder.overrideAt (i : Nat) : Option String :=
  truthy (b.keyOverrides.lookup i)

/-- Each entry has its own override. -/
structure KeysFollow (b : PayrollRequestBuilder) (as : Attached) : Prop where
  entries : b.entries = as.map Prod.fst
  overrides : ∀ i, b.overrideAt i = as[i]?.bind Prod.snd

/-- No entry is removed while a later one has an override. -/
def OverridesStay : BuilderOperation → Prop
  | .remove index => ∀ i, b.assertIndex index "remove" = .ok i → ∀ j, i < j → b.overrideAt j = none
  | _ => True

variable {b : PayrollRequestBuilder} {as : Attached}

theorem position_eq_some {n i : Nat} {index : IndexArgument} :
    index.position n = some i ↔ index = .integer i ∧ i < n := by
  unfold IndexArgument.position
  split
  · rename_i j
    rw [IndexArgument.integer.injEq]
    split <;> simp only [Option.some.injEq, reduceCtorEq, false_iff] <;> omega
  · exact iff_of_false nofun fun h => nomatch h.1

theorem KeysFollow.length (h : KeysFollow b as) : b.entries.length = as.length := by
  rw [h.entries, List.length_map]

/-- A method that asserts its index throws, or acts at a position of the list. -/
theorem KeysFollow.assertIndex (h : KeysFollow b as) (index : IndexArgument) (op : String) :
    (∃ e, b.assertIndex index op = .error e ∧ index.position as.length = none) ∨
      ∃ i, b.assertIndex index op = .ok i ∧ index.position as.length = some i ∧ i < as.length := by
  cases hi : b.assertIndex index op with
  | ok i =>
    obtain ⟨hindex, hlt⟩ := assertIndex_eq_ok.mp hi
    rw [h.length] at hlt
    exact .inr ⟨i, rfl, position_eq_some.mpr ⟨hindex, hlt⟩, hlt⟩
  | error e =>
    refine .inl ⟨e, rfl, ?_⟩
    rw [Option.eq_none_iff_forall_ne_some]
    intro i hp
    rw [position_eq_some, ← h.length] at hp
    have hok : b.assertIndex index op = .ok i := assertIndex_eq_ok.mpr hp
    rw [hi] at hok
    cases hok

theorem overrideAt_eraseKey (entries : List PayrollRequestEntry) (i j : Nat) :
    PayrollRequestBuilder.overrideAt { b with entries := entries, keyOverrides := eraseKey i b.keyOverrides } j =
      if j = i then none else b.overrideAt j := by
  rw [PayrollRequestBuilder.overrideAt, lookup_eraseKey]
  split
  · rfl
  · rfl

@[simp] theorem map_fst_withoutOverride (entries : List PayrollRequestEntry) :
    (entries.map withoutOverride).map Prod.fst = entries := by
  rw [List.map_map]
  exact List.map_id entries

/-- Entries at the end have no override. -/
theorem bind_append_withoutOverride (as : Attached) (entries : List PayrollRequestEntry) (i : Nat) :
    (as ++ entries.map withoutOverride)[i]?.bind Prod.snd = as[i]?.bind Prod.snd := by
  by_cases hi : i < as.length
  · rw [List.getElem?_append_left hi]
  · rw [List.getElem?_append_right (by omega), List.getElem?_eq_none (l := as) (by omega), List.getElem?_map]
    cases entries[i - as.length]? <;> rfl

theorem KeysFollow.append (h : KeysFollow b as) (entries : List PayrollRequestEntry) :
    KeysFollow { b with entries := b.entries ++ entries } (as ++ entries.map withoutOverride) where
  entries := by rw [List.map_append, map_fst_withoutOverride, ← h.entries]
  overrides i := by
    rw [bind_append_withoutOverride]
    exact h.overrides i

theorem addMany_eq (entries : List PayrollRequestEntry) :
    b.addMany entries = { b with entries := b.entries ++ entries } := by
  induction entries generalizing b with
  | nil => simp [PayrollRequestBuilder.addMany]
  | cons entry entries ih =>
    have hstep : b.addMany (entry :: entries) = (b.add entry).addMany entries := rfl
    rw [hstep, ih, PayrollRequestBuilder.add]
    simp

theorem KeysFollow.update (h : KeysFollow b as) {i : Nat} (hi : i < as.length) (entry : PayrollRequestEntry) :
    KeysFollow { b with entries := b.entries.set i entry, keyOverrides := eraseKey i b.keyOverrides }
      (as.set i (withoutOverride entry)) where
  entries := by rw [h.entries, List.map_set]; rfl
  overrides j := by
    rw [overrideAt_eraseKey, List.getElem?_set]
    by_cases hj : j = i
    · subst hj
      simp [hi, withoutOverride]
    · rw [if_neg hj, if_neg (Ne.symm hj)]
      exact h.overrides j

/-- No later entry has an override, so none has to be moved. -/
theorem KeysFollow.remove (h : KeysFollow b as) {i : Nat} (hno : ∀ j, i < j → b.overrideAt j = none) :
    KeysFollow { b with entries := b.entries.eraseIdx i, keyOverrides := eraseKey i b.keyOverrides }
      (as.eraseIdx i) where
  entries := by rw [h.entries, List.eraseIdx_map]
  overrides j := by
    rw [overrideAt_eraseKey, List.getElem?_eraseIdx]
    rcases Nat.lt_trichotomy j i with hlt | rfl | hgt
    · rw [if_neg (by omega), if_pos hlt]
      exact h.overrides j
    · rw [if_pos rfl, if_neg (by omega), ← h.overrides, hno _ (by omega)]
    · rw [if_neg (by omega), if_neg (by omega), ← h.overrides, hno j hgt, hno _ (by omega)]

theorem KeysFollow.withKeyOverride (h : KeysFollow b as) {i : Nat} (hi : i < as.length) (key : String) :
    KeysFollow { b with keyOverrides := setKey i (trim key) b.keyOverrides }
      (as.modify i fun p => (p.1, truthy (some (trim key)))) where
  entries := by
    rw [h.entries]
    refine List.ext_getElem? fun j => ?_
    rw [List.getElem?_map, List.getElem?_map, List.getElem?_modify]
    cases as[j]? with
    | none => rfl
    | some p => by_cases hj : i = j <;> simp [hj]
  overrides j := by
    rw [PayrollRequestBuilder.overrideAt, lookup_setKey, List.getElem?_modify]
    by_cases hj : j = i
    · subst hj
      simp [hi]
    · have hsame : (fun p => if i = j then (p.1, truthy (some (trim key))) else p) <$> as[j]? = as[j]? := by
        simp [Ne.symm hj]
      rw [if_neg hj, hsame]
      exact h.overrides j

theorem KeysFollow.next (h : KeysFollow b as) {op : BuilderOperation} (hok : OverridesStay b op) :
    KeysFollow (b.next op) (as.next op) := by
  cases op with
  | add entry => exact h.append [entry]
  | addMany entries =>
    rw [PayrollRequestBuilder.next, PayrollRequestBuilder.call, addMany_eq]
    exact h.append entries
  | update index entry =>
    simp only [PayrollRequestBuilder.next, PayrollRequestBuilder.call, PayrollRequestBuilder.update, Attached.next]
    rcases h.assertIndex index "update" with ⟨e, he, hp⟩ | ⟨i, he, hp, hi⟩
    · rw [he, hp]
      exact h
    · rw [he, hp]
      exact h.update hi entry
  | remove index =>
    simp only [PayrollRequestBuilder.next, PayrollRequestBuilder.call, PayrollRequestBuilder.remove, Attached.next]
    rcases h.assertIndex index "remove" with ⟨e, he, hp⟩ | ⟨i, he, hp, hi⟩
    · rw [he, hp]
      exact h
    · rw [he, hp]
      exact h.remove (hok i he)
  | clear => exact ⟨rfl, fun _ => rfl⟩
  | withContext context =>
    refine ⟨?_, fun i => ?_⟩
    · rw [Attached.next, List.map_map]
      exact h.entries
    · rw [Attached.next, List.getElem?_map]
      cases as[i]? <;> rfl
  | withKeyOverride index key =>
    simp only [PayrollRequestBuilder.next, PayrollRequestBuilder.call, PayrollRequestBuilder.withKeyOverride,
      Attached.next]
    rcases h.assertIndex index "withKeyOverride" with ⟨e, he, hp⟩ | ⟨i, he, hp, hi⟩
    · rw [he, hp]
      exact h
    · rw [he, hp]
      exact h.withKeyOverride hi key

theorem keyAt_of_keysFollow (toLowerCase : String → String) (h : KeysFollow b as) :
    (b.entries.zipIdx.map fun (entry, i) => b.keyAt toLowerCase i entry) =
      as.map fun p => p.2.getD (deriveIdempotencyKey toLowerCase p.1 b.context) := by
  refine List.ext_getElem? fun i => ?_
  rw [List.getElem?_map, List.getElem?_map, List.getElem?_zipIdx, h.entries, List.getElem?_map]
  have hoverride := h.overrides i
  cases hi : as[i]? with
  | none => rfl
  | some p =>
    rw [hi] at hoverride
    simp only [Option.map_some, Nat.zero_add, Option.some.injEq]
    rw [PayrollRequestBuilder.keyAt, ← PayrollRequestBuilder.overrideAt, hoverride]
    rfl

/-! ## Runs -/

/-- A builder, and what its entries and overrides are to be. -/
structure Ledger where
  builder : PayrollRequestBuilder := {}
  attached : Attached := []

/-- An operation, and what it does to the overrides. -/
def Ledger.next (l : Ledger) (op : BuilderOperation) : Ledger where
  builder := l.builder.next op
  attached := l.attached.next op

/-- The states that runs of a new builder reach whose steps all meet the
condition `ok`. -/
abbrev ReachableLedger (ok : PayrollRequestBuilder → BuilderOperation → Prop) (l : Ledger) : Prop :=
  Reachable (· = {}) (fun l l' => ∃ op, ok l.builder op ∧ l' = l.next op) l

/-- Each key of a request is the override of its entry, or derived from it. -/
def KeysAttached (toLowerCase : String → String) (l : Ledger) : Prop :=
  ∀ request, l.builder.build toLowerCase = .ok request →
    request.entries = l.attached.map Prod.fst ∧
      request.idempotencyKeys =
        l.attached.map fun p => p.2.getD (deriveIdempotencyKey toLowerCase p.1 request.context)

/-- In a run in which no entry is removed while a later one has an override,
every override stays with its entry. -/
theorem overrides_attached (toLowerCase : String → String) {l : Ledger} (h : ReachableLedger OverridesStay l) :
    KeysAttached toLowerCase l := by
  have hinv : KeysFollow l.builder l.attached := by
    refine Reachable.invariant (I := fun l => KeysFollow l.builder l.attached) (fun l hl => ?_)
      (fun l l' hinv hs => ?_) h
    · subst hl
      exact ⟨rfl, fun _ => rfl⟩
    · obtain ⟨op, hok, rfl⟩ := hs
      exact hinv.next hok
  intro request hbuild
  obtain ⟨-, rfl⟩ := build_eq_ok.mp hbuild
  exact ⟨hinv.entries, keyAt_of_keysFollow toLowerCase hinv⟩

def payTo (recipient : String) : PayrollRequestEntry := { recipient := recipient, amount := 100, asset := "native" }

/-- The last of two entries has an override and is removed. -/
theorem last_removed :
    KeysAttached asciiLowerCase
      (((({} : Ledger).next (.addMany [payTo "GAAA", payTo "GBBB"])).next
        (.withKeyOverride (.integer 1) "retry-1")).next (.remove (.integer 1))) := by
  refine overrides_attached _ (Reachable.next (Reachable.next (Reachable.next (Reachable.start rfl)
    ⟨.addMany _, trivial, rfl⟩) ⟨.withKeyOverride _ _, trivial, rfl⟩) ⟨.remove _, ?_, rfl⟩)
  intro i hi j hj
  obtain ⟨hindex, -⟩ := assertIndex_eq_ok.mp hi
  have hne : j ≠ 1 := by
    have := IndexArgument.integer.inj hindex
    omega
  show truthy (List.lookup j [(1, trim "retry-1")]) = none
  rw [lookup_cons_eq, if_neg hne]
  rfl

/-- Three entries of which the second has an override, and the first is
removed. -/
def firstRemoved : Ledger :=
  ((({} : Ledger).next (.addMany [payTo "GAAA", payTo "GBBB", payTo "GCCC"])).next
    (.withKeyOverride (.integer 1) "retry-1")).next (.remove (.integer 0))

/-- The override is now that of the third entry. -/
theorem override_moved :
    ReachableLedger (fun _ _ => True) firstRemoved ∧
      (firstRemoved.builder.build asciiLowerCase).map (·.idempotencyKeys) =
        .ok ["pay:gbbb:100:native", "retry-1"] ∧
      ¬KeysAttached asciiLowerCase firstRemoved := by
  refine ⟨Reachable.next (Reachable.next (Reachable.next (Reachable.start rfl) ⟨_, trivial, rfl⟩) ⟨_, trivial, rfl⟩)
    ⟨_, trivial, rfl⟩, by decide +kernel, fun h => ?_⟩
  obtain ⟨-, hkeys⟩ := h ⟨[payTo "GBBB", payTo "GCCC"], ["pay:gbbb:100:native", "retry-1"], {}⟩ (by decide +kernel)
  revert hkeys
  decide +kernel

variable (toLowerCase : String → String)

/-! ## Payments -/

/-- An entry that is paid in a context. -/
structure Payment where
  entry : PayrollRequestEntry
  context : SubmissionContext

variable (p : Payment)

/-- The key that the payment has. -/
def Payment.key : String := deriveIdempotencyKey toLowerCase p.entry p.context

/-- The payments are the same after the normalisation that is documented. -/
structure SamePayment (p q : Payment) : Prop where
  recipient : toLowerCase (trim p.entry.recipient) = toLowerCase (trim q.entry.recipient)
  amount : p.entry.amount = q.entry.amount
  asset : toLowerCase (trim p.entry.asset) = toLowerCase (trim q.entry.asset)
  network : (truthy p.context.network).map (fun s => toLowerCase (trim s)) =
    (truthy q.context.network).map fun s => toLowerCase (trim s)
  contractId : (truthy p.context.contractId).map trim = (truthy q.context.contractId).map trim
  nonce : (truthy p.context.nonce).map trim = (truthy q.context.nonce).map trim

/-! ## Fields -/

/-- A value, if there is one, after its tag. -/
def tagged (tag : String) : Option String → List (List Char)
  | none => []
  | some value => [tag.toList, value.toList]

/-- The context as fields of the key. -/
def contextFields (context : SubmissionContext) : List (List Char) :=
  tagged "net" ((truthy context.network).map fun s => toLowerCase (trim s)) ++
    (tagged "ctr" ((truthy context.contractId).map trim) ++ tagged "n" ((truthy context.nonce).map trim))

/-- The fields of a key. -/
def keyFields : List (List Char) :=
  "pay".toList :: (toLowerCase (trim p.entry.recipient)).toList :: integerText p.entry.amount ::
    (toLowerCase (trim p.entry.asset)).toList :: contextFields toLowerCase p.context

/-- The parts of the fields between colons. -/
def keyParts : List (List Char) := (keyFields toLowerCase p).flatMap (List.splitOn ':')

/-- Different payments divide the same parts differently. -/
def Shifted (p q : Payment) : Prop := ¬SamePayment toLowerCase p q ∧ keyParts toLowerCase p = keyParts toLowerCase q

variable {toLowerCase}

theorem tagged_append_inj {tag : String} {v w : Option String} {r s : List (List Char)}
    (hr : r.head? ≠ some tag.toList) (hs : s.head? ≠ some tag.toList) (h : tagged tag v ++ r = tagged tag w ++ s) :
    v = w ∧ r = s := by
  cases v with
  | none =>
    cases w with
    | none => exact ⟨rfl, h⟩
    | some w =>
      change r = tag.toList :: _ at h
      rw [h] at hr
      exact absurd rfl hr
  | some v =>
    cases w with
    | none =>
      change tag.toList :: _ = s at h
      rw [← h] at hs
      exact absurd rfl hs
    | some w =>
      simp only [tagged, List.cons_append, List.nil_append, List.cons.injEq, true_and] at h
      exact ⟨by rw [String.toList_injective h.1], h.2⟩

theorem head_tagged_ne {tag other : String} (hne : tag ≠ other) (v : Option String) :
    (tagged tag v).head? ≠ some other.toList := by
  cases v with
  | none => nofun
  | some v => exact fun h => hne (String.toList_injective (Option.some.inj h))

theorem head_tagged_append_ne {tag other : String} (hne : tag ≠ other) (v : Option String) {r : List (List Char)}
    (hr : r.head? ≠ some other.toList) : (tagged tag v ++ r).head? ≠ some other.toList := by
  cases v with
  | none => exact hr
  | some v => exact fun h => hne (String.toList_injective (Option.some.inj h))

theorem tagged_inj {tag : String} {v w : Option String} (h : tagged tag v = tagged tag w) : v = w := by
  have happend : tagged tag v ++ [] = tagged tag w ++ [] := by rw [h]
  exact (tagged_append_inj (by simp) (by simp) happend).1

theorem contextFields_inj {c d : SubmissionContext} (h : contextFields toLowerCase c = contextFields toLowerCase d) :
    (truthy c.network).map (fun s => toLowerCase (trim s)) = (truthy d.network).map (fun s => toLowerCase (trim s)) ∧
      (truthy c.contractId).map trim = (truthy d.contractId).map trim ∧
      (truthy c.nonce).map trim = (truthy d.nonce).map trim := by
  rw [contextFields, contextFields] at h
  have hctr : "ctr" ≠ "net" := by decide
  have hn : "n" ≠ "net" := by decide
  have hn' : "n" ≠ "ctr" := by decide
  obtain ⟨hnetwork, hrest⟩ := tagged_append_inj (head_tagged_append_ne hctr _ (head_tagged_ne hn _))
    (head_tagged_append_ne hctr _ (head_tagged_ne hn _)) h
  obtain ⟨hcontract, hnonce⟩ := tagged_append_inj (head_tagged_ne hn' _) (head_tagged_ne hn' _) hrest
  exact ⟨hnetwork, hcontract, tagged_inj hnonce⟩

variable {p q : Payment}

/-- The fields tell payments apart. -/
theorem keyFields_eq_iff :
    keyFields toLowerCase p = keyFields toLowerCase q ↔ SamePayment toLowerCase p q := by
  constructor
  · intro h
    simp only [keyFields, List.cons.injEq, true_and] at h
    obtain ⟨hrecipient, hamount, hasset, hcontext⟩ := h
    obtain ⟨hnetwork, hcontract, hnonce⟩ := contextFields_inj hcontext
    refine ⟨String.toList_injective hrecipient, ?_, String.toList_injective hasset, hnetwork, hcontract, hnonce⟩
    rw [← readInteger_integerText p.entry.amount, hamount, readInteger_integerText]
  · intro h
    rw [keyFields, keyFields, contextFields, contextFields, h.recipient, h.amount, h.asset, h.network, h.contractId,
      h.nonce]

/-! ## Keys -/

theorem separate_tagged (tag : String) (v : Option String) :
    separate ':' (tagged tag v) =
      separate ':' ((v.map fun value => tag ++ ":" ++ value).toList.map String.toList) := by
  cases v with
  | none => rfl
  | some value => simp [tagged]

theorem separate_append {α : Type} (sep : α) (xs ys : List (List α)) :
    separate sep (xs ++ ys) = separate sep xs ++ separate sep ys := List.flatMap_append

theorem separate_contextParts (context : SubmissionContext) :
    separate ':' ((contextParts toLowerCase context).map String.toList) =
      separate ':' (contextFields toLowerCase context) := by
  rw [contextFields, separate_append, separate_append, separate_tagged, separate_tagged, separate_tagged,
    contextParts, List.map_append, List.map_append, separate_append, separate_append, List.append_assoc]
  simp only [Option.map_map]
  rfl

/-- A key is its fields, joined by colons. -/
theorem toList_key : (p.key toLowerCase).toList = [':'].intercalate (keyFields toLowerCase p) := by
  have hbase : (createPaymentIdempotencyKey toLowerCase p.entry.recipient p.entry.amount p.entry.asset).toList =
      "pay".toList ++ separate ':' [(toLowerCase (trim p.entry.recipient)).toList, integerText p.entry.amount,
        (toLowerCase (trim p.entry.asset)).toList] := by
    simp [createPaymentIdempotencyKey]
  have hkey : (p.key toLowerCase).toList =
      (createPaymentIdempotencyKey toLowerCase p.entry.recipient p.entry.amount p.entry.asset).toList ++
        separate ':' ((contextParts toLowerCase p.context).map String.toList) := by
    rw [Payment.key, deriveIdempotencyKey]
    cases contextParts toLowerCase p.context with
    | nil => simp
    | cons part parts =>
      have hjoin := toList_intercalate_cons ':' part parts
      simp only [List.length_cons, Nat.zero_lt_succ, if_true, String.toList_append, List.append_assoc]
      rw [show (":" : String) = String.ofList [':'] from rfl, hjoin]
      simp
  rw [hkey, separate_contextParts, hbase, keyFields, intercalate_cons, List.append_assoc, ← separate_append]
  rfl

/-- Keys are told apart by the parts of their fields. -/
theorem key_eq_iff_parts :
    p.key toLowerCase = q.key toLowerCase ↔ keyParts toLowerCase p = keyParts toLowerCase q := by
  rw [← String.toList_inj, toList_key, toList_key]
  exact intercalate_eq_iff (by simp [keyFields]) (by simp [keyFields])

theorem deriveIdempotencyKey_eq_iff :
    p.key toLowerCase = q.key toLowerCase ↔ SamePayment toLowerCase p q ∨ Shifted toLowerCase p q := by
  rw [key_eq_iff_parts]
  constructor
  · intro h
    by_cases hsame : SamePayment toLowerCase p q
    · exact .inl hsame
    · exact .inr ⟨hsame, h⟩
  · rintro (hsame | hshifted)
    · rw [keyParts, keyFields_eq_iff.mpr hsame, keyParts]
    · exact hshifted.2

/-! ## Requests -/

theorem idempotencyKeys_of_build {b : PayrollRequestBuilder} {request : PayrollRequest} (hno : b.keyOverrides = [])
    (h : b.build toLowerCase = .ok request) :
    request.idempotencyKeys = b.entries.map fun entry => Payment.key toLowerCase ⟨entry, b.context⟩ := by
  obtain ⟨-, rfl⟩ := build_eq_ok.mp h
  have hkey : (fun p : PayrollRequestEntry × Nat => b.keyAt toLowerCase p.2 p.1) =
      (fun entry => Payment.key toLowerCase ⟨entry, b.context⟩) ∘ Prod.fst := by
    funext p
    rw [PayrollRequestBuilder.keyAt, hno]
    rfl
  show b.entries.zipIdx.map (fun p => b.keyAt toLowerCase p.2 p.1) = _
  rw [hkey, ← List.map_map, List.zipIdx_map_fst]

variable (toLowerCase)

/-- The keys of a request without overrides are distinct exactly when no two of
its entries are the same payment or shifted; and keys tell any two payments
apart exactly when these are not shifted. -/
theorem keys_apart_iff :
    (∀ (b : PayrollRequestBuilder) (request : PayrollRequest), b.keyOverrides = [] →
      b.build toLowerCase = .ok request →
      (request.idempotencyKeys.Nodup ↔ b.entries.Pairwise fun e e' =>
        ¬SamePayment toLowerCase ⟨e, b.context⟩ ⟨e', b.context⟩ ∧
          ¬Shifted toLowerCase ⟨e, b.context⟩ ⟨e', b.context⟩)) ∧
    ∀ p q : Payment, (p.key toLowerCase = q.key toLowerCase → SamePayment toLowerCase p q) ↔
      ¬Shifted toLowerCase p q := by
  constructor
  · intro b request hno hbuild
    rw [idempotencyKeys_of_build hno hbuild, List.Nodup, List.pairwise_map]
    refine iff_of_eq (congrArg (fun r => b.entries.Pairwise r) ?_)
    funext e e'
    rw [ne_eq, deriveIdempotencyKey_eq_iff, not_or]
  · intro p q
    rw [deriveIdempotencyKey_eq_iff]
    constructor
    · intro h hshifted
      exact hshifted.1 (h (.inr hshifted))
    · intro hnot h
      exact h.resolve_right hnot

def payEach (entries : List PayrollRequestEntry) : PayrollRequestBuilder := { entries := entries }

/-- The request for two recipients that differ in more than case. -/
def requestForTwo : PayrollRequest where
  entries := [payTo "GAAA", payTo "GBBB"]
  idempotencyKeys := ["pay:gaaa:100:native", "pay:gbbb:100:native"]
  context := {}

theorem keys_of_two_recipients :
    (payEach requestForTwo.entries).build asciiLowerCase = .ok requestForTwo ∧ requestForTwo.idempotencyKeys.Nodup := by
  have hbuild : (payEach requestForTwo.entries).build asciiLowerCase = .ok requestForTwo := by decide +kernel
  refine ⟨hbuild, ((keys_apart_iff asciiLowerCase).1 _ _ rfl hbuild).mpr ?_⟩
  refine List.Pairwise.cons (fun e he => ?_) (List.pairwise_singleton _ _)
  obtain rfl := List.mem_singleton.mp he
  refine ⟨fun hsame => ?_, fun hshifted => ?_⟩
  · have hrecipient := hsame.recipient
    revert hrecipient
    decide +kernel
  · have hparts := hshifted.2
    revert hparts
    decide +kernel

/-- A recipient in two spellings is paid twice under one key, and so are two
payments to different recipients that have a colon in their fields. -/
theorem keys_not_distinct :
    ((payEach [payTo "GAAA", payTo "gaaa"]).build asciiLowerCase).map (·.idempotencyKeys) =
        .ok ["pay:gaaa:100:native", "pay:gaaa:100:native"] ∧
      ((payEach [⟨"a", 1, "2:b", none, none⟩, ⟨"a:1", 2, "b", none, none⟩]).build asciiLowerCase).map
        (·.idempotencyKeys) = .ok ["pay:a:1:2:b", "pay:a:1:2:b"] ∧
      Payment.key asciiLowerCase ⟨⟨"a", 1, "2:b", none, none⟩, {}⟩ =
        Payment.key asciiLowerCase ⟨⟨"a:1", 2, "b", none, none⟩, {}⟩ ∧
      ¬SamePayment asciiLowerCase ⟨⟨"a", 1, "2:b", none, none⟩, {}⟩ ⟨⟨"a:1", 2, "b", none, none⟩, {}⟩ := by
  refine ⟨by decide +kernel, by decide +kernel, by decide +kernel, fun hsame => ?_⟩
  have hamount := hsame.amount
  revert hamount
  decide

end ZkPayroll.Request
