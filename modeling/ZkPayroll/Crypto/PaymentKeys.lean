import ZkPayroll.Crypto.ProofInput

/-!
# One payment, one key

The amount of a sanitized witness is the text of its digits, and keeps the zeros
in front of them. So two witnesses of one payment are sanitized alike exactly
where their amounts have as many digits (`sanitizes_alike_iff`). Witnesses of
different payments never share a key (`paysAlike_of_witnessKey_eq`), and a
sanitized witness is sanitized to itself exactly where no field of the name
`__proto__` has set its prototype (`sanitizeProofInput_sanitized_iff`).
-/

namespace ZkPayroll.Crypto.ProofInput

open Framework Audit Receipts

variable {ν : Type}

/-! ## Fields in property order -/

theorem lookup_propertyOrder {β : Type} {fields : List (String × β)} (h : (fields.map Prod.fst).Nodup) (k : String) :
    (propertyOrder fields).lookup k = fields.lookup k := by
  have hperm := propertyOrder_perm fields
  have hn : ((propertyOrder fields).map Prod.fst).Nodup := (hperm.map Prod.fst).nodup_iff.mpr h
  refine Option.ext fun v => ?_
  rw [← mem_iff_lookup hn (k, v), ← mem_iff_lookup h (k, v), hperm.mem_iff]

section PropertyOrder

variable {β : Type} {named kept : List (String × β)}

/-- The fields whose keys are array indices, in their order. -/
def indexed (fields : List (String × β)) : List (String × β) :=
  (fields.filter fun f => isArrayIndex f.1).insertionSort leIndex

/-- The other fields. -/
def unindexed (fields : List (String × β)) : List (String × β) := fields.filter fun f => !isArrayIndex f.1

theorem propertyOrder_eq (fields : List (String × β)) : propertyOrder fields = indexed fields ++ unindexed fields := rfl

theorem mem_indexed {fields : List (String × β)} {f : String × β} :
    f ∈ indexed fields ↔ f ∈ fields ∧ isArrayIndex f.1 = true := by
  rw [indexed, (List.perm_insertionSort leIndex _).mem_iff, List.mem_filter]

theorem mem_unindexed {fields : List (String × β)} {f : String × β} :
    f ∈ unindexed fields ↔ f ∈ fields ∧ isArrayIndex f.1 = false := by
  rw [unindexed, List.mem_filter, Bool.not_eq_true']

theorem propertyOrder_append (h : ∀ f ∈ named, isArrayIndex f.1 = false) :
    propertyOrder (named ++ kept) = indexed kept ++ (named ++ unindexed kept) := by
  have hnone : named.filter (fun f => isArrayIndex f.1) = [] :=
    List.filter_eq_nil_iff.mpr fun f hf => by simp [h f hf]
  have hall : named.filter (fun f => !isArrayIndex f.1) = named :=
    List.filter_eq_self.mpr fun f hf => by simp [h f hf]
  rw [propertyOrder_eq, indexed, unindexed, List.filter_append, List.filter_append, hnone, hall]
  rfl

/-- Fields in property order have the same order. -/
theorem propertyOrder_parts (fields : List (String × β)) :
    indexed (propertyOrder fields) = indexed fields ∧ unindexed (propertyOrder fields) = unindexed fields := by
  have hsorted : (indexed fields).Pairwise leIndex := by
    have htotal : Std.Total (leIndex (β := β)) := ⟨fun f g => Nat.le_total _ _⟩
    have htrans : IsTrans (String × β) leIndex := ⟨fun f g h => Nat.le_trans⟩
    exact List.pairwise_insertionSort leIndex _
  have hindex : (indexed fields).filter (fun f => isArrayIndex f.1) = indexed fields :=
    List.filter_eq_self.mpr fun f hf => (mem_indexed.mp hf).2
  have hindex' : (unindexed fields).filter (fun f => isArrayIndex f.1) = [] :=
    List.filter_eq_nil_iff.mpr fun f hf => by simp [(mem_unindexed.mp hf).2]
  have hother : (indexed fields).filter (fun f => !isArrayIndex f.1) = [] :=
    List.filter_eq_nil_iff.mpr fun f hf => by simp [(mem_indexed.mp hf).2]
  have hother' : (unindexed fields).filter (fun f => !isArrayIndex f.1) = unindexed fields :=
    List.filter_eq_self.mpr fun f hf => by simp [(mem_unindexed.mp hf).2]
  constructor
  · show ((propertyOrder fields).filter fun f => isArrayIndex f.1).insertionSort leIndex = _
    rw [propertyOrder_eq, List.filter_append, hindex, hindex', List.append_nil, hsorted.insertionSort_eq]
  · show (propertyOrder fields).filter (fun f => !isArrayIndex f.1) = _
    rw [propertyOrder_eq, List.filter_append, hother, hother', List.nil_append]

/-- Putting named fields, which are no array indices, before the others again
changes nothing. -/
theorem propertyOrder_again {p : String → Bool} (hnamed : ∀ f ∈ named, p f.1 = true ∧ isArrayIndex f.1 = false)
    (hkept : ∀ f ∈ kept, p f.1 = false) :
    (propertyOrder (named ++ kept)).filter (fun f => !p f.1) = propertyOrder kept ∧
      propertyOrder (named ++ propertyOrder kept) = propertyOrder (named ++ kept) := by
  have hplain : ∀ f ∈ named, isArrayIndex f.1 = false := fun f hf => (hnamed f hf).2
  obtain ⟨hindexed, hunindexed⟩ := propertyOrder_parts kept
  refine ⟨?_, by rw [propertyOrder_append hplain, propertyOrder_append hplain, hindexed, hunindexed]⟩
  have hfirst : (indexed kept).filter (fun f => !p f.1) = indexed kept :=
    List.filter_eq_self.mpr fun f hf => by simp [hkept f (mem_indexed.mp hf).1]
  have hmiddle : named.filter (fun f => !p f.1) = [] :=
    List.filter_eq_nil_iff.mpr fun f hf => by simp [(hnamed f hf).1]
  have hlast : (unindexed kept).filter (fun f => !p f.1) = unindexed kept :=
    List.filter_eq_self.mpr fun f hf => by simp [hkept f (mem_unindexed.mp hf).1]
  rw [propertyOrder_append hplain, List.filter_append, List.filter_append, hfirst, hmiddle, hlast, List.nil_append,
    propertyOrder_eq]

end PropertyOrder

/-! ## Amounts -/

section Payments

variable [CommRing ν] [LinearOrder ν] [FloorRing ν]

/-- The value denotes the number. -/
def Denotes (v : Value ν) (n : Nat) : Prop :=
  v = .bigint n ∨ (∃ x, v = .num x ∧ x.toInteger = some (n : Int) ∧ (n : Int) ≤ maxSafeInteger) ∨
    ∃ s, v = .str s ∧ isDigits (trim s).toList = true ∧ digitsValue (trim s).toList = n

/-- The digits in which an amount is given: those of a text without the spaces
around them, and those of the decimal text of a number. -/
def digitsOf (v : Value ν) : List Char :=
  match v with
  | .str s => (trim s).toList
  | .bigint n => (toString n).toList
  | .num x => (x.toInteger.map fun v => (toString v).toList).getD []
  | _ => []

theorem toList_toString_nat (n : Nat) : (toString (n : Int)).toList = Nat.toDigits 10 n := toList_toString n

/-- What denotes a number is normalised to the digits in which it is given. -/
theorem normalizeAmount_of_denotes {v : Value ν} {n : Nat} (h : Denotes v n) :
    normalizeAmount v = some (String.ofList (digitsOf v)) ∧ isDigits (digitsOf v) = true ∧
      digitsValue (digitsOf v) = n := by
  have hdigits : isDigits (toString (n : Int)).toList = true ∧ digitsValue (toString (n : Int)).toList = n := by
    rw [toList_toString_nat]
    exact ⟨isDigits_toDigits n, digitsValue_toDigits n⟩
  have hnonneg : ¬(n : Int) < 0 := by omega
  rcases h with rfl | ⟨x, rfl, hx, hsafe⟩ | ⟨s, rfl, hs, hvalue⟩
  · refine ⟨?_, hdigits⟩
    rw [normalizeAmount, if_neg hnonneg, digitsOf, String.ofList_toList]
  · have hof : digitsOf (.num x : Value ν) = (toString (n : Int)).toList := by
      rw [digitsOf, hx]
      rfl
    rw [hof]
    refine ⟨?_, hdigits⟩
    rw [normalizeAmount, hx]
    show (if maxSafeInteger < (n : Int) ∨ (n : Int) < 0 then none else _) = _
    rw [if_neg (by omega), String.ofList_toList]
  · refine ⟨?_, hs, hvalue⟩
    have hne : trim s ≠ "" := by
      intro hempty
      rw [hempty] at hs
      cases hs
    show (if trim s = "" then none else _) = _
    rw [if_neg hne, if_pos hs]
    exact congrArg some String.ofList_toList.symm

/-- What is normalised denotes the number of its digits. -/
theorem denotes_of_normalizeAmount {v : Value ν} {t : String} (h : normalizeAmount v = some t) :
    ∀ n, Denotes v n ↔ n = digitsValue t.toList := by
  obtain ⟨m, hm⟩ : ∃ m, Denotes v m := by
    unfold normalizeAmount at h
    split at h
    · rename_i s
      dsimp only at h
      split at h
      · cases h
      split at h
      · rename_i hdigits
        exact ⟨_, .inr (.inr ⟨s, rfl, hdigits, rfl⟩)⟩
      · cases h
    · rename_i n
      split at h
      · cases h
      · rename_i hn
        refine ⟨n.toNat, .inl ?_⟩
        rw [Int.toNat_of_nonneg (by omega)]
    · rename_i x
      split at h
      · rename_i v hv
        split at h
        · cases h
        · rename_i hsafe
          refine ⟨v.toNat, .inr (.inl ⟨x, rfl, ?_, ?_⟩)⟩
          · rw [hv, Int.toNat_of_nonneg (by omega)]
          · omega
      · cases h
    · cases h
  have hvalue : ∀ n, Denotes v n → n = digitsValue t.toList := by
    intro n hn
    obtain ⟨htext, -, hvalue⟩ := normalizeAmount_of_denotes hn
    rw [h, Option.some.injEq] at htext
    rw [htext, String.toList_ofList, hvalue]
  intro n
  refine ⟨hvalue n, ?_⟩
  rintro rfl
  rwa [← hvalue m hm]

/-! ## The fields of a payment -/

/-- The text of a field without the spaces around it, if it is one. -/
def textOf (v : Value ν) : Option String :=
  match v with
  | .str s => some (trim s)
  | _ => none

variable (w : Witness ν)

omit [CommRing ν] [LinearOrder ν] [FloorRing ν] in
theorem trimmedField_eq (name : String) :
    trimmedField w name = ((textOf (w.get name)).map fun t => (name, Value.str t)).toList := by
  unfold trimmedField textOf
  cases w.get name <;> rfl

theorem amountField_eq :
    amountField w = ((normalizeAmount (w.get "amount")).map fun t => ("amount", Value.str t)).toList := by
  unfold amountField
  cases normalizeAmount (w.get "amount") <;> rfl

theorem namedFields_eq :
    namedFields w = ((textOf (w.get "recipient")).map fun t => ("recipient", Value.str t)).toList ++
      ((normalizeAmount (w.get "amount")).map fun t => ("amount", Value.str t)).toList ++
      ((textOf (w.get "asset")).map fun t => ("asset", Value.str t)).toList := by
  rw [namedFields, trimmedField_eq, trimmedField_eq, amountField_eq]

/-- What the fields of a payment are in a sanitized witness. -/
theorem lookup_sanitized :
    (sanitizedWitness w).own.lookup "recipient" = (textOf (w.get "recipient")).map .str ∧
      (sanitizedWitness w).own.lookup "amount" = (normalizeAmount (w.get "amount")).map .str ∧
      (sanitizedWitness w).own.lookup "asset" = (textOf (w.get "asset")).map .str := by
  have hkept : ∀ name, isNamed name = true → w.kept.lookup name = none := by
    intro name hname
    refine List.lookup_eq_none_iff.mpr fun f hf => ?_
    have hne : name ≠ f.1 := by
      rintro rfl
      have hnot := (mem_kept.mp hf).2.1
      rw [hname] at hnot
      cases hnot
    simpa using hne
  have hlookup : ∀ name, isNamed name = true →
      (sanitizedWitness w).own.lookup name = (namedFields w).lookup name := by
    intro name hname
    show (propertyOrder (namedFields w ++ w.kept)).lookup name = _
    rw [lookup_propertyOrder (nodup_fields w), List.lookup_append, hkept name hname, Option.or_none]
  rw [hlookup "recipient" rfl, hlookup "amount" rfl, hlookup "asset" rfl, namedFields_eq]
  cases textOf (w.get "recipient") <;> cases normalizeAmount (w.get "amount") <;> cases textOf (w.get "asset") <;>
    exact ⟨rfl, rfl, rfl⟩

/-- A witness without errors has texts that are not blank, and an amount that is
one, where it has any. -/
structure Clean (w : Witness ν) : Prop where
  allowed : ∀ f ∈ w.own, f.1 ∉ FORBIDDEN_WITNESS_FIELDS
  recipient : isMissing (w.get "recipient") = true ∨ ∃ t, textOf (w.get "recipient") = some t ∧ t ≠ ""
  amount : isMissing (w.get "amount") = true ∨ normalizeAmount (w.get "amount") ≠ none
  asset : isMissing (w.get "asset") = true ∨ ∃ t, textOf (w.get "asset") = some t ∧ t ≠ ""

omit [CommRing ν] [LinearOrder ν] [FloorRing ν] in
theorem textErrors_eq_nil {field : String} {code : SanitizeErrorCode} {notText empty : String} {v : Value ν} :
    textErrors field code notText empty v = [] ↔ isMissing v = true ∨ ∃ t, textOf v = some t ∧ t ≠ "" := by
  cases v with
  | undefined => exact iff_of_true rfl (.inl rfl)
  | null => exact iff_of_true rfl (.inl rfl)
  | str s =>
    simp only [textErrors, textOf, isMissing, Bool.false_eq_true, Option.some.injEq, exists_eq_left', false_or]
    by_cases h : trim s = "" <;> simp [h]
  | function | bool | num | bigint | arr | obj =>
    simp [textErrors, textOf, isMissing]

theorem sanitizeErrors_eq_nil {w : Witness ν} : sanitizeErrors w = [] ↔ Clean w := by
  have hforbidden : forbiddenErrors w = [] ↔ ∀ f ∈ w.own, f.1 ∉ FORBIDDEN_WITNESS_FIELDS := by
    rw [forbiddenErrors, List.map_eq_nil_iff, List.filter_eq_nil_iff]
    simp only [decide_eq_true_eq]
  have hamount : amountErrors w = [] ↔
      isMissing (w.get "amount") = true ∨ normalizeAmount (w.get "amount") ≠ none := by
    unfold amountErrors
    by_cases h : isMissing (w.get "amount") = false ∧ normalizeAmount (w.get "amount") = none
    · rw [if_pos h]
      exact iff_of_false (List.cons_ne_nil _ _) (by simp [h])
    · rw [if_neg h]
      refine iff_of_true rfl ?_
      rw [Classical.not_and_iff_not_or_not] at h
      exact h.imp_left fun hm => by simpa using hm
  simp only [sanitizeErrors, List.append_eq_nil_iff, hforbidden, hamount, recipientErrors, assetErrors,
    textErrors_eq_nil]
  exact ⟨fun ⟨⟨⟨h₁, h₂⟩, h₃⟩, h₄⟩ => ⟨h₁, h₂, h₃, h₄⟩, fun h => ⟨⟨⟨h.allowed, h.recipient⟩, h.amount⟩, h.asset⟩⟩

theorem sanitizeProofInput_eq_ok {w s : Witness ν} :
    sanitizeProofInput (some w) = .ok s ↔ Clean w ∧ s = sanitizedWitness w := by
  rw [sanitizeProofInput, ← sanitizeErrors_eq_nil]
  by_cases h : sanitizeErrors w = []
  · rw [if_pos h, Except.ok.injEq]
    exact ⟨fun hs => ⟨h, hs.symm⟩, fun hs => hs.2.symm⟩
  · rw [if_neg h]
    exact iff_of_false nofun fun hs => h hs.1

/-! ## One payment -/

/-- Two witnesses of one payment: they agree in their other fields, their
recipients and assets without the spaces around them, and the number that their
amounts denote. -/
structure SamePayment (w w' : Witness ν) : Prop where
  others : w.others = w'.others
  recipient : ∃ t, textOf (w.get "recipient") = some t ∧ textOf (w'.get "recipient") = some t
  amount : ∃ n, Denotes (w.get "amount") n ∧ Denotes (w'.get "amount") n
  asset : ∃ t, textOf (w.get "asset") = some t ∧ textOf (w'.get "asset") = some t

/-- No field is forbidden, and the texts of the payment are not blank. -/
structure Payable (w : Witness ν) : Prop where
  allowed : ∀ f ∈ w.own, f.1 ∉ FORBIDDEN_WITNESS_FIELDS
  recipient : textOf (w.get "recipient") ≠ some ""
  asset : textOf (w.get "asset") ≠ some ""

omit [CommRing ν] [LinearOrder ν] [FloorRing ν] in
theorem textErrors_congr {field : String} {code : SanitizeErrorCode} {notText empty t : String} {v v' : Value ν}
    (h : textOf v = some t) (h' : textOf v' = some t) :
    textErrors field code notText empty v = textErrors field code notText empty v' := by
  have htext : ∀ {v : Value ν}, textOf v = some t → ∃ s, v = .str s ∧ trim s = t := by
    intro v hv
    cases v with
    | str s => exact ⟨s, rfl, Option.some.inj hv⟩
    | _ => cases hv
  obtain ⟨s, rfl, hs⟩ := htext h
  obtain ⟨s', rfl, hs'⟩ := htext h'
  rw [textErrors, textErrors, hs, hs']

namespace SamePayment

variable {w w' : Witness ν}

/-- The forbidden fields are among the other fields. -/
theorem forbidden_eq (h : SamePayment w w') :
    (w.own.filter fun f => f.1 ∈ FORBIDDEN_WITNESS_FIELDS) = w'.own.filter fun f => f.1 ∈ FORBIDDEN_WITNESS_FIELDS := by
  have hothers : ∀ w : Witness ν, (w.own.filter fun f => f.1 ∈ FORBIDDEN_WITNESS_FIELDS) =
      w.others.filter fun f => f.1 ∈ FORBIDDEN_WITNESS_FIELDS := by
    intro w
    rw [Witness.others, List.filter_filter]
    refine List.filter_congr fun f _ => ?_
    by_cases hf : f.1 ∈ FORBIDDEN_WITNESS_FIELDS
    · have hnamed : ∀ k ∈ FORBIDDEN_WITNESS_FIELDS, isNamed k = false := by decide
      simp [hf, hnamed f.1 hf]
    · simp [hf]
  rw [hothers, hothers, h.others]

/-- One payment has the same errors. -/
theorem sanitizeErrors_eq (h : SamePayment w w') : sanitizeErrors w = sanitizeErrors w' := by
  obtain ⟨t, ht, ht'⟩ := h.recipient
  obtain ⟨u, hu, hu'⟩ := h.asset
  obtain ⟨n, hn, hn'⟩ := h.amount
  have hamount : ∀ {w : Witness ν}, Denotes (w.get "amount") n → amountErrors w = [] := by
    intro w hn
    rw [amountErrors, (normalizeAmount_of_denotes hn).1, if_neg]
    exact fun hnone => nomatch hnone.2
  rw [sanitizeErrors, sanitizeErrors, hamount hn, hamount hn', forbiddenErrors, forbiddenErrors, h.forbidden_eq,
    recipientErrors, recipientErrors, textErrors_congr ht ht', assetErrors, assetErrors, textErrors_congr hu hu']

theorem clean_iff (h : SamePayment w w') : Clean w ↔ Payable w := by
  obtain ⟨t, ht, -⟩ := h.recipient
  obtain ⟨u, hu, -⟩ := h.asset
  obtain ⟨n, hn, -⟩ := h.amount
  have htext : ∀ {v : Value ν} {t : String}, textOf v = some t →
      ((isMissing v = true ∨ ∃ t, textOf v = some t ∧ t ≠ "") ↔ textOf v ≠ some "") := by
    intro v t hv
    cases v with
    | str s => simp [textOf, isMissing]
    | _ => cases hv
  constructor
  · exact fun hc => ⟨hc.allowed, (htext ht).mp hc.recipient, (htext hu).mp hc.asset⟩
  · intro hp
    refine ⟨hp.allowed, (htext ht).mpr hp.recipient, .inr ?_, (htext hu).mpr hp.asset⟩
    rw [(normalizeAmount_of_denotes hn).1]
    exact nofun

/-- The sanitized witnesses are the same exactly if the amounts are given in as
many digits. -/
theorem sanitizedWitness_eq_iff (h : SamePayment w w') :
    sanitizedWitness w = sanitizedWitness w' ↔
      (digitsOf (w.get "amount")).length = (digitsOf (w'.get "amount")).length := by
  obtain ⟨t, ht, ht'⟩ := h.recipient
  obtain ⟨u, hu, hu'⟩ := h.asset
  obtain ⟨n, hn, hn'⟩ := h.amount
  obtain ⟨hamount, hdigits, hvalue⟩ := normalizeAmount_of_denotes hn
  obtain ⟨hamount', hdigits', hvalue'⟩ := normalizeAmount_of_denotes hn'
  have hcarried : w.carried = w'.carried := by rw [Witness.carried, Witness.carried, h.others]
  constructor
  · intro heq
    have hlookup := congrArg (fun s => s.own.lookup "amount") heq
    simp only [(lookup_sanitized w).2.1, (lookup_sanitized w').2.1, hamount, hamount', Option.map_some, Option.some.injEq,
      Value.str.injEq] at hlookup
    rw [String.ofList_injective hlookup]
  · intro hlen
    have hsame : digitsOf (w.get "amount") = digitsOf (w'.get "amount") :=
      digits_ext (isDigits_iff.mp hdigits).2 (isDigits_iff.mp hdigits').2 hlen (hvalue.trans hvalue'.symm)
    have hnamed : namedFields w = namedFields w' := by
      rw [namedFields_eq, namedFields_eq, ht, ht', hu, hu', hamount, hamount', hsame]
    have hkept : w.kept = w'.kept := by rw [Witness.kept, Witness.kept, hcarried]
    have hproto : w.assignedProto = w'.assignedProto := by
      rw [Witness.assignedProto, Witness.assignedProto, hcarried]
    simp only [sanitizedWitness, hnamed, hkept, hproto]

end SamePayment

/-- The two witnesses are sanitized to one, or refused alike, and have one key. -/
def SanitizedAlike [NumberFormat ν] (toJSON : Witness ν → Value ν) (w w' : Witness ν) : Prop :=
  sanitizeProofInput (some w) = sanitizeProofInput (some w') ∧
    ∀ s s', sanitizeProofInput (some w) = .ok s → sanitizeProofInput (some w') = .ok s' →
      witnessKey toJSON s = witnessKey toJSON s'

/-- Witnesses of one payment are sanitized alike exactly where they are refused or
their amounts are given in as many digits. -/
theorem sanitizes_alike_iff [NumberFormat ν] (toJSON : Witness ν → Value ν) {w w' : Witness ν} (h : SamePayment w w') :
    SanitizedAlike toJSON w w' ↔
      (Payable w → (digitsOf (w.get "amount")).length = (digitsOf (w'.get "amount")).length) := by
  have hresult : sanitizeProofInput (some w) = sanitizeProofInput (some w') ↔
      (Payable w → (digitsOf (w.get "amount")).length = (digitsOf (w'.get "amount")).length) := by
    rw [sanitizeProofInput, sanitizeProofInput, ← h.sanitizeErrors_eq, ← h.sanitizedWitness_eq_iff, ← h.clean_iff,
      ← sanitizeErrors_eq_nil]
    by_cases hclean : sanitizeErrors w = []
    · rw [if_pos hclean, if_pos hclean, Except.ok.injEq]
      exact ⟨fun heq _ => heq, fun heq => heq hclean⟩
    · rw [if_neg hclean, if_neg hclean]
      exact iff_of_true rfl fun hnil => absurd hnil hclean
  rw [SanitizedAlike, hresult]
  refine and_iff_left_of_imp fun hlen s s' hs hs' => ?_
  rw [hresult.mpr hlen, hs', Except.ok.injEq] at hs
  rw [hs]

/-! ## Different payments -/

/-- The witnesses pay the same number to the same recipient in the same asset, or
leave the same of these out. -/
structure PaysAlike (w w' : Witness ν) : Prop where
  recipient : textOf (w.get "recipient") = textOf (w'.get "recipient")
  amount : ∀ n, Denotes (w.get "amount") n ↔ Denotes (w'.get "amount") n
  asset : textOf (w.get "asset") = textOf (w'.get "asset")

omit [CommRing ν] [LinearOrder ν] [FloorRing ν] in
/-- The fields that are written, one by one. -/
theorem keepSome_keyFields_cons (f : String × Value ν) (fields : List (String × Value ν)) :
    keepSome (keyFields (f :: fields)) =
      ((keyJson f.2).map fun json => (f.1, json)).toList ++ keepSome (keyFields fields) := by
  rw [keepSome, keyFields, keepSome]
  cases hf : keyJson f.2 with
  | none => rw [List.filterMap_cons_none (by rfl)]; rfl
  | some json => rw [List.filterMap_cons_some (b := (f.1, json)) (by rfl)]; rfl

omit [CommRing ν] [LinearOrder ν] [FloorRing ν] in
theorem mem_keepSome_keyFields {fields : List (String × Value ν)} {g : String × Json ν}
    (h : g ∈ keepSome (keyFields fields)) : ∃ f ∈ fields, f.1 = g.1 ∧ keyJson f.2 = some g.2 := by
  induction fields with
  | nil => cases h
  | cons f fields ih =>
    rw [keepSome_keyFields_cons, List.mem_append, Option.mem_toList] at h
    rcases h with h | h
    · obtain ⟨json, hjson, rfl⟩ := Option.map_eq_some_iff.mp h
      exact ⟨f, List.mem_cons_self, rfl, hjson⟩
    · obtain ⟨f', hf', heq⟩ := ih h
      exact ⟨f', List.mem_cons_of_mem _ hf', heq⟩

omit [CommRing ν] [LinearOrder ν] [FloorRing ν] in
theorem keys_keepSome_sublist (fields : List (String × Value ν)) :
    ((keepSome (keyFields fields)).map Prod.fst).Sublist (fields.map Prod.fst) := by
  induction fields with
  | nil => exact List.Sublist.refl _
  | cons f fields ih =>
    rw [keepSome_keyFields_cons]
    cases keyJson f.2 with
    | none => exact ih.cons _
    | some json => exact ih.cons_cons _

omit [CommRing ν] [LinearOrder ν] [FloorRing ν] in
theorem lookup_keepSome_keyFields {fields : List (String × Value ν)} (h : (fields.map Prod.fst).Nodup) (k : String) :
    (keepSome (keyFields fields)).lookup k = (fields.lookup k).bind keyJson := by
  have hkeys : ((keepSome (keyFields fields)).map Prod.fst).Nodup := h.sublist (keys_keepSome_sublist fields)
  induction fields with
  | nil => rfl
  | cons f fields ih =>
    obtain ⟨l, v⟩ := f
    rw [List.map_cons, List.nodup_cons] at h
    have ih := ih h.2 (h.2.sublist (keys_keepSome_sublist fields))
    rw [keepSome_keyFields_cons, List.lookup_append, ih, lookup_cons_eq]
    by_cases hk : k = l
    · -- no other field has the key
      have hnone : fields.lookup k = none := by
        refine List.lookup_eq_none_iff.mpr fun f hf => ?_
        have hne : k ≠ f.1 := by
          intro heq
          exact h.1 (List.mem_map.mpr ⟨f, hf, heq.symm.trans hk⟩)
        simpa using hne
      rw [hnone, if_pos hk, Option.bind_some]
      cases hv : keyJson v <;> simp [hk]
    · rw [if_neg hk]
      cases hv : keyJson v <;> simp [lookup_cons_eq, hk]

omit [CommRing ν] [LinearOrder ν] [FloorRing ν] in
/-- The text of a witness is that of an object with distinct keys. -/
theorem distinctKeys_own : DistinctKeys (.obj (keepSome (keyFields w.own))) := by
  rw [DistinctKeys, distinctFields_iff]
  refine ⟨w.nodup.sublist (keys_keepSome_sublist _), fun g hg => ?_⟩
  obtain ⟨f, hf, -, hjson⟩ := mem_keepSome_keyFields hg
  exact w.hasKeys f hf _ hjson

omit [CommRing ν] [LinearOrder ν] [FloorRing ν] in
/-- Witnesses that share a key have the same texts in their fields. -/
theorem lookup_eq_of_witnessKey_eq [NumberFormat ν] {toJSON : Witness ν → Value ν} {s s' : Witness ν}
    (hs : s.hasToJSON = false) (hs' : s'.hasToJSON = false) (h : witnessKey toJSON s = witnessKey toJSON s') (k : String) :
    (s.own.lookup k).bind keyJson = (s'.own.lookup k).bind keyJson := by
  have htext : ∀ w : Witness ν, w.hasToJSON = false →
      witnessKey toJSON w = "proof:" ++ stringify (.obj (keepSome (keyFields w.own))) := by
    intro w hw
    simp only [witnessKey, hw, Bool.false_eq_true, if_false, keyJson, Option.map_some, Option.getD_some]
  rw [htext s hs, htext s' hs', String.append_right_inj] at h
  have hobj := stringify_injective (distinctKeys_own s) (distinctKeys_own s') h
  rw [Json.obj.injEq] at hobj
  rw [← lookup_keepSome_keyFields s.nodup, ← lookup_keepSome_keyFields s'.nodup, hobj]

/-- Sanitized witnesses that share a key pay alike. -/
theorem paysAlike_of_witnessKey_eq [NumberFormat ν] {toJSON : Witness ν → Value ν} {w w' s s' : Witness ν}
    (hs : sanitizeProofInput (some w) = .ok s) (hs' : sanitizeProofInput (some w') = .ok s')
    (hplain : s.hasToJSON = false) (hplain' : s'.hasToJSON = false) (h : witnessKey toJSON s = witnessKey toJSON s') :
    PaysAlike w w' := by
  obtain ⟨hclean, rfl⟩ := sanitizeProofInput_eq_ok.mp hs
  obtain ⟨hclean', rfl⟩ := sanitizeProofInput_eq_ok.mp hs'
  have hfield := lookup_eq_of_witnessKey_eq hplain hplain' h
  obtain ⟨hrecipient, hamount, hasset⟩ := lookup_sanitized w
  obtain ⟨hrecipient', hamount', hasset'⟩ := lookup_sanitized w'
  have hstr : ∀ {o o' : Option String},
      ((o.map Value.str).bind keyJson : Option (Json ν)) = (o'.map Value.str).bind keyJson → o = o' := by
    intro o o' ho
    cases o <;> cases o' <;> simp_all [keyJson]
  have htext : normalizeAmount (w.get "amount") = normalizeAmount (w'.get "amount") :=
    hstr (by rw [← hamount, ← hamount', hfield])
  refine ⟨hstr (by rw [← hrecipient, ← hrecipient', hfield]), ?_, hstr (by rw [← hasset, ← hasset', hfield])⟩
  intro n
  cases ht : normalizeAmount (w.get "amount") with
  | some t => rw [denotes_of_normalizeAmount ht, denotes_of_normalizeAmount (htext ▸ ht)]
  | none =>
    have hnone : ∀ {v : Value ν}, normalizeAmount v = none → ¬Denotes v n := by
      intro v hv hd
      rw [(normalizeAmount_of_denotes hd).1] at hv
      cases hv
    exact iff_of_false (hnone ht) (hnone (htext ▸ ht))

/-! ## Sanitizing again -/

/-- The value of a text, or `undefined`. -/
def ofText (o : Option String) : Value ν := (o.map .str).getD .undefined

omit [CommRing ν] [LinearOrder ν] [FloorRing ν] in
theorem textOf_ofText_textOf (v : Value ν) : textOf (ofText (textOf v) : Value ν) = textOf v := by
  cases v with
  | str s => exact congrArg some (trim_trim s)
  | _ => rfl

theorem normalizeAmount_ofText_normalizeAmount (v : Value ν) :
    normalizeAmount (ofText (normalizeAmount v) : Value ν) = normalizeAmount v := by
  cases ht : normalizeAmount v with
  | none => rfl
  | some t =>
    obtain ⟨n, hn⟩ : ∃ n, Denotes v n := ⟨_, (denotes_of_normalizeAmount ht _).mpr rfl⟩
    obtain ⟨htext, hdigits, hvalue⟩ := normalizeAmount_of_denotes hn
    rw [ht, Option.some.injEq] at htext
    have htrim : trim t = t := by
      rw [htext, trim, String.toList_ofList, trimChars_of_isDigits hdigits]
    have hof : digitsOf (.str t : Value ν) = digitsOf v := by
      rw [digitsOf, htrim, htext, String.toList_ofList]
    have hdenotes : Denotes (.str t : Value ν) n := by
      refine .inr (.inr ⟨t, rfl, ?_, ?_⟩)
      · rw [htrim, htext, String.toList_ofList, hdigits]
      · rw [htrim, htext, String.toList_ofList, hvalue]
    show normalizeAmount (.str t : Value ν) = some t
    rw [(normalizeAmount_of_denotes hdenotes).1, hof, ← htext]

/-- What is read of a sanitized witness with the ordinary prototype. -/
theorem get_sanitized {w : Witness ν} (h : (sanitizedWitness w).proto = none) :
    (sanitizedWitness w).get "recipient" = ofText (textOf (w.get "recipient")) ∧
      (sanitizedWitness w).get "amount" = ofText (normalizeAmount (w.get "amount")) ∧
      (sanitizedWitness w).get "asset" = ofText (textOf (w.get "asset")) := by
  have hget : ∀ name, (sanitizedWitness w).get name = ((sanitizedWitness w).own.lookup name).getD .undefined := by
    intro name
    rw [Witness.get, h]
    cases (sanitizedWitness w).own.lookup name <;> rfl
  obtain ⟨hrecipient, hamount, hasset⟩ := lookup_sanitized w
  rw [hget, hget, hget, hrecipient, hamount, hasset]
  exact ⟨rfl, rfl, rfl⟩

/-- A sanitized witness with the ordinary prototype is sanitized to itself. -/
theorem sanitizedWitness_again {w : Witness ν} (h : (sanitizedWitness w).proto = none) :
    sanitizedWitness (sanitizedWitness w) = sanitizedWitness w := by
  obtain ⟨hrecipient, hamount, hasset⟩ := get_sanitized h
  have hnamed : namedFields (sanitizedWitness w) = namedFields w := by
    rw [namedFields_eq, namedFields_eq, hrecipient, hamount, hasset, textOf_ofText_textOf, textOf_ofText_textOf,
      normalizeAmount_ofText_normalizeAmount]
  have hfields : ∀ f ∈ namedFields w, isNamed f.1 = true ∧ isArrayIndex f.1 = false := by
    intro f hf
    have hkey := (keys_namedFields w).subset (List.mem_map_of_mem hf)
    refine ⟨isNamed_of_mem hf, ?_⟩
    have hplain : ∀ k ∈ ["recipient", "amount", "asset"], isArrayIndex k = false := by decide
    exact hplain f.1 hkey
  obtain ⟨hothers, hagain⟩ := propertyOrder_again hfields fun f hf => (mem_kept.mp hf).2.1
  have hkeep : ∀ f ∈ (sanitizedWitness w).others, f ∈ w.kept := by
    intro f hf
    change f ∈ (propertyOrder (namedFields w ++ w.kept)).filter (fun f => !isNamed f.1) at hf
    rw [hothers] at hf
    exact (propertyOrder_perm _).mem_iff.mp hf
  have hcarried : (sanitizedWitness w).carried = (sanitizedWitness w).others :=
    List.filter_eq_self.mpr fun f hf => by simpa using (mem_kept.mp (hkeep f hf)).2.2.1
  have hkept : (sanitizedWitness w).kept = propertyOrder w.kept := by
    rw [Witness.kept, hcarried, List.filter_eq_self.mpr fun f hf => (mem_kept.mp (hkeep f hf)).2.2.2]
    exact hothers
  have hproto : (sanitizedWitness w).assignedProto = none := by
    have hlookup : (sanitizedWitness w).carried.lookup "__proto__" = none := by
      rw [hcarried]
      refine List.lookup_eq_none_iff.mpr fun f hf => ?_
      have hproto := (mem_kept.mp (hkeep f hf)).2.2.2
      rw [notProto, decide_eq_true_iff] at hproto
      simpa using hproto.symm
    rw [Witness.assignedProto, hlookup]
    rfl
  have hown : propertyOrder (namedFields (sanitizedWitness w) ++ (sanitizedWitness w).kept) = (sanitizedWitness w).own := by
    rw [hnamed, hkept, hagain]
    rfl
  have hsame : ∀ {s : Witness ν}, propertyOrder (namedFields s ++ s.kept) = s.own → s.assignedProto = s.proto →
      sanitizedWitness s = s := by
    intro s hown hproto
    obtain ⟨own, proto, hn, hk⟩ := s
    simp only [sanitizedWitness, Witness.mk.injEq]
    exact ⟨hown, hproto⟩
  exact hsame hown (hproto.trans h.symm)

/-- No field `__proto__` of the witness sets a prototype. -/
def KeepsPrototype (w : Witness ν) : Prop := ∀ v, w.own.lookup "__proto__" = some v → isPrototype v = false

omit [CommRing ν] [LinearOrder ν] [FloorRing ν] in
theorem assignedProto_eq_none_iff {w : Witness ν} : w.assignedProto = none ↔ KeepsPrototype w := by
  have hcarried : w.carried.lookup "__proto__" = w.own.lookup "__proto__" := by
    have hsub : (w.carried.map Prod.fst).Nodup :=
      w.nodup.sublist ((List.filter_sublist.trans List.filter_sublist).map Prod.fst)
    refine Option.ext fun v => ?_
    rw [← mem_iff_lookup hsub ("__proto__", v), ← mem_iff_lookup w.nodup ("__proto__", v), Witness.carried, Witness.others,
      List.mem_filter, List.mem_filter, and_assoc]
    have hfree : isNamed "__proto__" = false ∧ "__proto__" ∉ FORBIDDEN_WITNESS_FIELDS := by decide
    simp [hfree]
  rw [Witness.assignedProto, hcarried, KeepsPrototype, Option.filter_eq_none_iff]
  simp only [Bool.not_eq_true]

/-- A sanitized witness is sanitized to itself exactly where no field set its
prototype. -/
theorem sanitizeProofInput_sanitized_iff {w s : Witness ν} (hs : sanitizeProofInput (some w) = .ok s) :
    sanitizeProofInput (some s) = .ok s ↔ KeepsPrototype w := by
  obtain ⟨hclean, rfl⟩ := sanitizeProofInput_eq_ok.mp hs
  rw [sanitizeProofInput_eq_ok, ← assignedProto_eq_none_iff]
  constructor
  · rintro ⟨-, hsame⟩
    -- a sanitized witness has no field that could set the prototype of the next
    have hproto : (sanitizedWitness (sanitizedWitness w)).proto = none := by
      refine assignedProto_eq_none_iff.mpr fun v hv => ?_
      have hmem := (propertyOrder_perm _).mem_iff.mp (lookup_mem hv)
      rcases List.mem_append.mp hmem with hnamed | hkept
      · exact absurd (isNamed_of_mem hnamed) (by decide : ¬isNamed "__proto__" = true)
      · exact absurd (mem_kept.mp hkept).2.2.2 (by decide : ¬notProto "__proto__" = true)
    rw [← hsame] at hproto
    exact hproto
  · intro hproto
    refine ⟨?_, (sanitizedWitness_again hproto).symm⟩
    obtain ⟨hrecipient, hamount, hasset⟩ := get_sanitized (w := w) hproto
    have htext : ∀ {v : Value ν}, (isMissing v = true ∨ ∃ t, textOf v = some t ∧ t ≠ "") →
        isMissing (ofText (textOf v) : Value ν) = true ∨
          ∃ t, textOf (ofText (textOf v) : Value ν) = some t ∧ t ≠ "" := by
      intro v hv
      rw [textOf_ofText_textOf]
      refine hv.imp_left fun hm => ?_
      cases v with
      | undefined => rfl
      | null => rfl
      | _ => cases hm
    refine ⟨?_, hrecipient ▸ htext hclean.recipient, ?_, hasset ▸ htext hclean.asset⟩
    · intro f hf
      rcases List.mem_append.mp ((propertyOrder_perm _).mem_iff.mp hf) with hnamed | hkept
      · have hkey := (keys_namedFields w).subset (List.mem_map_of_mem hnamed)
        exact (by decide : ∀ k ∈ ["recipient", "amount", "asset"], k ∉ FORBIDDEN_WITNESS_FIELDS) f.1 hkey
      · exact (mem_kept.mp hkept).2.2.1
    · rw [hamount, normalizeAmount_ofText_normalizeAmount]
      cases ht : normalizeAmount (w.get "amount") with
      | none => exact .inl rfl
      | some t => exact .inr nofun

/-- Whatever methods `toJSON` return, only sanitized witnesses that pay alike
share a key, exactly where they have no such methods or pay alike. -/
theorem paysAlike_of_key_iff [NumberFormat ν] {w w' s s' : Witness ν} (hs : sanitizeProofInput (some w) = .ok s)
    (hs' : sanitizeProofInput (some w') = .ok s') :
    (∀ toJSON, witnessKey toJSON s = witnessKey toJSON s' → PaysAlike w w') ↔
      (s.hasToJSON = false ∧ s'.hasToJSON = false) ∨ PaysAlike w w' := by
  constructor
  · intro h
    by_cases hplain : s.hasToJSON = false ∧ s'.hasToJSON = false
    · exact .inl hplain
    · -- a method that gives what the other witness has, or what the other method gives
      refine .inr (h (fun _ => .obj (if s.hasToJSON then s'.own else s.own)) ?_)
      unfold witnessKey
      cases hmethod : s.hasToJSON <;> cases hmethod' : s'.hasToJSON
      · exact absurd ⟨hmethod, hmethod'⟩ hplain
      all_goals rfl
  · rintro (⟨hplain, hplain'⟩ | halike) toJSON hkey
    · exact paysAlike_of_witnessKey_eq hs hs' hplain hplain' hkey
    · exact halike

/-- Witnesses of one payment are sanitized alike exactly where they are refused or
their amounts are given in as many digits; whatever methods `toJSON` return, only
sanitized witnesses that pay alike share a key, exactly where they have no such
methods or pay alike; and a sanitized witness is sanitized to itself exactly where
no field set its prototype. -/
theorem sanitized_payments [NumberFormat ν] (toJSON : Witness ν → Value ν) :
    (∀ w w' : Witness ν, SamePayment w w' → (SanitizedAlike toJSON w w' ↔
      (Payable w → (digitsOf (w.get "amount")).length = (digitsOf (w'.get "amount")).length))) ∧
    (∀ w w' s s' : Witness ν, sanitizeProofInput (some w) = .ok s → sanitizeProofInput (some w') = .ok s' →
      ((∀ toJSON, witnessKey toJSON s = witnessKey toJSON s' → PaysAlike w w') ↔
        (s.hasToJSON = false ∧ s'.hasToJSON = false) ∨ PaysAlike w w')) ∧
    ∀ w s : Witness ν, sanitizeProofInput (some w) = .ok s → (sanitizeProofInput (some s) = .ok s ↔ KeepsPrototype w) :=
  ⟨fun _ _ h => sanitizes_alike_iff toJSON h, fun _ _ _ _ hs hs' => paysAlike_of_key_iff hs hs',
    fun _ _ hs => sanitizeProofInput_sanitized_iff hs⟩

end Payments

/-- A payment of an amount. -/
def paymentOf (amount : Value Int) (h : HasKeys amount) : Witness Int where
  own := [("recipient", .str "GA"), ("amount", amount), ("asset", .str "native")]
  nodup := by
    show ["recipient", "amount", "asset"].Nodup
    decide
  hasKeys f hf := by
    simp only [List.mem_cons, List.not_mem_nil, or_false] at hf
    rcases hf with rfl | rfl | rfl
    · exact hasKeys_str "GA"
    · exact h
    · exact hasKeys_str "native"

/-- Seven and 007 are one amount, with two keys. -/
theorem leading_zeros :
    ∃ h, SamePayment (paymentOf (.str "7") (hasKeys_str _)) (paymentOf (.str "007") h) ∧
      ¬SanitizedAlike (fun _ => .undefined) (paymentOf (.str "7") (hasKeys_str _)) (paymentOf (.str "007") h) := by
  have hsame : SamePayment (paymentOf (.str "7") (hasKeys_str _)) (paymentOf (.str "007") (hasKeys_str _)) :=
    ⟨rfl, ⟨"GA", rfl, rfl⟩, ⟨7, .inr (.inr ⟨"7", rfl, rfl, rfl⟩), .inr (.inr ⟨"007", rfl, rfl, rfl⟩)⟩,
      ⟨"native", rfl, rfl⟩⟩
  refine ⟨hasKeys_str _, hsame, fun h => ?_⟩
  have hdigits := (sanitizes_alike_iff _ hsame).mp h ⟨by decide, by decide, by decide⟩
  exact absurd hdigits (by decide)

end ZkPayroll.Crypto.ProofInput
