import Mathlib.Data.List.Perm.Basic
import ZkPayroll.Framework.Guards
import ZkPayroll.Funding.Readiness

/-!
# What a funding report says

Validation accepts exactly the lists that are not `Malformed`. The report of
accepted lists has one entry for each of their assets, compares the sum of its
obligations with what is unreserved of its balance, and is the same for every
order of the lists (`funding_report_exact`).
-/

namespace ZkPayroll.Funding

open Framework ZkPayroll.Core

/-! ## Well-formed lists -/

/-- The obligation as it is given. -/
def FundingObligation.raw (o : FundingObligation) : RawObligation := .object (.string o.asset) (.bigint o.amount)

/-- The obligation passes its checks. -/
structure FundingObligation.Valid (o : FundingObligation) : Prop where
  asset : o.asset ≠ ""
  amount : 0 ≤ o.amount

/-- The snapshot as it is given. -/
def AssetBalanceSnapshot.raw (b : AssetBalanceSnapshot) : RawSnapshot :=
  .object (.string b.asset) (.bigint b.available)
    (match b.reserved with
      | none => .absent
      | some reserved => .bigint reserved)

/-- The snapshot passes its checks. -/
structure AssetBalanceSnapshot.Valid (b : AssetBalanceSnapshot) : Prop where
  asset : b.asset ≠ ""
  available : 0 ≤ b.available
  reserved : ∀ r, b.reserved = some r → 0 ≤ r

/-- The snapshot reserves more than there is. -/
def AssetBalanceSnapshot.OverReserved (b : AssetBalanceSnapshot) : Prop :=
  ∃ r, b.reserved = some r ∧ b.available < r

theorem FundingObligation.raw_injective : Function.Injective FundingObligation.raw := by
  rintro ⟨a, n⟩ ⟨a', n'⟩ h
  simpa [FundingObligation.raw] using h

theorem AssetBalanceSnapshot.raw_injective : Function.Injective AssetBalanceSnapshot.raw := by
  rintro ⟨a, n, r⟩ ⟨a', n', r'⟩ h
  cases r <;> cases r' <;> simp_all [AssetBalanceSnapshot.raw]

/-- The asset that a snapshot names. -/
def RawSnapshot.asset? : RawSnapshot → Option String
  | .object (.string asset) _ _ => some asset
  | _ => none

/-- An obligation or a snapshot is malformed, an asset has two snapshots, or a
reservation exceeds its balance. -/
def Malformed (obligations : List RawObligation) (balances : List RawSnapshot) : Prop :=
  (∃ o ∈ obligations, ∀ x : FundingObligation, x.Valid → o ≠ x.raw) ∨
    (∃ b ∈ balances, ∀ x : AssetBalanceSnapshot, x.Valid → b ≠ x.raw) ∨
    ¬(balances.filterMap RawSnapshot.asset?).Nodup ∨
    ∃ b ∈ balances, ∃ x : AssetBalanceSnapshot, x.OverReserved ∧ b = x.raw

/-- A list whose items are all in the range of `f` is the image of a list. -/
theorem exists_map_eq {α β : Type} {f : α → β} {p : α → Prop} :
    ∀ {l : List β}, (∀ b ∈ l, ∃ a, p a ∧ b = f a) → ∃ as : List α, l = as.map f ∧ ∀ a ∈ as, p a
  | [], _ => ⟨[], rfl, fun _ h => nomatch h⟩
  | b :: l, h => by
    obtain ⟨a, ha, rfl⟩ := h b (.head _)
    obtain ⟨as, rfl, has⟩ := exists_map_eq fun b hb => h b (.tail _ hb)
    exact ⟨a :: as, rfl, by simpa using ⟨ha, has⟩⟩

/-! ## Validation -/

theorem validateObligation_eq_ok {i : Nat} {o : RawObligation} {x : FundingObligation} :
    validateObligation i o = .ok x ↔ o = x.raw ∧ x.Valid := by
  constructor
  · intro h
    unfold validateObligation at h
    split at h
    · cases h
    · rename_i asset amount
      split at h
      · cases h
      · rename_i hasset
        split at h
        · rename_i amount
          split at h
          · cases h
          · rename_i hamount
            cases h
            exact ⟨rfl, hasset, not_lt.mp hamount⟩
        · cases h
    · cases h
  · rintro ⟨rfl, hasset, hamount⟩
    simp [FundingObligation.raw, validateObligation, hasset, not_lt.mpr hamount]

theorem validateObligations_eq_ok {os : List RawObligation} :
    ∀ {i : Nat} {xs : List FundingObligation},
      validateObligations i os = .ok xs ↔ os = xs.map FundingObligation.raw ∧ ∀ x ∈ xs, x.Valid := by
  induction os with
  | nil =>
    intro i xs
    cases xs <;> simp [validateObligations]
  | cons o os ih =>
    intro i xs
    rw [validateObligations, except_bind_eq_ok]
    simp only [except_bind_eq_ok, validateObligation_eq_ok, ih]
    constructor
    · rintro ⟨x, ⟨rfl, hx⟩, xs', ⟨rfl, hxs⟩, h⟩
      cases h
      exact ⟨rfl, by simpa using ⟨hx, hxs⟩⟩
    · rintro ⟨h, hall⟩
      cases xs with
      | nil => cases h
      | cons x xs =>
        simp only [List.map_cons, List.cons.injEq] at h
        obtain ⟨rfl, rfl⟩ := h
        simp only [List.mem_cons, forall_eq_or_imp] at hall
        exact ⟨x, ⟨rfl, hall.1⟩, xs, ⟨rfl, hall.2⟩, rfl⟩

/-- What is reserved is nothing, or an amount that is available. -/
theorem validateReserved_eq_ok {i : Nat} {asset : String} {available : Int} {reserved : RawValue}
    {x : AssetBalanceSnapshot} :
    validateReserved i asset available reserved = .ok x ↔
      .object (.string asset) (.bigint available) reserved = x.raw ∧ (∀ r, x.reserved = some r → 0 ≤ r) ∧
        ¬x.OverReserved := by
  constructor
  · intro h
    unfold validateReserved at h
    split at h
    · cases h
      refine ⟨rfl, nofun, ?_⟩
      rintro ⟨r, hr, -⟩
      cases hr
    · rename_i r
      split at h
      · cases h
      · rename_i hr
        split at h
        · cases h
        · rename_i hover
          cases h
          refine ⟨rfl, ?_, ?_⟩
          · intro r' h'
            cases h'
            exact not_lt.mp hr
          · rintro ⟨r', h', hlt⟩
            cases h'
            exact hover hlt
    · cases h
  · obtain ⟨asset', available', reserved'⟩ := x
    rintro ⟨hraw, hres, hover⟩
    cases hraw
    cases reserved' with
    | none => rfl
    | some r =>
      have hr : ¬available' < r := fun h => hover ⟨r, rfl, h⟩
      simp only [validateReserved, if_neg (not_lt.mpr (hres r rfl)), if_neg hr]

theorem validateSnapshot_eq_ok {byAsset : List (String × AssetBalanceSnapshot)} {i : Nat} {b : RawSnapshot}
    {x : AssetBalanceSnapshot} :
    validateSnapshot byAsset i b = .ok x ↔
      b = x.raw ∧ x.Valid ∧ ¬x.OverReserved ∧ x.asset ∉ byAsset.map Prod.fst := by
  constructor
  · intro h
    unfold validateSnapshot at h
    split at h
    · cases h
    · split at h
      · cases h
      · rename_i hasset
        split at h
        · cases h
        · rename_i hdup
          simp only at h
          split at h
          · split at h
            · cases h
            · rename_i havail
              obtain ⟨hraw, hres, hover⟩ := validateReserved_eq_ok.mp h
              obtain ⟨asset', available', reserved'⟩ := x
              cases hraw
              exact ⟨rfl, ⟨hasset, not_lt.mp havail, hres⟩, hover, hdup⟩
          · cases h
    · cases h
  · rintro ⟨rfl, ⟨hasset, havail, hres⟩, hover, hdup⟩
    simp only [AssetBalanceSnapshot.raw, validateSnapshot, if_neg hasset, if_neg hdup, if_neg (not_lt.mpr havail)]
    exact validateReserved_eq_ok.mpr ⟨rfl, hres, hover⟩

/-- The entry of a snapshot. -/
def entryOf (x : AssetBalanceSnapshot) : String × AssetBalanceSnapshot := (x.asset, x)

theorem buildBalanceMap_eq_ok {bs : List RawSnapshot} :
    ∀ {i : Nat} {byAsset m : List (String × AssetBalanceSnapshot)}, (byAsset.map Prod.fst).Nodup →
      (buildBalanceMap i byAsset bs = .ok m ↔
        ∃ xs : List AssetBalanceSnapshot, bs = xs.map AssetBalanceSnapshot.raw ∧
          (∀ x ∈ xs, x.Valid ∧ ¬x.OverReserved) ∧ m = byAsset ++ xs.map entryOf ∧ (m.map Prod.fst).Nodup) := by
  induction bs with
  | nil =>
    intro i byAsset m hn
    rw [buildBalanceMap]
    constructor
    · intro h
      cases h
      exact ⟨[], rfl, by simp, by simp, hn⟩
    · rintro ⟨xs, hxs, -, rfl, -⟩
      obtain rfl : xs = [] := by simpa using hxs.symm
      simp
  | cons b bs ih =>
    intro i byAsset m hn
    rw [buildBalanceMap, except_bind_eq_ok]
    simp only [validateSnapshot_eq_ok]
    constructor
    · rintro ⟨x, ⟨rfl, hx, hover, hdup⟩, h⟩
      rw [setKey_of_notMem hdup] at h
      have hn' : ((byAsset ++ [(x.asset, x)]).map Prod.fst).Nodup := by
        rw [← setKey_of_notMem hdup]
        exact nodup_setKey hn
      obtain ⟨xs, rfl, hxs, rfl, hnodup⟩ := (ih hn').mp h
      refine ⟨x :: xs, rfl, by simpa using ⟨⟨hx, hover⟩, hxs⟩, by simp [entryOf], hnodup⟩
    · rintro ⟨xs, hbs, hxs, rfl, hnodup⟩
      cases xs with
      | nil => cases hbs
      | cons x xs =>
        simp only [List.map_cons, List.cons.injEq] at hbs
        obtain ⟨rfl, rfl⟩ := hbs
        simp only [List.mem_cons, forall_eq_or_imp] at hxs
        have happ : byAsset ++ (x :: xs).map entryOf = (byAsset ++ [(x.asset, x)]) ++ xs.map entryOf := by
          simp [entryOf]
        rw [happ] at hnodup ⊢
        have hn' : ((byAsset ++ [(x.asset, x)]).map Prod.fst).Nodup := by
          rw [List.map_append] at hnodup
          exact (List.nodup_append.mp hnodup).1
        have hdup : x.asset ∉ byAsset.map Prod.fst := by
          intro hin
          rw [List.map_append, List.nodup_append] at hn'
          exact hn'.2.2 _ hin _ (by simp) rfl
        refine ⟨x, ⟨rfl, hxs.1.1, hxs.1.2, hdup⟩, ?_⟩
        rw [setKey_of_notMem hdup]
        exact (ih hn').mpr ⟨xs, rfl, hxs.2, rfl, hnodup⟩

/-- The lists are these obligations and snapshots, and all are valid. -/
structure Reads (obligations : List RawObligation) (balances : List RawSnapshot) (os : List FundingObligation)
    (xs : List AssetBalanceSnapshot) : Prop where
  obligations : obligations = os.map FundingObligation.raw
  valid : ∀ o ∈ os, o.Valid
  balances : balances = xs.map AssetBalanceSnapshot.raw
  covered : ∀ x ∈ xs, x.Valid ∧ ¬x.OverReserved
  nodup : (xs.map AssetBalanceSnapshot.asset).Nodup

variable {obligations obligations' : List RawObligation} {balances balances' : List RawSnapshot}
  {os os' : List FundingObligation} {xs xs' : List AssetBalanceSnapshot}

theorem keys_entryOf (xs : List AssetBalanceSnapshot) :
    (xs.map entryOf).map Prod.fst = xs.map AssetBalanceSnapshot.asset := by
  rw [List.map_map]
  rfl

/-- The check accepts the lists that can be read. -/
theorem checkFundingReadiness_eq_ok {report : FundingReadinessReport} :
    checkFundingReadiness obligations balances = .ok report ↔
      ∃ os xs, Reads obligations balances os xs ∧
        report = fundingReport (fundingAssets os (xs.map entryOf)) := by
  have hnil : (([] : List (String × AssetBalanceSnapshot)).map Prod.fst).Nodup := List.nodup_nil
  rw [checkFundingReadiness, except_bind_eq_ok]
  simp only [except_bind_eq_ok, validateObligations_eq_ok, buildBalanceMap_eq_ok hnil]
  constructor
  · rintro ⟨os, ⟨hos, hvalid⟩, m, ⟨xs, hxs, hcov, rfl, hnodup⟩, h⟩
    rw [List.nil_append, keys_entryOf] at hnodup
    cases h
    exact ⟨os, xs, ⟨hos, hvalid, hxs, hcov, hnodup⟩, rfl⟩
  · rintro ⟨os, xs, h, rfl⟩
    refine ⟨os, ⟨h.obligations, h.valid⟩, xs.map entryOf, ⟨xs, h.balances, h.covered, rfl, ?_⟩, rfl⟩
    rw [keys_entryOf]
    exact h.nodup

theorem filterMap_asset_raw (xs : List AssetBalanceSnapshot) :
    (xs.map AssetBalanceSnapshot.raw).filterMap RawSnapshot.asset? = xs.map AssetBalanceSnapshot.asset := by
  induction xs with
  | nil => rfl
  | cons x xs ih =>
    rw [List.map_cons, List.filterMap_cons, ih]
    rfl

/-- The lists that can be read are those that are not malformed. -/
theorem exists_reads_iff : (∃ os xs, Reads obligations balances os xs) ↔ ¬Malformed obligations balances := by
  constructor
  · rintro ⟨os, xs, h⟩ (⟨o, ho, hbad⟩ | ⟨b, hb, hbad⟩ | hdup | ⟨b, hb, x, hover, rfl⟩)
    · rw [h.obligations, List.mem_map] at ho
      obtain ⟨x, hx, rfl⟩ := ho
      exact hbad x (h.valid x hx) rfl
    · rw [h.balances, List.mem_map] at hb
      obtain ⟨x, hx, rfl⟩ := hb
      exact hbad x (h.covered x hx).1 rfl
    · rw [h.balances, filterMap_asset_raw] at hdup
      exact hdup h.nodup
    · rw [h.balances, List.mem_map] at hb
      obtain ⟨x', hx', heq⟩ := hb
      rw [AssetBalanceSnapshot.raw_injective heq] at hx'
      exact (h.covered x hx').2 hover
  · intro h
    simp only [Malformed, not_or, not_exists, not_and, not_forall, not_not] at h
    obtain ⟨hos, hbs, hdup, hover⟩ := h
    obtain ⟨os, rfl, hvalid⟩ := exists_map_eq (f := FundingObligation.raw) (p := FundingObligation.Valid)
      fun o ho => by
        obtain ⟨x, hx, heq⟩ := hos o ho
        exact ⟨x, hx, heq⟩
    obtain ⟨xs, rfl, hcov⟩ := exists_map_eq (f := AssetBalanceSnapshot.raw)
      (p := fun x => x.Valid ∧ ¬x.OverReserved) fun b hb => by
        obtain ⟨x, hx, heq⟩ := hbs b hb
        exact ⟨x, ⟨hx, fun ho => hover b hb x ho heq⟩, heq⟩
    rw [filterMap_asset_raw] at hdup
    exact ⟨os, xs, rfl, hvalid, rfl, hcov, hdup⟩

/-! ## What is compared -/

variable (asset : String)

/-- The amount of an obligation of the asset. -/
def RawObligation.amountOf : RawObligation → Option Int
  | .object (.string a) (.bigint n) => if a = asset then some n else none
  | _ => none

/-- The amounts of the obligations of an asset. -/
def amountsOf (obligations : List RawObligation) : List Int :=
  obligations.filterMap (RawObligation.amountOf asset)

/-- The sum of the obligations of an asset. -/
def requiredOf (obligations : List RawObligation) (asset : String) : Int := (amountsOf asset obligations).sum

def RawValue.amount : RawValue → Int
  | .bigint n => n
  | _ => 0

/-- What a snapshot of the asset has available and not reserved. -/
def RawSnapshot.unreservedOf : RawSnapshot → Option Int
  | .object (.string a) (.bigint n) reserved => if a = asset then some (n - reserved.amount) else none
  | _ => none

/-- What the snapshots of an asset have available and not reserved. -/
def unreservedAmountsOf (balances : List RawSnapshot) : List Int :=
  balances.filterMap (RawSnapshot.unreservedOf asset)

/-- What is unreserved of an asset; nothing where there is no snapshot. -/
def unreservedOf (balances : List RawSnapshot) (asset : String) : Int := (unreservedAmountsOf asset balances).sum

/-- The asset occurs in an obligation or a snapshot. -/
def Occurs (obligations : List RawObligation) (balances : List RawSnapshot) (asset : String) : Prop :=
  amountsOf asset obligations ≠ [] ∨ unreservedAmountsOf asset balances ≠ []

variable (asset : String)

theorem amountsOf_raw (os : List FundingObligation) :
    amountsOf asset (os.map FundingObligation.raw) =
      (os.filter fun o => o.asset = asset).map FundingObligation.amount := by
  induction os with
  | nil => rfl
  | cons o os ih =>
    have ho : o.raw.amountOf asset = if o.asset = asset then some o.amount else none := rfl
    rw [amountsOf] at ih ⊢
    rw [List.map_cons, List.filterMap_cons, ih, ho]
    by_cases h : o.asset = asset <;> simp [h]

theorem unreservedAmountsOf_raw (xs : List AssetBalanceSnapshot) :
    unreservedAmountsOf asset (xs.map AssetBalanceSnapshot.raw) =
      (xs.filter fun x => x.asset = asset).map fun x => x.available - x.reserved.getD 0 := by
  induction xs with
  | nil => rfl
  | cons x xs ih =>
    have hx : x.raw.unreservedOf asset =
        if x.asset = asset then some (x.available - x.reserved.getD 0) else none := by
      obtain ⟨a, n, r⟩ := x
      cases r <;> rfl
    rw [unreservedAmountsOf] at ih ⊢
    rw [List.map_cons, List.filterMap_cons, ih, hx]
    by_cases h : x.asset = asset <;> simp [h]

/-- With one snapshot for each asset, those of an asset are what the map has. -/
theorem filter_asset_eq (h : (xs.map AssetBalanceSnapshot.asset).Nodup) (asset : String) :
    xs.filter (fun x => x.asset = asset) = ((xs.map entryOf).lookup asset).toList := by
  induction xs with
  | nil => rfl
  | cons x xs ih =>
    obtain ⟨hx, hn⟩ := List.nodup_cons.mp h
    rw [List.map_cons, entryOf, lookup_cons_eq]
    by_cases ha : asset = x.asset
    · subst ha
      have hnone : xs.filter (fun y => y.asset = x.asset) = [] :=
        List.filter_eq_nil_iff.mpr fun y hy he => hx (List.mem_map.mpr ⟨y, hy, by simpa using he⟩)
      simp [hnone]
    · simp [ha, Ne.symm ha, ih hn]

variable (h : Reads obligations balances os xs)

include h

theorem Reads.required :
    ((groupObligationsByAsset os).lookup asset).getD 0 = requiredOf obligations asset := by
  rw [groupObligationsByAsset, lookup_sumByKey, requiredOf, h.obligations, amountsOf_raw]
  simp

theorem Reads.unreserved :
    (assetReadiness os (groupObligationsByAsset os) (xs.map entryOf) asset).unreservedBalance =
      unreservedOf balances asset := by
  rw [unreservedOf, h.balances, unreservedAmountsOf_raw, filter_asset_eq h.nodup]
  cases hl : (xs.map entryOf).lookup asset <;> simp [assetReadiness, hl]

theorem Reads.mem_assetIds_iff {asset : String} :
    asset ∈ assetIds (groupObligationsByAsset os) (xs.map entryOf) ↔ Occurs obligations balances asset := by
  have hos : asset ∈ (groupObligationsByAsset os).map Prod.fst ↔ amountsOf asset obligations ≠ [] := by
    rw [groupObligationsByAsset, mem_keys_sumByKey, h.obligations, amountsOf_raw]
    simp [List.filter_eq_nil_iff]
  have hxs : asset ∈ (xs.map entryOf).map Prod.fst ↔ unreservedAmountsOf asset balances ≠ [] := by
    rw [h.balances, unreservedAmountsOf_raw, keys_entryOf]
    simp [List.filter_eq_nil_iff]
  rw [assetIds, List.mem_append, List.mem_filter, Occurs, ← hos, ← hxs]
  by_cases hin : asset ∈ (groupObligationsByAsset os).map Prod.fst <;> simp [hin]

theorem Reads.nodup_assetIds : (assetIds (groupObligationsByAsset os) (xs.map entryOf)).Nodup := by
  rw [assetIds, List.nodup_append]
  refine ⟨nodup_sumByKey (m := []) List.nodup_nil os, List.Nodup.filter _ ?_, ?_⟩
  · rw [keys_entryOf]
    exact h.nodup
  · rintro a ha b hb rfl
    simpa [ha] using (List.mem_filter.mp hb).2

omit h

/-! ## The entries -/

theorem leAsset_total : Std.Total leAsset := ⟨fun a b => Std.Total.total a.asset b.asset⟩

theorem leAsset_trans : IsTrans AssetFundingReadiness leAsset :=
  ⟨fun a b c => IsTrans.trans a.asset b.asset c.asset⟩

theorem mem_fundingAssets {e : AssetFundingReadiness} {m : List (String × AssetBalanceSnapshot)} :
    e ∈ fundingAssets os m ↔ e.asset ∈ assetIds (groupObligationsByAsset os) m ∧
      e = assetReadiness os (groupObligationsByAsset os) m e.asset := by
  rw [fundingAssets, List.mem_insertionSort, List.mem_map]
  constructor
  · rintro ⟨a, ha, rfl⟩
    exact ⟨ha, rfl⟩
  · rintro ⟨ha, he⟩
    exact ⟨e.asset, ha, he.symm⟩

theorem map_asset_fundingAssets_perm (os : List FundingObligation) (m : List (String × AssetBalanceSnapshot)) :
    ((fundingAssets os m).map AssetFundingReadiness.asset).Perm
      (assetIds (groupObligationsByAsset os) m) := by
  have hperm := (List.perm_insertionSort leAsset
    ((assetIds (groupObligationsByAsset os) m).map
      (assetReadiness os (groupObligationsByAsset os) m))).map AssetFundingReadiness.asset
  rwa [List.map_map, show AssetFundingReadiness.asset ∘ assetReadiness os (groupObligationsByAsset os) m = id from
    rfl, List.map_id] at hperm

/-- Surplus and deficit are the two sides of one difference. -/
theorem surplus_deficit (obligations : List FundingObligation) (grouped : List (String × Int))
    (m : List (String × AssetBalanceSnapshot)) (asset : String) :
    let e := assetReadiness obligations grouped m asset
    e.surplus - e.deficit = e.unreservedBalance - e.requiredAmount ∧ e.surplus * e.deficit = 0 ∧
      0 ≤ e.surplus ∧ 0 ≤ e.deficit ∧ (e.state = .deficit ↔ e.unreservedBalance < e.requiredAmount) := by
  simp only [assetReadiness]
  generalize (grouped.lookup asset).getD 0 = required
  generalize (((m.lookup asset).map AssetBalanceSnapshot.available).getD 0 -
    ((m.lookup asset).bind AssetBalanceSnapshot.reserved).getD 0) = unreserved
  rcases lt_trichotomy required unreserved with hlt | rfl | hlt
  · simp [hlt, hlt.le, not_lt.mpr hlt.le]
  · simp
  · have hne : required - unreserved ≠ 0 := by omega
    simp [hlt, hlt.le, not_lt.mpr hlt.le, hne]

/-- The entry of an asset, in terms of what is given. -/
theorem Reads.assetReadiness_eq (h : Reads obligations balances os xs) (h' : Reads obligations' balances' os' xs')
    (hos : os'.Perm os) (hxs : xs'.Perm xs) (asset : String) :
    assetReadiness os' (groupObligationsByAsset os') (xs'.map entryOf) asset =
      assetReadiness os (groupObligationsByAsset os) (xs.map entryOf) asset := by
  have hrequired : ((groupObligationsByAsset os').lookup asset).getD 0 =
      ((groupObligationsByAsset os).lookup asset).getD 0 := by
    simp only [groupObligationsByAsset, lookup_sumByKey]
    rw [((hos.filter _).map _).sum_eq]
  have hlookup : (xs'.map entryOf).lookup asset = (xs.map entryOf).lookup asset := by
    have hn := h.nodup
    have hn' := h'.nodup
    rw [← keys_entryOf] at hn hn'
    refine Option.ext fun x => ?_
    rw [← mem_iff_lookup hn' (asset, x), ← mem_iff_lookup hn (asset, x)]
    exact (hxs.map entryOf).mem_iff
  have hcount : (os'.filter fun o => o.asset == asset).length = (os.filter fun o => o.asset == asset).length :=
    (hos.filter _).length_eq
  simp only [assetReadiness, hrequired, hlookup, hcount]

theorem occurs_iff_of_perm (hobl : obligations'.Perm obligations) (hbal : balances'.Perm balances)
    {asset : String} : Occurs obligations' balances' asset ↔ Occurs obligations balances asset := by
  have hne : ∀ {l l' : List Int}, l'.Perm l → (l' ≠ [] ↔ l ≠ []) := fun hp => by
    rw [← List.length_pos_iff, ← List.length_pos_iff, hp.length_eq]
  exact or_congr (hne (hobl.filterMap _)) (hne (hbal.filterMap _))

/-- The entries do not depend on the order of the lists. -/
theorem Reads.fundingAssets_eq (h : Reads obligations balances os xs) (h' : Reads obligations' balances' os' xs')
    (hos : os'.Perm os) (hxs : xs'.Perm xs) :
    fundingAssets os' (xs'.map entryOf) = fundingAssets os (xs.map entryOf) := by
  have := leAsset_total
  have := leAsset_trans
  have hobl : obligations'.Perm obligations := by
    rw [h'.obligations, h.obligations]
    exact hos.map _
  have hbal : balances'.Perm balances := by
    rw [h'.balances, h.balances]
    exact hxs.map _
  have hids : (assetIds (groupObligationsByAsset os') (xs'.map entryOf)).Perm
      (assetIds (groupObligationsByAsset os) (xs.map entryOf)) := by
    refine (List.perm_ext_iff_of_nodup h'.nodup_assetIds h.nodup_assetIds).mpr fun asset => ?_
    rw [h'.mem_assetIds_iff, h.mem_assetIds_iff]
    exact occurs_iff_of_perm hobl hbal
  have hperm : (fundingAssets os' (xs'.map entryOf)).Perm (fundingAssets os (xs.map entryOf)) := by
    refine (List.perm_insertionSort _ _).trans (List.Perm.trans ?_ (List.perm_insertionSort _ _).symm)
    rw [show assetReadiness os' (groupObligationsByAsset os') (xs'.map entryOf) =
      assetReadiness os (groupObligationsByAsset os) (xs.map entryOf) from
        funext fun asset => h.assetReadiness_eq h' hos hxs asset]
    exact hids.map _
  refine List.Perm.eq_of_pairwise (fun e e' he he' hle hge => ?_) (List.pairwise_insertionSort leAsset _)
    (List.pairwise_insertionSort leAsset _) hperm
  -- two entries of one asset are the same
  have hasset : e.asset = e'.asset := leUnits_antisymm hle hge
  have hmem := mem_fundingAssets.mp (hperm.mem_iff.mp he)
  rw [hmem.2, (mem_fundingAssets.mp he').2, hasset]

theorem Reads.of_perm (h : Reads obligations balances os xs) (hobl : obligations'.Perm obligations)
    (hbal : balances'.Perm balances) :
    ∃ os' xs', os'.Perm os ∧ xs'.Perm xs ∧ Reads obligations' balances' os' xs' := by
  obtain ⟨os', rfl, hvalid⟩ := exists_map_eq (f := FundingObligation.raw) (p := FundingObligation.Valid)
    fun o (ho : o ∈ obligations') => by
      rw [hobl.mem_iff, h.obligations, List.mem_map] at ho
      obtain ⟨x, hx, rfl⟩ := ho
      exact ⟨x, h.valid x hx, rfl⟩
  obtain ⟨xs', rfl, hcov⟩ := exists_map_eq (f := AssetBalanceSnapshot.raw)
    (p := fun x => x.Valid ∧ ¬x.OverReserved) fun b (hb : b ∈ balances') => by
      rw [hbal.mem_iff, h.balances, List.mem_map] at hb
      obtain ⟨x, hx, rfl⟩ := hb
      exact ⟨x, h.covered x hx, rfl⟩
  rw [h.obligations, List.map_perm_map_iff FundingObligation.raw_injective] at hobl
  rw [h.balances, List.map_perm_map_iff AssetBalanceSnapshot.raw_injective] at hbal
  exact ⟨os', xs', hobl, hbal, rfl, hvalid, rfl, hcov, ((hbal.map _).nodup_iff).mpr h.nodup⟩

/-! ## The report -/

/-- The report compares every asset with its own balance. -/
structure ReportExact (obligations : List RawObligation) (balances : List RawSnapshot)
    (report : FundingReadinessReport) : Prop where
  ready : report.ready = true ↔ ∀ asset, requiredOf obligations asset ≤ unreservedOf balances asset
  once : (report.assets.map AssetFundingReadiness.asset).Nodup
  occurs : ∀ asset, asset ∈ report.assets.map AssetFundingReadiness.asset ↔ Occurs obligations balances asset
  amounts : ∀ e ∈ report.assets, e.requiredAmount = requiredOf obligations e.asset ∧
    e.unreservedBalance = unreservedOf balances e.asset
  difference : ∀ e ∈ report.assets, e.surplus - e.deficit = e.unreservedBalance - e.requiredAmount ∧
    e.surplus * e.deficit = 0 ∧ 0 ≤ e.surplus ∧ 0 ≤ e.deficit
  deficits : report.deficits = report.assets.filter fun e => e.unreservedBalance < e.requiredAmount

theorem Reads.reportExact (h : Reads obligations balances os xs) :
    ReportExact obligations balances (fundingReport (fundingAssets os (xs.map entryOf))) := by
  have hassets := map_asset_fundingAssets_perm os (xs.map entryOf)
  have hentry : ∀ e ∈ fundingAssets os (xs.map entryOf), e.requiredAmount = requiredOf obligations e.asset ∧
      e.unreservedBalance = unreservedOf balances e.asset ∧
      (e.state = .deficit ↔ e.unreservedBalance < e.requiredAmount) := by
    intro e he
    have heq := (mem_fundingAssets.mp he).2
    have hstate := (surplus_deficit os (groupObligationsByAsset os) (xs.map entryOf) e.asset).2.2.2.2
    rw [← heq] at hstate
    refine ⟨?_, ?_, hstate⟩
    · rw [heq]
      exact h.required e.asset
    · rw [← h.unreserved e.asset, ← heq]
  have hdeficits : (fundingReport (fundingAssets os (xs.map entryOf))).deficits =
      (fundingAssets os (xs.map entryOf)).filter fun e => e.unreservedBalance < e.requiredAmount := by
    refine List.filter_congr fun e he => ?_
    rw [Bool.eq_iff_iff, beq_iff_eq, decide_eq_true_iff]
    exact (hentry e he).2.2
  refine ⟨?_, ?_, ?_, fun e he => ⟨(hentry e he).1, (hentry e he).2.1⟩, ?_, hdeficits⟩
  · have hready : (fundingReport (fundingAssets os (xs.map entryOf))).ready = true ↔
        (fundingReport (fundingAssets os (xs.map entryOf))).deficits = [] := by
      simp [fundingReport]
    rw [hready, hdeficits, List.filter_eq_nil_iff]
    constructor
    · intro hall asset
      by_cases hocc : Occurs obligations balances asset
      · obtain ⟨e, he, rfl⟩ := List.mem_map.mp (hassets.mem_iff.mpr (h.mem_assetIds_iff.mpr hocc))
        have := hall e he
        rw [(hentry e he).1, (hentry e he).2.1] at this
        simpa using this
      · -- nothing is required of an asset that does not occur
        simp only [Occurs, not_or, not_not] at hocc
        rw [requiredOf, unreservedOf, hocc.1, hocc.2]
    · intro hall e he
      rw [(hentry e he).1, (hentry e he).2.1]
      simpa using hall e.asset
  · exact hassets.nodup_iff.mpr h.nodup_assetIds
  · intro asset
    rw [← h.mem_assetIds_iff]
    exact hassets.mem_iff
  · intro e he
    have hdiff := surplus_deficit os (groupObligationsByAsset os) (xs.map entryOf) e.asset
    rw [← (mem_fundingAssets.mp he).2] at hdiff
    exact ⟨hdiff.1, hdiff.2.1, hdiff.2.2.1, hdiff.2.2.2.1⟩

/-- The check throws exactly at malformed lists; otherwise its report compares
every asset with its own balance, and is that of every order of the lists. -/
theorem funding_report_exact (obligations : List RawObligation) (balances : List RawSnapshot) :
    match checkFundingReadiness obligations balances with
    | .error _ => Malformed obligations balances
    | .ok report => ¬Malformed obligations balances ∧ ReportExact obligations balances report ∧
        ∀ obligations' balances', obligations'.Perm obligations → balances'.Perm balances →
          checkFundingReadiness obligations' balances' = .ok report := by
  cases hcheck : checkFundingReadiness obligations balances with
  | error e =>
    by_contra hm
    obtain ⟨os, xs, h⟩ := exists_reads_iff.mpr hm
    rw [checkFundingReadiness_eq_ok.mpr ⟨os, xs, h, rfl⟩] at hcheck
    cases hcheck
  | ok report =>
    obtain ⟨os, xs, h, rfl⟩ := checkFundingReadiness_eq_ok.mp hcheck
    refine ⟨exists_reads_iff.mp ⟨os, xs, h⟩, h.reportExact, fun obligations' balances' hobl hbal => ?_⟩
    obtain ⟨os', xs', hos, hxs, h'⟩ := h.of_perm hobl hbal
    exact checkFundingReadiness_eq_ok.mpr ⟨os', xs', h', by rw [h.fundingAssets_eq h' hos hxs]⟩

/-- A surplus of one asset does not hide the deficit of another. -/
example : (checkFundingReadiness [.object (.string "native") (.bigint 1000), .object (.string "USDC") (.bigint 2500)]
    [.object (.string "native") (.bigint 5000) (.bigint 500), .object (.string "USDC") (.bigint 2000) .absent]).map
      (fun report => (report.ready, report.deficits.map AssetFundingReadiness.deficit)) = .ok (false, [500]) := by
  decide

end ZkPayroll.Funding
