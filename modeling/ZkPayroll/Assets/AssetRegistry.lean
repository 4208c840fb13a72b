import ZkPayroll.Framework.SecondaryIndex
import ZkPayroll.Framework.Text
import ZkPayroll.Framework.Transition

/-!
# The asset registry

`AssetRegistryClass` of `assets/AssetRegistry.ts`: assets are kept by their id,
and a second map leads from a symbol in lower case to the id of an asset. An id
is looked up before a symbol.

In a run in which no asset is removed or gets another symbol while a second
asset has the same one, `get` finds what is registered (`lookups_found`).
-/

namespace ZkPayroll.Assets

open Framework

variable {μ : Type} (toLowerCase : String → String)

/-! ## Data -/

abbrev AssetId := String

inductive AssetDisplayFormat where
  | decimal
  | integer
  deriving DecidableEq, Repr

/-- `AssetMetadata`, and `AssetMetadataInput`. -/
structure AssetMetadata (μ : Type) where
  id : AssetId
  symbol : String
  label : String
  decimals : Int
  displayFormat : Option AssetDisplayFormat := none
  iconUrl : Option String := none
  customData : Option μ := none
  deriving DecidableEq

def BUILTIN_ASSETS : List (AssetMetadata μ) :=
  [{ id := "native", symbol := "XLM", label := "Stellar Lumens", decimals := 7, displayFormat := some .decimal },
    { id := "USDC", symbol := "USDC", label := "USD Coin", decimals := 7, displayFormat := some .decimal },
    { id := "EUROC", symbol := "EUROC", label := "Euro Coin", decimals := 7, displayFormat := some .decimal }]

structure AssetRegistry (μ : Type) where
  byId : List (AssetId × AssetMetadata μ) := []
  bySymbol : List (String × AssetId) := []

/-! ## Operations -/

/-- `{ displayFormat: "decimal", ...asset }`, where a format that is there is not
`undefined`. -/
def withDisplayFormat (asset : AssetMetadata μ) : AssetMetadata μ :=
  { asset with displayFormat := some (asset.displayFormat.getD .decimal) }

variable (r : AssetRegistry μ)

/-- `_add` -/
def AssetRegistry.add (asset : AssetMetadata μ) : AssetRegistry μ :=
  let entry := withDisplayFormat asset
  { byId := setKey entry.id entry r.byId
    bySymbol := setKey (toLowerCase entry.symbol) entry.id r.bySymbol }

/-- The constructor. -/
def create (initial : List (AssetMetadata μ)) : AssetRegistry μ := initial.foldl (AssetRegistry.add toLowerCase) {}

def AssetRegistry.register (input : AssetMetadata μ) : AssetMetadata μ × AssetRegistry μ :=
  let bySymbol :=
    match r.byId.lookup input.id with
    | some existing => eraseKey (toLowerCase existing.symbol) r.bySymbol
    | none => r.bySymbol
  let asset := withDisplayFormat input
  (asset, AssetRegistry.add toLowerCase { r with bySymbol := bySymbol } asset)

def AssetRegistry.registerMany (inputs : List (AssetMetadata μ)) : AssetRegistry μ :=
  inputs.foldl (fun r input => (r.register toLowerCase input).2) r

def AssetRegistry.get (idOrSymbol : String) : Option (AssetMetadata μ) :=
  match r.byId.lookup idOrSymbol with
  | some byId => some byId
  | none =>
    match r.bySymbol.lookup (toLowerCase idOrSymbol) with
    | some idFromSymbol => r.byId.lookup idFromSymbol
    | none => none

def AssetRegistry.remove (id : AssetId) : Bool × AssetRegistry μ :=
  match r.byId.lookup id with
  | none => (false, r)
  | some existing =>
    (true, { byId := eraseKey id r.byId
             bySymbol := eraseKey (toLowerCase existing.symbol) r.bySymbol })

def AssetRegistry.list : List (AssetMetadata μ) := r.byId.map Prod.snd

/-- A call of the registry. -/
inductive RegistryOperation (μ : Type) where
  | register (input : AssetMetadata μ)
  | registerMany (inputs : List (AssetMetadata μ))
  | remove (id : AssetId)

/-- The registry after the call. -/
def AssetRegistry.next : RegistryOperation μ → AssetRegistry μ
  | .register input => (r.register toLowerCase input).2
  | .registerMany inputs => r.registerMany toLowerCase inputs
  | .remove id => (r.remove toLowerCase id).2

/-! ## What is asked of a registry -/

/-- The asset has the symbol, in any case. -/
def HasSymbol (a : AssetMetadata μ) (symbol : String) : Prop := toLowerCase a.symbol = toLowerCase symbol

instance (a : AssetMetadata μ) (symbol : String) : Decidable (HasSymbol toLowerCase a symbol) :=
  inferInstanceAs (Decidable (toLowerCase a.symbol = toLowerCase symbol))

/-- `get` finds what is registered, by id and by symbol, and nothing else; an
id is looked up before a symbol. -/
structure FindsRegistered (r : AssetRegistry μ) : Prop where
  byId : ∀ a ∈ r.list, r.get toLowerCase a.id = some a
  found : ∀ s, (r.get toLowerCase s).isSome = true ↔ ∃ a ∈ r.list, a.id = s ∨ HasSymbol toLowerCase a s
  returned : ∀ s a, r.get toLowerCase s = some a →
    a ∈ r.list ∧ (a.id = s ∨ (∀ b ∈ r.list, b.id ≠ s) ∧ HasSymbol toLowerCase a s)
  noDangling : ∀ symbol id, r.bySymbol.lookup symbol = some id →
    ∃ a ∈ r.list, a.id = id ∧ toLowerCase a.symbol = symbol

/-- No other asset has the symbol of the asset that is registered under `id`. -/
def SymbolAlone (id : AssetId) : Prop :=
  ∀ existing, r.byId.lookup id = some existing → ∀ a ∈ r.list, HasSymbol toLowerCase a existing.symbol → a.id = id

/-- The asset that `input` replaces has the same symbol, or one that no other
asset has. -/
def ReplacesAlone (input : AssetMetadata μ) : Prop :=
  (∀ existing, r.byId.lookup input.id = some existing → HasSymbol toLowerCase existing input.symbol) ∨
    SymbolAlone toLowerCase r input.id

/-- In turn, each replaces no other than itself. -/
def EachReplacesAlone : AssetRegistry μ → List (AssetMetadata μ) → Prop
  | _, [] => True
  | r, input :: inputs =>
    ReplacesAlone toLowerCase r input ∧ EachReplacesAlone (r.register toLowerCase input).2 inputs

/-- The operation takes no symbol away that another asset has. -/
def LeavesSymbols : RegistryOperation μ → Prop
  | .register input => ReplacesAlone toLowerCase r input
  | .registerMany inputs => EachReplacesAlone toLowerCase r inputs
  | .remove id => SymbolAlone toLowerCase r id

/-! ## The invariant -/

/-- What the index of symbols goes by. -/
def symbolTag (a : AssetMetadata μ) : String := toLowerCase a.symbol

/-- The indexes fit the assets. -/
structure WellFormed (r : AssetRegistry μ) : Prop where
  nodup : (r.byId.map Prod.fst).Nodup
  ids : ∀ f ∈ r.byId, f.2.id = f.1
  indexed : Indexed (symbolTag toLowerCase) r.byId r.bySymbol

variable {toLowerCase} {r : AssetRegistry μ}
variable {a : AssetMetadata μ}

theorem mem_list_iff (h : WellFormed toLowerCase r) : a ∈ r.list ↔ r.byId.lookup a.id = some a := by
  constructor
  · intro ha
    obtain ⟨f, hf, rfl⟩ := List.mem_map.mp ha
    rw [h.ids f hf]
    exact (mem_iff_lookup h.nodup f).mp hf
  · intro ha
    exact List.mem_map.mpr ⟨(a.id, a), lookup_mem ha, rfl⟩

variable {id : AssetId}

theorem id_of_lookup (h : WellFormed toLowerCase r)
    (ha : r.byId.lookup id = some a) : a.id = id := h.ids _ (lookup_mem ha)

theorem mem_list_of_lookup (h : WellFormed toLowerCase r)
    (ha : r.byId.lookup id = some a) : a ∈ r.list := by
  rw [mem_list_iff h, id_of_lookup h ha]
  exact ha

theorem unshared_of_alone (h : WellFormed toLowerCase r) (halone : SymbolAlone toLowerCase r id)
    {existing : AssetMetadata μ} (hid : r.byId.lookup id = some existing) :
    Unshared (symbolTag toLowerCase) r.byId id (symbolTag toLowerCase existing) := by
  intro id' a ha htag
  rw [← id_of_lookup h ha]
  exact halone existing hid a (mem_list_of_lookup h ha) htag

theorem ids_setKey (h : ∀ f ∈ r.byId, f.2.id = f.1) (a : AssetMetadata μ) :
    ∀ f ∈ setKey a.id a r.byId, f.2.id = f.1 := by
  intro f hf
  rcases eq_or_mem_of_mem_setKey hf with rfl | hold
  · rfl
  · exact h f hold

theorem WellFormed.add (h : WellFormed toLowerCase r) {asset : AssetMetadata μ}
    (hid : r.byId.lookup asset.id = none) : WellFormed toLowerCase (r.add toLowerCase asset) where
  nodup := nodup_setKey h.nodup
  ids := ids_setKey h.ids _
  indexed := h.indexed.add hid _

theorem WellFormed.register (h : WellFormed toLowerCase r) {input : AssetMetadata μ}
    (hok : ReplacesAlone toLowerCase r input) : WellFormed toLowerCase (r.register toLowerCase input).2 := by
  unfold AssetRegistry.register
  cases hid : r.byId.lookup input.id with
  | none => exact h.add hid
  | some existing =>
    refine ⟨nodup_setKey h.nodup, ids_setKey h.ids _, ?_⟩
    refine h.indexed.replace hid (withDisplayFormat input) ?_
    rcases hok with hsame | halone
    · exact .inl (hsame existing hid)
    · exact .inr (unshared_of_alone h halone hid)

theorem WellFormed.registerMany (h : WellFormed toLowerCase r) {inputs : List (AssetMetadata μ)}
    (hok : EachReplacesAlone toLowerCase r inputs) :
    WellFormed toLowerCase (r.registerMany toLowerCase inputs) := by
  induction inputs generalizing r with
  | nil => exact h
  | cons input inputs ih => exact ih (h.register hok.1) hok.2

theorem WellFormed.remove (h : WellFormed toLowerCase r) (hok : SymbolAlone toLowerCase r id) :
    WellFormed toLowerCase (r.remove toLowerCase id).2 := by
  unfold AssetRegistry.remove
  cases hid : r.byId.lookup id with
  | none => exact h
  | some existing =>
    refine ⟨nodup_eraseKey h.nodup, fun f hf => h.ids f (List.mem_of_mem_filter hf), ?_⟩
    exact h.indexed.erase hid (unshared_of_alone h hok hid)

theorem WellFormed.next (h : WellFormed toLowerCase r) {op : RegistryOperation μ}
    (hok : LeavesSymbols toLowerCase r op) : WellFormed toLowerCase (r.next toLowerCase op) := by
  cases op with
  | register input => exact h.register hok
  | registerMany inputs => exact h.registerMany hok
  | remove id => exact h.remove hok

theorem lookup_add_of_ne {asset : AssetMetadata μ} (h : id ≠ asset.id) :
    (r.add toLowerCase asset).byId.lookup id = r.byId.lookup id := by
  rw [AssetRegistry.add, lookup_setKey]
  exact if_neg h

theorem wellFormed_foldl {initial : List (AssetMetadata μ)} (h : WellFormed toLowerCase r)
    (hn : (initial.map AssetMetadata.id).Nodup) (hnew : ∀ a ∈ initial, r.byId.lookup a.id = none) :
    WellFormed toLowerCase (initial.foldl (AssetRegistry.add toLowerCase) r) := by
  induction initial generalizing r with
  | nil => exact h
  | cons a initial ih =>
    obtain ⟨ha, hn⟩ := List.nodup_cons.mp hn
    refine ih (h.add (hnew a List.mem_cons_self)) hn fun b hb => ?_
    have hne : b.id ≠ a.id := fun he => ha (he ▸ List.mem_map_of_mem hb)
    rw [lookup_add_of_ne hne]
    exact hnew b (List.mem_cons_of_mem _ hb)

theorem wellFormed_create {initial : List (AssetMetadata μ)} (hn : (initial.map AssetMetadata.id).Nodup) :
    WellFormed toLowerCase (create toLowerCase initial) :=
  wellFormed_foldl ⟨List.nodup_nil, List.forall_mem_nil _, indexed_nil⟩ hn fun _ _ => rfl

theorem WellFormed.get_id (h : WellFormed toLowerCase r) (ha : a ∈ r.list) :
    r.get toLowerCase a.id = some a := by
  rw [AssetRegistry.get, (mem_list_iff h).mp ha]

/-- What `get` finds is registered, and has the id, or the symbol if no asset
has the id. -/
theorem WellFormed.of_get (h : WellFormed toLowerCase r) {s : String}
    (hs : r.get toLowerCase s = some a) :
    a ∈ r.list ∧ (a.id = s ∨ (∀ b ∈ r.list, b.id ≠ s) ∧ HasSymbol toLowerCase a s) := by
  unfold AssetRegistry.get at hs
  split at hs
  · rename_i b hb
    obtain rfl := Option.some.inj hs
    exact ⟨mem_list_of_lookup h hb, .inl (id_of_lookup h hb)⟩
  · rename_i hnone
    split at hs
    · rename_i id hid
      obtain ⟨b, hb, htag⟩ := h.indexed.sound hid
      obtain rfl := Option.some.inj (hs.symm.trans hb)
      refine ⟨mem_list_of_lookup h hs, .inr ⟨fun b hb he => ?_, htag⟩⟩
      rw [mem_list_iff h, he, hnone] at hb
      cases hb
    · cases hs

/-- An asset's symbol leads to some asset with it, unless an id comes first. -/
theorem WellFormed.isSome_get_of_symbol (h : WellFormed toLowerCase r) {s : String}
    (ha : a ∈ r.list) (hsymbol : HasSymbol toLowerCase a s) : (r.get toLowerCase s).isSome = true := by
  obtain ⟨id, hid⟩ := h.indexed.complete ((mem_list_iff h).mp ha)
  obtain ⟨b, hb, -⟩ := h.indexed.sound hid
  have hindex : r.bySymbol.lookup (toLowerCase s) = some id := hsymbol ▸ hid
  unfold AssetRegistry.get
  split
  · rfl
  · rw [hindex]
    simp [hb]

theorem WellFormed.findsRegistered (h : WellFormed toLowerCase r) : FindsRegistered toLowerCase r := by
  refine ⟨fun a ha => h.get_id ha, fun s => ⟨fun hs => ?_, ?_⟩, fun s a hs => h.of_get hs, fun symbol id hid => ?_⟩
  · obtain ⟨a, ha⟩ := Option.isSome_iff_exists.mp hs
    obtain ⟨hmem, hcase⟩ := h.of_get ha
    exact ⟨a, hmem, hcase.imp_right And.right⟩
  · rintro ⟨a, ha, rfl | hsymbol⟩
    · rw [h.get_id ha]
      rfl
    · exact h.isSome_get_of_symbol ha hsymbol
  · obtain ⟨a, ha, htag⟩ := h.indexed.sound hid
    exact ⟨a, mem_list_of_lookup h ha, id_of_lookup h ha, htag⟩

/-! ## Runs -/

variable (toLowerCase)

/-- The states that runs reach from a registry that was made from assets with
distinct ids, and whose steps all meet the condition `ok`. -/
abbrev ReachableRegistry (ok : AssetRegistry μ → RegistryOperation μ → Prop) (r : AssetRegistry μ) : Prop :=
  Reachable (fun r => ∃ initial : List (AssetMetadata μ), (initial.map AssetMetadata.id).Nodup ∧
      r = create toLowerCase initial)
    (fun r r' => ∃ op, ok r op ∧ r' = r.next toLowerCase op) r

variable {toLowerCase}

/-- In a run in which no asset is removed or gets another symbol while a second
asset has the same one, everything that is registered is found. -/
theorem lookups_found (h : ReachableRegistry toLowerCase (LeavesSymbols toLowerCase) r) :
    FindsRegistered toLowerCase r := by
  have hinv : WellFormed toLowerCase r := by
    refine Reachable.invariant (fun r hr => ?_) (fun r r' hinv hs => ?_) h
    · obtain ⟨initial, hn, rfl⟩ := hr
      exact wellFormed_create hn
    · obtain ⟨op, hok, rfl⟩ := hs
      exact hinv.next hok
  exact hinv.findsRegistered

def usdc : AssetMetadata Unit :=
  { id := "USDC", symbol := "USDC", label := "USD Coin", decimals := 7, displayFormat := some .decimal }

/-- A token with the symbol of a built-in asset. -/
def secondUsdc : AssetMetadata Unit :=
  { id := "CUSD", symbol := "usdc", label := "Company Dollar", decimals := 7 }

theorem reachable_builtin {ok : AssetRegistry Unit → RegistryOperation Unit → Prop} :
    ReachableRegistry asciiLowerCase ok (create asciiLowerCase BUILTIN_ASSETS) :=
  Reachable.start ⟨_, by decide, rfl⟩

/-- An asset whose symbol no other has is removed. -/
theorem native_removed :
    FindsRegistered asciiLowerCase
      (((create asciiLowerCase BUILTIN_ASSETS).next asciiLowerCase (.register secondUsdc)).next asciiLowerCase
        (.remove "native")) := by
  refine lookups_found (Reachable.next (Reachable.next reachable_builtin ⟨.register secondUsdc, ?_, rfl⟩)
    ⟨.remove "native", ?_, rfl⟩)
  · exact .inl fun existing h => by cases h
  · intro existing h a ha hsymbol
    cases h
    revert a
    decide +kernel

/-- The second asset is removed: the first is registered and not found by its
symbol. -/
theorem usdc_not_found :
    ReachableRegistry asciiLowerCase (fun _ _ => True)
        (((create asciiLowerCase BUILTIN_ASSETS).next asciiLowerCase (.register secondUsdc)).next asciiLowerCase
          (.remove "CUSD")) ∧
      ¬FindsRegistered asciiLowerCase
        (((create asciiLowerCase BUILTIN_ASSETS).next asciiLowerCase (.register secondUsdc)).next asciiLowerCase
          (.remove "CUSD")) := by
  constructor
  · exact Reachable.next (Reachable.next reachable_builtin ⟨_, trivial, rfl⟩) ⟨_, trivial, rfl⟩
  · intro h
    have hfound := (h.found "usdc").mpr ⟨usdc, by decide +kernel, .inr (by decide +kernel)⟩
    revert hfound
    decide +kernel

end ZkPayroll.Assets
