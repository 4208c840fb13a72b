import ZkPayroll.Cache.LocalStorageCacheProvider
import ZkPayroll.Cache.MemoryCacheProvider

/-!
# Which keys the providers see

Both providers keep the same history (`holds_storeAfter`, `holds_storageAfter`),
so that of each `Run.seen_iff` says when `get`, `has` and `getWithMetadata` tell
whether a key is visible.
-/

namespace ZkPayroll.Cache

open Framework

variable {V ν : Type} [DecidableEq V] [CommRing ν] [LinearOrder ν]

/-- What a new `MemoryCacheProvider` tells of a key after the calls of a run. -/
def SeenInMemory (nullValue : V) (r : Run V ν) (k : String) : Prop :=
  let store := MemoryCacheProvider.storeAfter nullValue r.calls
  r.Seen k ((MemoryCacheProvider.get nullValue store k r.now).1 ≠ nullValue)
    ((MemoryCacheProvider.has nullValue store k r.now).1 = true)
    ((MemoryCacheProvider.getWithMetadata store k r.now).1.isSome = true)

/-- What a `LocalStorageCacheProvider` tells of a key after the calls of a run. -/
def SeenInStorage [NumberFormat ν] (rt : LocalStorageCacheProvider.Runtime ν) (keyPrefix : String)
    (storage : LocalStorageCacheProvider.Storage) (r : Run (LocalStorageCacheProvider.JsonValue ν) ν) (k : String) :
    Prop :=
  let after := LocalStorageCacheProvider.storageAfter rt keyPrefix storage r.calls
  r.Seen k (∃ v, (LocalStorageCacheProvider.get rt keyPrefix after k r.now).1 = .ok v ∧ v ≠ some .null)
    ((LocalStorageCacheProvider.has rt keyPrefix after k r.now).1 = .ok true)
    (∃ result, (LocalStorageCacheProvider.getWithMetadata rt keyPrefix after k r.now).1 = .ok (some result))

theorem seenInMemory_iff (nullValue : V) (r : Run V ν) (k : String) :
    SeenInMemory nullValue r k ↔ ∀ s, r.latestSet k = some s → r.Kept nullValue k s := by
  have hholds : MemoryCacheProvider.Holds (MemoryCacheProvider.storeAfter nullValue r.calls)
      (holding expiry (r.calls.map (·.operation))) := MemoryCacheProvider.holds_storeAfter r.calls
  exact r.seen_iff nullValue k (MemoryCacheProvider.get_ne_null_iff hholds) MemoryCacheProvider.has_iff
    (MemoryCacheProvider.isSome_getWithMetadata_iff hholds)

omit [DecidableEq V] in
theorem seenInStorage_iff [NumberFormat ν] (rt : LocalStorageCacheProvider.Runtime ν) (keyPrefix : String)
    {storage : LocalStorageCacheProvider.Storage} (hfresh : ∀ k, storage.lookup (keyPrefix ++ k) = none)
    (r : Run (LocalStorageCacheProvider.JsonValue ν) ν) (k : String) :
    SeenInStorage rt keyPrefix storage r k ↔
      ∀ s, r.latestSet k = some s → r.Kept LocalStorageCacheProvider.null k s := by
  have hholds : LocalStorageCacheProvider.Holds rt keyPrefix
      (LocalStorageCacheProvider.storageAfter rt keyPrefix storage r.calls)
      (holding expiry (r.calls.map (·.operation))) := LocalStorageCacheProvider.holds_storageAfter hfresh r.calls r.ttl
  exact r.seen_iff LocalStorageCacheProvider.null k (LocalStorageCacheProvider.get_ne_null_iff hholds)
    (LocalStorageCacheProvider.has_iff hholds) (LocalStorageCacheProvider.getWithMetadata_iff hholds)

/-- Each provider tells whether a key is visible just when its latest set is so:
it has no time to live of zero, no visible value is `null`, and at the very end
`get` finds nothing. -/
theorem seen_by_both_iff [NumberFormat ν] (nullValue : V) (r : Run V ν)
    (rt : LocalStorageCacheProvider.Runtime ν) (keyPrefix : String) (storage : LocalStorageCacheProvider.Storage)
    (hfresh : ∀ k, storage.lookup (keyPrefix ++ k) = none)
    (stored : Run (LocalStorageCacheProvider.JsonValue ν) ν) (k : String) :
    (SeenInMemory nullValue r k ↔ ∀ s, r.latestSet k = some s → r.Kept nullValue k s) ∧
      (SeenInStorage rt keyPrefix storage stored k ↔
        ∀ s, stored.latestSet k = some s → stored.Kept LocalStorageCacheProvider.null k s) :=
  ⟨seenInMemory_iff nullValue r k, seenInStorage_iff rt keyPrefix hfresh stored k⟩

/-! ## A key at its end -/

/-- A value is set to live for a second, which is over. -/
def oneSecond (value : V) : Run V Int where
  calls := [{ now := 0, call := .set "k" value (some (.finite 1)) }]
  ordered := List.pairwise_singleton _ _
  ttl := by
    intro c hc ttl h
    rw [List.mem_singleton.mp hc] at h
    cases h
    decide
  now := 1000
  later := by
    intro c hc
    rw [List.mem_singleton.mp hc]
    show (0 : Int) ≤ 1000
    decide

/-- Values that are no numbers are `NaN`. -/
def plainRuntime : LocalStorageCacheProvider.Runtime Int where
  toNumber _ := .nan
  errorText _ := "SyntaxError"

/-- The text `v`. -/
def textValue : LocalStorageCacheProvider.JsonValue Int := ⟨.str "v", trivial⟩

theorem seen_by_both_one_second :
    (SeenInMemory none (oneSecond (some "v")) "k" ↔
        ∀ s, (oneSecond (some "v")).latestSet "k" = some s → (oneSecond (some "v")).Kept none "k" s) ∧
      (SeenInStorage plainRuntime "zk-payroll:" [] (oneSecond textValue) "k" ↔
        ∀ s, (oneSecond textValue).latestSet "k" = some s →
          (oneSecond textValue).Kept LocalStorageCacheProvider.null "k" s) :=
  seen_by_both_iff none (oneSecond (some "v")) plainRuntime "zk-payroll:" [] (fun _ => rfl)
    (oneSecond textValue) "k"

/-- At the end of its second, `has` sees the key and `getWithMetadata` does not, in both providers. -/
theorem seen_at_end :
    ((MemoryCacheProvider.has none (MemoryCacheProvider.storeAfter none (oneSecond (some "v")).calls) "k" 1000).1 =
        true ∧
      ¬SeenInMemory none (oneSecond (some "v")) "k") ∧
    ((LocalStorageCacheProvider.has plainRuntime "zk-payroll:" (LocalStorageCacheProvider.storageAfter plainRuntime
        "zk-payroll:" [] (oneSecond textValue).calls) "k" 1000).1 = .ok true ∧
      ¬SeenInStorage plainRuntime "zk-payroll:" [] (oneSecond textValue) "k") := by
  have hmemory : (MemoryCacheProvider.has none (MemoryCacheProvider.storeAfter none (oneSecond (some "v")).calls)
      "k" 1000).1 = true := rfl
  have hholds : LocalStorageCacheProvider.Holds plainRuntime "zk-payroll:"
      (LocalStorageCacheProvider.storageAfter plainRuntime "zk-payroll:" [] (oneSecond textValue).calls)
      (holding expiry ((oneSecond textValue).calls.map (·.operation))) :=
    LocalStorageCacheProvider.holds_storageAfter (fun _ => rfl) (oneSecond textValue).calls (oneSecond textValue).ttl
  have hstorage : (LocalStorageCacheProvider.has plainRuntime "zk-payroll:"
      (LocalStorageCacheProvider.storageAfter plainRuntime "zk-payroll:" [] (oneSecond textValue).calls)
        "k" 1000).1 = .ok true := by
    rw [LocalStorageCacheProvider.has_iff hholds, LocalStorageCacheProvider.get_ne_null_iff hholds]
    exact ⟨⟨textValue, { ttlSeconds := some (.finite 1) }, 0⟩, rfl, rfl, by decide⟩
  refine ⟨⟨hmemory, fun h => ?_⟩, hstorage, fun h => ?_⟩
  · have hread := h.read.mpr (h.has.mp hmemory)
    cases hread
  · have hread := h.read.mpr (h.has.mp hstorage)
    obtain ⟨s, hheld, hreached⟩ := (LocalStorageCacheProvider.getWithMetadata_iff hholds).mp hread
    cases hheld
    cases hreached

end ZkPayroll.Cache
