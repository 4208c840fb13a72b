import ZkPayroll.Cache.Visibility
import ZkPayroll.Framework.Maps

/-!
# The cache in memory

`cache/MemoryCacheProvider.ts`. A method gives what it returns and the map it
leaves; nothing in it throws. The value `null` is one of those that are stored.
After any calls the map keeps what `Framework.Expiring` says of their history
(`holds_store`).
-/

namespace ZkPayroll.Cache.MemoryCacheProvider

open Framework

variable {V ν : Type} [CommRing ν] [LinearOrder ν]

structure Entry (V ν : Type) where
  value : V
  storedAt : ν
  expiresAt : Option (JsNumber ν)
  revision : Option String

/-- `store`. -/
abbrev Store (V ν : Type) := List (String × Entry V ν)

section Methods

variable (null : V) (store : Store V ν) (key : String) (now : ν)

def get : V × Store V ν :=
  match store.lookup key with
  | none => (null, store)
  | some entry => if isPast entry.expiresAt now then (null, eraseKey key store) else (entry.value, store)

def getWithMetadata : Option (CacheReadResult V String ν) × Store V ν :=
  match store.lookup key with
  | none => (none, store)
  | some entry =>
    if isReached entry.expiresAt now then (none, eraseKey key store)
    else (some (createCacheReadResult entry.value entry.storedAt entry.expiresAt entry.revision now), store)

def setWithMetadata (value : V) (options : CacheMetadataOptions ν) : Store V ν :=
  setKey key { value := value, storedAt := now, expiresAt := expiresAt options now, revision := options.revision } store

def set (value : V) (ttlSeconds : Option (JsNumber ν)) : Store V ν :=
  setWithMetadata store key now value { ttlSeconds := ttlSeconds }

def has [DecidableEq V] : Bool × Store V ν :=
  ((get null store key now).1 ≠ null, (get null store key now).2)

end Methods

section Calls

variable [DecidableEq V] (null : V)

/-- The map that a call leaves. -/
def perform (c : TimedCall V ν) (store : Store V ν) : Store V ν :=
  match c.call with
  | .set key value ttlSeconds => set store key c.now value ttlSeconds
  | .setWithMetadata key value options => setWithMetadata store key c.now value options
  | .get key => (get null store key c.now).2
  | .has key => (has null store key c.now).2
  | .getWithMetadata key => (getWithMetadata store key c.now).2

/-- The map after calls of a new provider, the last one first. -/
def storeAfter : List (TimedCall V ν) → Store V ν
  | [] => []
  | c :: calls => perform null c (storeAfter calls)

end Calls

/-! ## What the map holds -/

/-- The entry that is made of what a call sets. -/
def entryOf (s : Setting V ν) : Entry V ν where
  value := s.value
  storedAt := s.now
  expiresAt := s.expiresAt
  revision := s.options.revision

/-- The map holds the entries of these settings. -/
abbrev Holds (store : Store V ν) (held : String → Option (Setting V ν)) : Prop :=
  HeldIn id (fun entry s => entry = entryOf s) store held

variable {null : V} {store : Store V ν} {held : String → Option (Setting V ν)}

theorem lookup_of_holds (h : Holds store held) (key : String) : store.lookup key = (held key).map entryOf := by
  have hkey : Option.Rel (fun entry s => entry = entryOf s) (store.lookup key) (held key) := h key
  generalize store.lookup key = found at hkey
  generalize held key = s at hkey
  cases hkey with
  | some hentry => exact congrArg some hentry
  | none => rfl

/-- What `get` returns and leaves. -/
theorem get_eq (h : Holds store held) (key : String) (now : ν) :
    get null store key now = match held key with
      | none => (null, store)
      | some s => if isPast s.expiresAt now then (null, eraseKey key store) else (s.value, store) := by
  rw [get, lookup_of_holds h]
  cases held key <;> rfl

theorem getWithMetadata_eq (h : Holds store held) (key : String) (now : ν) :
    getWithMetadata store key now = match held key with
      | none => (none, store)
      | some s =>
        if isReached s.expiresAt now then (none, eraseKey key store)
        else (some (createCacheReadResult s.value s.now s.expiresAt s.options.revision now), store) := by
  rw [getWithMetadata, lookup_of_holds h]
  cases held key <;> rfl

theorem holds_get (h : Holds store held) (key : String) (now : ν) :
    Holds (get null store key now).2 (Operation.perform expiry now (.get key) held) := by
  apply h.read Function.injective_id
  · intro hkey
    rw [get_eq h, hkey]
  · intro s hkey
    rw [get_eq h, hkey]
    show (ite _ _ _ : V × Store V ν).2 = if isPast s.expiresAt now = true then _ else _
    split <;> rfl

theorem holds_getWithMetadata (h : Holds store held) (key : String) (now : ν) :
    Holds (getWithMetadata store key now).2 (Operation.perform expiry now (.peek key) held) := by
  apply h.read Function.injective_id
  · intro hkey
    rw [getWithMetadata_eq h, hkey]
  · intro s hkey
    rw [getWithMetadata_eq h, hkey]
    show (ite _ _ _ : Option (CacheReadResult V String ν) × Store V ν).2 =
      if isReached s.expiresAt now = true then _ else _
    split <;> rfl

/-! ## What is seen -/

theorem get_ne_null_iff (h : Holds store held) {key : String} {now : ν} :
    (get null store key now).1 ≠ null ↔
      ∃ s, held key = some s ∧ isPast s.expiresAt now = false ∧ s.value ≠ null := by
  rw [get_eq h]
  cases held key with
  | none => simp
  | some s => cases hpast : isPast s.expiresAt now <;> simp [hpast]

theorem isSome_getWithMetadata_iff (h : Holds store held) {key : String} {now : ν} :
    (getWithMetadata store key now).1.isSome = true ↔
      ∃ s, held key = some s ∧ isReached s.expiresAt now = false := by
  rw [getWithMetadata_eq h]
  cases held key with
  | none => simp
  | some s => cases hreached : isReached s.expiresAt now <;> simp [hreached]

omit [CommRing ν] in
theorem has_iff [DecidableEq V] {key : String} {now : ν} :
    (has null store key now).1 = true ↔ (get null store key now).1 ≠ null :=
  decide_eq_true_iff

/-! ## Runs -/

variable [DecidableEq V]

/-- A call leaves the entries that its operation leaves. -/
theorem holds_perform (h : Holds store held) (c : TimedCall V ν) :
    Holds (perform null c store) (c.operation.2.perform expiry c.operation.1 held) := by
  obtain ⟨now, call⟩ := c
  cases call with
  | set key value ttlSeconds => exact h.put Function.injective_id rfl
  | setWithMetadata key value options => exact h.put Function.injective_id rfl
  | get key => exact holds_get h key now
  | has key => exact holds_get h key now
  | getWithMetadata key => exact holds_getWithMetadata h key now

/-- The map holds what the history of the calls leaves. -/
theorem holds_storeAfter (calls : List (TimedCall V ν)) :
    Holds (storeAfter null calls) (holding expiry (calls.map (·.operation))) := by
  induction calls with
  | nil =>
    intro key
    exact .none
  | cons c calls ih => exact holds_perform ih c

end ZkPayroll.Cache.MemoryCacheProvider
