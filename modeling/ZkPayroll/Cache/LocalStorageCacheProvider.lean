import ZkPayroll.Cache.Visibility
import ZkPayroll.Core.Errors
import ZkPayroll.Framework.JsonParse

/-!
# The cache in the browser

`cache/LocalStorageCacheProvider.ts`. A method gives what it returns or throws
and the storage it leaves, in which other texts may be; the storage has room for
every text. What is read is any text: `undefined` is `none`, and where the
expiry of an entry is neither a number nor `null` it is compared as the number
made of it (`Runtime`). From a storage without entries, no call throws, and the
storage keeps what `Framework.Expiring` says (`holds_storageAfter`).
-/

namespace ZkPayroll.Cache.LocalStorageCacheProvider

open Framework ZkPayroll.Core

variable {ν : Type}

/-- What is read of an entry. -/
structure Entry (ν : Type) where
  value : Option (Json ν)
  /-- The number, where `Number.isFinite(entry.storedAt)`. -/
  storedAt : Option ν
  expiresAt : Option (JsNumber ν)
  revision : Option (Json ν)

structure Runtime (ν : Type) where
  /-- The number made of a value that is no number, or of `undefined`. -/
  toNumber : Option (Json ν) → JsNumber ν
  /-- The error of reading an entry from a text, as a string. -/
  errorText : String → String

/-- A value that is stored; the keys of its objects are distinct. -/
abbrev JsonValue (ν : Type) := { v : Json ν // DistinctKeys v }

/-- The value `null`. -/
def null : JsonValue ν := ⟨.null, trivial⟩

/-- The texts of `localStorage`. -/
abbrev Storage := List (String × String)

/-- What a method throws. -/
def failed (method error : String) (code : String) : SdkError where
  kind := .zkPayroll
  name := "PayrollError"
  message := "LocalStorageCacheProvider." ++ method ++ " failed: " ++ error
  code := code

def finiteNumber : Option (Json ν) → Option ν
  | some (.num n) => some n
  | _ => none

/-- The expiry as it is compared; `null` is never reached. -/
def readExpiry (rt : Runtime ν) : Option (Json ν) → Option (JsNumber ν)
  | some .null => none
  | some (.num n) => some (.finite n)
  | v => some (rt.toNumber v)

section Methods

variable [NumberFormat ν] (rt : Runtime ν)

/-- `JSON.parse(raw)` and the fields that are read of it. -/
def readEntry (raw : String) : Except String (Entry ν) :=
  match parseJson (ν := ν) raw with
  | none | some .null => .error (rt.errorText raw)
  | some (.obj fields) =>
    .ok {
      value := getProperty fields "value"
      storedAt := finiteNumber (getProperty fields "storedAt")
      expiresAt := readExpiry rt (getProperty fields "expiresAt")
      revision := getProperty fields "revision" }
  | some _ =>
    .ok { value := none, storedAt := none, expiresAt := readExpiry rt none, revision := none }

/-- The expiry as it is written: what is not finite is `null`. -/
def writtenExpiry : Option (JsNumber ν) → Json ν
  | some (.finite e) => .num e
  | _ => .null

/-- The entry that `set` writes. -/
def entryJson (value : Json ν) (storedAt : ν) (expiresAt : Option (JsNumber ν)) (revision : Option String) :
    Json ν :=
  .obj ([("value", value), ("storedAt", .num storedAt), ("expiresAt", writtenExpiry expiresAt)] ++
    (revision.map fun r => ("revision", .str r)).toList)

variable [CommRing ν] [LinearOrder ν] (keyPrefix : String) (storage : Storage) (k : String) (now : ν)

/-- `this.key(k)`. -/
def key (k : String) : String := keyPrefix ++ k

def get : Except SdkError (Option (Json ν)) × Storage :=
  match storage.lookup (key keyPrefix k) with
  | none => (.ok (some .null), storage)
  | some raw =>
    match readEntry rt raw with
    | .error err => (.error (failed "get" err "503"), storage)
    | .ok entry =>
      if isPast entry.expiresAt now then (.ok (some .null), eraseKey (key keyPrefix k) storage)
      else (.ok entry.value, storage)

def getWithMetadata : Except SdkError (Option (CacheReadResult (Option (Json ν)) (Json ν) ν)) × Storage :=
  match storage.lookup (key keyPrefix k) with
  | none => (.ok none, storage)
  | some raw =>
    match readEntry rt raw with
    | .error err => (.error (failed "getWithMetadata" err "503"), storage)
    | .ok entry =>
      if isReached entry.expiresAt now then (.ok none, eraseKey (key keyPrefix k) storage)
      else
        let storedAt := entry.storedAt.getD now
        (.ok (some (createCacheReadResult entry.value storedAt entry.expiresAt entry.revision now)), storage)

def setWithMetadata (value : Json ν) (options : CacheMetadataOptions ν) : Storage :=
  setKey (key keyPrefix k) (stringify (entryJson value now (expiresAt options now) options.revision)) storage

def set (value : Json ν) (ttlSeconds : Option (JsNumber ν)) : Storage :=
  setWithMetadata keyPrefix storage k now value { ttlSeconds := ttlSeconds }

def has : Except SdkError Bool × Storage :=
  match get rt keyPrefix storage k now with
  | (.ok v, storage) => (.ok (v ≠ some .null), storage)
  | (.error e, storage) => (.error e, storage)

/-- The storage that a call leaves. -/
def perform (c : TimedCall (JsonValue ν) ν) : Storage :=
  match c.call with
  | .set k value ttlSeconds => set keyPrefix storage k c.now value.1 ttlSeconds
  | .setWithMetadata k value options => setWithMetadata keyPrefix storage k c.now value.1 options
  | .get k => (get rt keyPrefix storage k c.now).2
  | .has k => (has rt keyPrefix storage k c.now).2
  | .getWithMetadata k => (getWithMetadata rt keyPrefix storage k c.now).2

/-- The storage after calls, the last one first. -/
def storageAfter : List (TimedCall (JsonValue ν) ν) → Storage
  | [] => storage
  | c :: calls => perform rt keyPrefix (storageAfter calls) c

end Methods

/-! ## What the storage holds -/

section Holds

variable [NumberFormat ν] [CommRing ν] [LinearOrder ν] {rt : Runtime ν} {keyPrefix : String}

/-- The entry that is read of what a call sets. -/
def entryOf (rt : Runtime ν) (s : Setting (JsonValue ν) ν) : Entry ν where
  value := some s.value.1
  storedAt := some s.now
  expiresAt := readExpiry rt (some (writtenExpiry s.expiresAt))
  revision := s.options.revision.map .str

/-- The text of what a call sets, with a time to live that is not negative. -/
structure Text (rt : Runtime ν) (raw : String) (s : Setting (JsonValue ν) ν) : Prop where
  read : readEntry rt raw = .ok (entryOf rt s)
  ttl : ∀ ttl, s.options.ttlSeconds = some ttl → JsNumber.le (.finite 0) ttl = true

/-- The storage holds the texts of these settings. -/
abbrev Holds (rt : Runtime ν) (keyPrefix : String) (storage : Storage)
    (held : String → Option (Setting (JsonValue ν) ν)) : Prop :=
  HeldIn (key keyPrefix) (Text rt) storage held

omit [CommRing ν] [LinearOrder ν] in
theorem readEntry_stringify {value : Json ν} (hvalue : DistinctKeys value) (storedAt : ν)
    (expiresAt : Option (JsNumber ν)) (revision : Option String) :
    readEntry rt (stringify (entryJson value storedAt expiresAt revision)) = .ok {
      value := some value
      storedAt := some storedAt
      expiresAt := readExpiry rt (some (writtenExpiry expiresAt))
      revision := revision.map .str } := by
  have hdistinct : DistinctKeys (entryJson value storedAt expiresAt revision) := by
    have hfields : ∀ f ∈ (revision.map fun r => ("revision", Json.str r)).toList, DistinctKeys (ν := ν) f.2 := by
      intro f hf
      cases revision with
      | none => cases hf
      | some r =>
        rw [List.mem_singleton.mp hf]
        exact trivial
    have hexpires : DistinctKeys (writtenExpiry expiresAt) := by
      unfold writtenExpiry
      split <;> exact trivial
    refine ⟨?_, distinctFields_iff.mpr ?_⟩
    · cases revision <;> simp
    · intro f hf
      rcases List.mem_append.mp hf with hf | hf
      · simp only [List.mem_cons, List.not_mem_nil, or_false] at hf
        rcases hf with rfl | rfl | rfl
        · exact hvalue
        · exact trivial
        · exact hexpires
      · exact hfields f hf
  rw [readEntry, parseJson_stringify hdistinct, entryJson]
  cases revision <;> rfl

variable {s : Setting (JsonValue ν) ν}

omit [NumberFormat ν] in
/-- The expiry of what lives for a time that is not negative. -/
theorem expiresAt_cases (h : ∀ ttl, s.options.ttlSeconds = some ttl → JsNumber.le (.finite 0) ttl = true) :
    s.expiresAt = none ∨ (∃ e, s.expiresAt = some (.finite e)) ∨ s.expiresAt = some .infinity := by
  unfold Setting.expiresAt expiresAt
  split
  next => exact .inl rfl
  next ttl httl =>
    split
    next => exact .inl rfl
    next hne =>
      have hpositive := h ttl httl
      cases ttl with
      | finite a => exact .inr (.inl ⟨_, rfl⟩)
      | infinity => exact .inr (.inr rfl)
      | nan => cases hpositive
      | negInfinity => cases hpositive

/-- An expiry that is read back is compared as the one that was written. -/
theorem isPast_entryOf {raw : String} (h : Text rt raw s) (now : ν) :
    isPast (entryOf rt s).expiresAt now = isPast s.expiresAt now := by
  rcases expiresAt_cases h.ttl with he | ⟨e, he⟩ | he
  all_goals
    rw [entryOf, he]
    rfl

theorem isReached_entryOf {raw : String} (h : Text rt raw s) (now : ν) :
    isReached (entryOf rt s).expiresAt now = isReached s.expiresAt now := by
  rcases expiresAt_cases h.ttl with he | ⟨e, he⟩ | he
  all_goals
    rw [entryOf, he]
    rfl

omit [NumberFormat ν] [CommRing ν] [LinearOrder ν] in
theorem key_injective : Function.Injective (key keyPrefix) := fun _ _ h => (String.append_right_inj keyPrefix).mp h

variable {storage : Storage} {held : String → Option (Setting (JsonValue ν) ν)}

section

variable (h : Holds rt keyPrefix storage held)
include h

/-- The text of a key, if it holds a setting. -/
theorem lookup_of_holds (k : String) : (held k = none ∧ storage.lookup (key keyPrefix k) = none) ∨
      ∃ s raw, held k = some s ∧ storage.lookup (key keyPrefix k) = some raw ∧ Text rt raw s := by
  have hkey : Option.Rel (Text rt) (storage.lookup (key keyPrefix k)) (held k) := h k
  cases hfound : storage.lookup (key keyPrefix k) with
  | none =>
    rw [hfound] at hkey
    cases hheld : held k with
    | none => exact .inl ⟨rfl, rfl⟩
    | some s =>
      rw [hheld] at hkey
      cases hkey
  | some raw =>
    rw [hfound] at hkey
    cases hheld : held k with
    | none =>
      rw [hheld] at hkey
      cases hkey
    | some s =>
      rw [hheld] at hkey
      cases hkey with
      | some htext => exact .inr ⟨s, raw, rfl, rfl, htext⟩

/-- What `get` returns and leaves; it does not throw. -/
theorem get_eq (k : String) (now : ν) : get rt keyPrefix storage k now = match held k with
      | none => (.ok (some .null), storage)
      | some s =>
        if isPast s.expiresAt now then (.ok (some .null), eraseKey (key keyPrefix k) storage)
        else (.ok (some s.value.1), storage) := by
  rcases lookup_of_holds h k with ⟨hheld, hfound⟩ | ⟨s, raw, hheld, hfound, htext⟩
  · rw [get, hfound, hheld]
  · rw [get, hfound, hheld]
    simp only [htext.read, isPast_entryOf htext]
    rfl

theorem getWithMetadata_eq (k : String) (now : ν) :
    getWithMetadata rt keyPrefix storage k now = match held k with
      | none => (.ok none, storage)
      | some s =>
        if isReached s.expiresAt now then (.ok none, eraseKey (key keyPrefix k) storage)
        else (.ok (some (createCacheReadResult (some s.value.1) s.now (entryOf rt s).expiresAt
          (s.options.revision.map .str) now)), storage) := by
  rcases lookup_of_holds h k with ⟨hheld, hfound⟩ | ⟨s, raw, hheld, hfound, htext⟩
  · rw [getWithMetadata, hfound, hheld]
  · rw [getWithMetadata, hfound, hheld]
    simp only [htext.read, isReached_entryOf htext]
    rfl

theorem has_eq (k : String) (now : ν) : ∃ v, (get rt keyPrefix storage k now).1 = .ok v ∧
      has rt keyPrefix storage k now = (.ok (v ≠ some .null), (get rt keyPrefix storage k now).2) := by
  have hok : ∃ v left, get rt keyPrefix storage k now = (.ok v, left) := by
    rw [get_eq h]
    cases held k with
    | none => exact ⟨_, _, rfl⟩
    | some s =>
      by_cases hpast : isPast s.expiresAt now = true
      · exact ⟨_, _, if_pos hpast⟩
      · exact ⟨_, _, if_neg hpast⟩
  obtain ⟨v, left, hget⟩ := hok
  rw [has, hget]
  exact ⟨v, rfl, rfl⟩

theorem holds_get (k : String) (now : ν) :
    Holds rt keyPrefix (get rt keyPrefix storage k now).2 (Operation.perform expiry now (.get k) held) := by
  apply h.read key_injective
  · intro hkey
    rw [get_eq h, hkey]
  · intro s hkey
    rw [get_eq h, hkey]
    show (ite _ _ _ : Except SdkError (Option (Json ν)) × Storage).2 = if isPast s.expiresAt now = true then _ else _
    split <;> rfl

theorem holds_getWithMetadata (k : String) (now : ν) :
    Holds rt keyPrefix (getWithMetadata rt keyPrefix storage k now).2
      (Operation.perform expiry now (.peek k) held) := by
  apply h.read key_injective
  · intro hkey
    rw [getWithMetadata_eq h, hkey]
  · intro s hkey
    rw [getWithMetadata_eq h, hkey]
    show (ite _ _ _ : Except SdkError (Option (CacheReadResult (Option (Json ν)) (Json ν) ν)) × Storage).2 =
      if isReached s.expiresAt now = true then _ else _
    split <;> rfl

theorem holds_setWithMetadata (k : String)
    (hs : ∀ ttl, s.options.ttlSeconds = some ttl → JsNumber.le (.finite 0) ttl = true) :
    Holds rt keyPrefix (setWithMetadata keyPrefix storage k s.now s.value.1 s.options)
      (Function.update held k (some s)) := by
  apply h.put key_injective
  exact ⟨readEntry_stringify s.value.2 s.now s.expiresAt s.options.revision, hs⟩

end

/-! ## What is seen -/

theorem get_ne_null_iff (h : Holds rt keyPrefix storage held) {k : String} {now : ν} :
    (∃ v, (get rt keyPrefix storage k now).1 = .ok v ∧ v ≠ some .null) ↔
      ∃ s, held k = some s ∧ isPast s.expiresAt now = false ∧ s.value ≠ null := by
  rw [get_eq h]
  have hnull : ∀ value : JsonValue ν, value ≠ null ↔ value.1 ≠ .null := fun value => by
    rw [ne_eq, Subtype.ext_iff]
    rfl
  cases held k with
  | none => simp
  | some s => cases hpast : isPast s.expiresAt now <;> simp [hpast, hnull]

theorem has_iff (h : Holds rt keyPrefix storage held) {k : String} {now : ν} :
    (has rt keyPrefix storage k now).1 = .ok true ↔
      ∃ v, (get rt keyPrefix storage k now).1 = .ok v ∧ v ≠ some .null := by
  obtain ⟨v, hv, hhas⟩ := has_eq h k now
  rw [hhas, hv]
  simp

theorem getWithMetadata_iff (h : Holds rt keyPrefix storage held) {k : String} {now : ν} :
    (∃ result, (getWithMetadata rt keyPrefix storage k now).1 = .ok (some result)) ↔
      ∃ s, held k = some s ∧ isReached s.expiresAt now = false := by
  rw [getWithMetadata_eq h]
  cases held k with
  | none => simp
  | some s => cases hreached : isReached s.expiresAt now <;> simp [hreached]

/-! ## Runs -/

/-- A call leaves the texts that its operation leaves. -/
theorem holds_perform (h : Holds rt keyPrefix storage held) (c : TimedCall (JsonValue ν) ν)
    (hc : ∀ ttl, c.call.ttlSeconds = some ttl → JsNumber.le (.finite 0) ttl = true) :
    Holds rt keyPrefix (perform rt keyPrefix storage c) (c.operation.2.perform expiry c.operation.1 held) := by
  obtain ⟨now, call⟩ := c
  cases call with
  | set k value ttlSeconds =>
    exact holds_setWithMetadata (s := ⟨value, { ttlSeconds := ttlSeconds }, now⟩) h k hc
  | setWithMetadata k value options => exact holds_setWithMetadata (s := ⟨value, options, now⟩) h k hc
  | get k => exact holds_get h k now
  | has k =>
    obtain ⟨v, -, hhas⟩ := has_eq h k now
    show Holds rt keyPrefix (has rt keyPrefix storage k now).2 _
    rw [hhas]
    exact holds_get h k now
  | getWithMetadata k => exact holds_getWithMetadata h k now

/-- The storage holds what the history of the calls leaves. -/
theorem holds_storageAfter (hfresh : ∀ k, storage.lookup (key keyPrefix k) = none)
    (calls : List (TimedCall (JsonValue ν) ν))
    (hcalls : ∀ c ∈ calls, ∀ ttl, c.call.ttlSeconds = some ttl → JsNumber.le (.finite 0) ttl = true) :
    Holds rt keyPrefix (storageAfter rt keyPrefix storage calls)
      (holding expiry (calls.map (·.operation))) := by
  induction calls with
  | nil =>
    intro k
    rw [storageAfter, hfresh k]
    exact .none
  | cons c calls ih =>
    have hrest := ih fun c' hc' => hcalls c' (List.mem_cons_of_mem _ hc')
    exact holds_perform hrest c (hcalls c List.mem_cons_self)

end Holds

end ZkPayroll.Cache.LocalStorageCacheProvider
