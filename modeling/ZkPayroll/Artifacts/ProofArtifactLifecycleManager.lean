import Mathlib.Algebra.Order.Ring.Int
import ZkPayroll.Crypto.SnarkjsProofGenerator
import ZkPayroll.Framework.Guards
import ZkPayroll.Framework.JsArithmetic
import ZkPayroll.Framework.Maps

/-!
# The lifecycle of proof artifacts

`artifacts/ProofArtifactLifecycleManager.ts`. The manager keeps no state of its
own while it awaits something, so what a load does depends on the answers that
it gets and on nothing else. `Environment` gives them: what the cache, the
loader and the clock do in one load, for each thing they are asked. The loads
of a manifest run side by side, and each of them has an environment of its own.

The bytes of an artifact are an array that others have too: the loader that
returned it, the cache that it was given to. They may write to it at any time, so
a `SharedArray` is what a load saw of an array, and a memory is what the arrays
have when the set is returned. The manifest is not written to.

Every way for a load to return an artifact goes through `verifyHash`
(`loadArtifact_eq_ok`), but what is verified and what is returned are the same
bytes only where nobody writes to the array in between: the artifacts of a set
are as the manifest describes them just where no array that is returned has
another digest or size by then (`loadArtifacts_verified_iff`).
-/

namespace ZkPayroll.Artifacts

open Framework Crypto

variable {ν ε : Type}

/-! ## Data -/

inductive ProofArtifactKind where
  | wasm
  | zkey
  | verificationKey
  deriving DecidableEq, Repr

def ProofArtifactKind.toString : ProofArtifactKind → String
  | .wasm => "wasm"
  | .zkey => "zkey"
  | .verificationKey => "verificationKey"

inductive ProofArtifactCacheMode where
  | disabled
  | memory
  | persistent
  deriving DecidableEq, Repr

/-- Where the bytes of an artifact are. -/
inductive ArtifactSource where
  | remote (url : String)
  | localPath (path : String)
  deriving DecidableEq, Repr

structure ProofArtifactDescriptor (ν : Type) where
  kind : ProofArtifactKind
  source : ArtifactSource
  sha256 : String
  sizeBytes : Option (JsNumber ν) := none

/-- `ProofArtifactCompatibility`, and `ProofArtifactRuntimeCompatibility`. -/
structure ProofArtifactCompatibility where
  sdkVersion : String
  circuitVersion : String
  contractVerifierVersion : String
  verificationKeyVersion : String
  deriving DecidableEq, Repr

structure ProofArtifactCachePolicy (ν : Type) where
  mode : ProofArtifactCacheMode
  ttlSeconds : Option (JsNumber ν) := none
  /-- `false` where it is left out. -/
  allowStaleFallback : Bool := false

structure ProofArtifactManifest (ν : Type) where
  schemaVersion : String
  manifestVersion : String
  circuitId : String
  artifacts : List (ProofArtifactDescriptor ν)
  compatibility : ProofArtifactCompatibility
  cachePolicy : Option (ProofArtifactCachePolicy ν) := none

variable (manifest : ProofArtifactManifest ν)

/-- `manifest.cachePolicy ?? { mode: "disabled" }`. -/
def ProofArtifactManifest.policy : ProofArtifactCachePolicy ν :=
  manifest.cachePolicy.getD { mode := .disabled }

/-- A reference to an array of bytes. -/
abbrev ArrayRef := Nat

/-- An array of bytes as a load sees it. -/
structure SharedArray where
  /-- What the artifact gets, which is read when it has been verified. -/
  ref : ArrayRef
  /-- What is hashed: the hash copies the array when it is called. -/
  hashed : Bytes
  /-- The length when the hash is there. -/
  byteLength : Nat

structure LoadedProofArtifact (ν : Type) where
  descriptor : ProofArtifactDescriptor ν
  bytes : ArrayRef
  loadedFromCache : Bool
  stale : Bool

structure LoadedProofArtifactSet (ν : Type) where
  manifest : ProofArtifactManifest ν
  artifacts : List (ProofArtifactKind × LoadedProofArtifact ν)

structure ProofArtifactCacheEntry (ν : Type) where
  descriptor : ProofArtifactDescriptor ν
  bytes : SharedArray
  cachedAt : JsNumber ν

/-! ## Errors -/

inductive ProofArtifactLifecycleErrorCode where
  | INVALID_MANIFEST
  | MISSING_ARTIFACT
  | HASH_MISMATCH
  | INCOMPATIBLE_VERSION
  deriving DecidableEq, Repr

/-- A value in the context of an error. -/
inductive ContextValue (ν : Type) where
  | text (s : String)
  | number (n : JsNumber ν)
  | size (n : Nat)

structure ProofArtifactLifecycleError (ν : Type) where
  message : String
  code : ProofArtifactLifecycleErrorCode
  context : List (String × ContextValue ν)

/-- What a load may throw: an error of the manager, or what the cache, the
loader or the clock have thrown. -/
inductive Failure (ν ε : Type) where
  | lifecycle (e : ProofArtifactLifecycleError ν)
  | foreign (e : ε)

def missingFieldsError : Failure ν ε :=
  .lifecycle
    { message := "Proof artifact manifest is missing schemaVersion, manifestVersion, or circuitId."
      code := .INVALID_MANIFEST
      context := [("schemaVersion", .text manifest.schemaVersion),
        ("manifestVersion", .text manifest.manifestVersion)] }

def missingKindError (kind : ProofArtifactKind) : Failure ν ε :=
  .lifecycle
    { message := s!"Proof artifact manifest is missing required {kind.toString} artifact."
      code := .MISSING_ARTIFACT
      context := [("kind", .text kind.toString)] }

def malformedHashError (d : ProofArtifactDescriptor ν) : Failure ν ε :=
  .lifecycle
    { message := s!"Proof artifact {d.kind.toString} has a malformed SHA-256 hash."
      code := .INVALID_MANIFEST
      context := [("kind", .text d.kind.toString), ("sha256", .text d.sha256)] }

def versionMismatchError (field expected actual : String) : Failure ν ε :=
  .lifecycle
    { message := s!"Proof artifact {field} mismatch: expected {expected}, got {actual}."
      code := .INCOMPATIBLE_VERSION
      context := [("field", .text field), ("expected", .text expected), ("actual", .text actual)] }

def hashMismatchError (d : ProofArtifactDescriptor ν) (actual : String) : Failure ν ε :=
  .lifecycle
    { message := s!"SHA-256 mismatch for {d.kind.toString} artifact."
      code := .HASH_MISMATCH
      context := [("kind", .text d.kind.toString), ("expected", .text d.sha256), ("actual", .text actual)] }

def sizeMismatchError (d : ProofArtifactDescriptor ν) (expected : JsNumber ν) (actual : Nat) : Failure ν ε :=
  .lifecycle
    { message := s!"Size mismatch for {d.kind.toString} artifact."
      code := .HASH_MISMATCH
      context := [("kind", .text d.kind.toString), ("expected", .number expected), ("actual", .size actual)] }

/-! ## Checks of the manifest -/

/-- The kinds that a manifest has to list. -/
def requiredKinds : List ProofArtifactKind := [.wasm, .zkey, .verificationKey]

/-- `/^[a-f0-9]{64}$/i.test(s)`. -/
def isSha256 (s : String) : Bool := s.toList.length == 64 && s.toList.all fun c => (hexValue c).isSome

def validateManifest : Except (Failure ν ε) Unit := do
  throwIf (manifest.schemaVersion ≠ "1.0" ∨ manifest.manifestVersion = "" ∨ manifest.circuitId = "")
    (missingFieldsError manifest)
  let seen := manifest.artifacts.map (·.kind)
  forEach requiredKinds fun kind => throwIf (kind ∉ seen) (missingKindError kind)
  forEach manifest.artifacts fun artifact => throwIf (isSha256 artifact.sha256 = false) (malformedHashError artifact)

/-- The versions that are compared. -/
def versionChecks : List (String × (ProofArtifactCompatibility → String)) :=
  [("sdkVersion", (·.sdkVersion)), ("circuitVersion", (·.circuitVersion)),
    ("contractVerifierVersion", (·.contractVerifierVersion)),
    ("verificationKeyVersion", (·.verificationKeyVersion))]

def validateCompatibility (runtime : ProofArtifactCompatibility) : Except (Failure ν ε) Unit :=
  forEach versionChecks fun check =>
    throwIf (check.2 manifest.compatibility ≠ check.2 runtime)
      (versionMismatchError check.1 (check.2 manifest.compatibility) (check.2 runtime))

/-! ## Loading -/

/-- What the cache, the loader and the clock do in one load. -/
structure Environment (ν ε : Type) where
  get : String → Except ε (Option (ProofArtifactCacheEntry ν))
  load : ProofArtifactDescriptor ν → Except ε SharedArray
  set : String → ProofArtifactCacheEntry ν → Except ε Unit
  /-- `this.now()` when the age of an entry is checked. -/
  checkedAt : Except ε (JsNumber ν)
  /-- `this.now()` when an entry is stored. -/
  storedAt : Except ε (JsNumber ν)

structure ProofArtifactLifecycleManager where
  hasCache : Bool
  sha256 : Bytes → List UInt8

/-- An answer of the environment, its failure kept as it is. -/
def foreign {α : Type} (answer : Except ε α) : Except (Failure ν ε) α := answer.mapError .foreign

def cacheKey (d : ProofArtifactDescriptor ν) : String :=
  String.intercalate ":"
    ["proof-artifact", manifest.circuitId, manifest.manifestVersion, d.kind.toString, d.sha256]

section Load

variable [Add ν] [LE ν] [DecidableLE ν] [DecidableEq ν] [NatCast ν]

def isExpired (env : Environment ν ε) (entry : ProofArtifactCacheEntry ν) (ttlSeconds : Option (JsNumber ν)) :
    Except (Failure ν ε) Bool :=
  match ttlSeconds with
  | none => return false
  | some ttl => do
    let now ← foreign env.checkedAt
    return JsNumber.le (entry.cachedAt.add ttl) now

/-- The second check of `verifyHash`. -/
def verifySize (bytes : SharedArray) (d : ProofArtifactDescriptor ν) : Except (Failure ν ε) Unit :=
  match d.sizeBytes with
  | none => return
  | some size => throwIf (size ≠ .finite (bytes.byteLength : ν)) (sizeMismatchError d size bytes.byteLength)

namespace ProofArtifactLifecycleManager

variable (m : ProofArtifactLifecycleManager)

def verifyHash (bytes : SharedArray) (d : ProofArtifactDescriptor ν) : Except (Failure ν ε) Unit := do
  let actual := sha256Digest m.sha256 bytes.hashed
  throwIf (actual ≠ toLowerCase d.sha256) (hashMismatchError d actual)
  verifySize bytes d

variable (env : Environment ν ε)

/-- `this.cache?.get(cacheKey)`. -/
def cached (key : String) : Except (Failure ν ε) (Option (ProofArtifactCacheEntry ν)) :=
  if m.hasCache then foreign (env.get key) else return none

/-- `this.cache?.set(cacheKey, entry)`, unless the policy disables the cache.
Without a cache the clock is not read either. -/
def store (key : String) (policy : ProofArtifactCachePolicy ν)
    (d : ProofArtifactDescriptor ν) (bytes : SharedArray) : Except (Failure ν ε) Unit :=
  if policy.mode = .disabled ∨ m.hasCache = false then return
  else do
    let cachedAt ← foreign env.storedAt
    foreign (env.set key { descriptor := d, bytes := bytes, cachedAt := cachedAt })

/-- The body of the `try` in `loadArtifact`. -/
def loadFresh (key : String) (policy : ProofArtifactCachePolicy ν)
    (d : ProofArtifactDescriptor ν) : Except (Failure ν ε) (LoadedProofArtifact ν) := do
  let bytes ← foreign (env.load d)
  m.verifyHash bytes d
  m.store env key policy d bytes
  return { descriptor := d, bytes := bytes.ref, loadedFromCache := false, stale := false }

/-- The verified bytes of an entry. -/
def fromCache (entry : ProofArtifactCacheEntry ν) (stale : Bool) (d : ProofArtifactDescriptor ν) :
    Except (Failure ν ε) (LoadedProofArtifact ν) := do
  m.verifyHash entry.bytes d
  return { descriptor := d, bytes := entry.bytes.ref, loadedFromCache := true, stale := stale }

/-- `loadArtifact` when the cache has no fresh entry. -/
def loadOrFallBack (key : String) (policy : ProofArtifactCachePolicy ν)
    (cached : Option (ProofArtifactCacheEntry ν)) (d : ProofArtifactDescriptor ν) :
    Except (Failure ν ε) (LoadedProofArtifact ν) :=
  tryCatch (m.loadFresh env key policy d) fun err =>
    match cached, policy.allowStaleFallback with
    | some entry, true => m.fromCache entry true d
    | _, _ => throw err

def loadArtifact (manifest : ProofArtifactManifest ν) (d : ProofArtifactDescriptor ν) :
    Except (Failure ν ε) (LoadedProofArtifact ν) := do
  let key := cacheKey manifest d
  let cached ← m.cached env key
  let policy := manifest.policy
  match cached with
  | none => m.loadOrFallBack env key policy none d
  | some entry =>
    let expired ← isExpired env entry policy.ttlSeconds
    if expired then m.loadOrFallBack env key policy (some entry) d else m.fromCache entry false d

/-- `{ ...acc, [artifact.descriptor.kind]: artifact }`. -/
def addArtifact (acc : List (ProofArtifactKind × LoadedProofArtifact ν)) (artifact : LoadedProofArtifact ν) :
    List (ProofArtifactKind × LoadedProofArtifact ν) :=
  setKey artifact.descriptor.kind artifact acc

/-- `loadArtifacts(manifest, runtime)`. `env` gives the environment of each
load, and `rejected` the order in which loads fail. -/
def loadArtifacts (env : Nat → Environment ν ε) (rejected : List Nat) (manifest : ProofArtifactManifest ν)
    (runtime : ProofArtifactCompatibility) : Except (Failure ν ε) (LoadedProofArtifactSet ν) := do
  validateManifest manifest
  validateCompatibility manifest runtime
  let loaded ← promiseAll rejected (manifest.artifacts.zipIdx.map fun f => m.loadArtifact (env f.2) manifest f.1)
  return { manifest := manifest, artifacts := loaded.foldl addArtifact [] }

end ProofArtifactLifecycleManager

end Load

/-! ## Checks of the manifest -/

variable {manifest : ProofArtifactManifest ν}

theorem validateManifest_eq_ok (h : validateManifest (ε := ε) manifest = .ok ()) :
    (∀ kind ∈ requiredKinds, kind ∈ manifest.artifacts.map (·.kind)) ∧
      ∀ d ∈ manifest.artifacts, isSha256 d.sha256 = true := by
  obtain ⟨-, h⟩ := throwIf_bind_eq_ok.mp h
  obtain ⟨_, hkinds, hhashes⟩ := except_bind_eq_ok.mp h
  refine ⟨fun kind hkind => ?_, fun d hd => ?_⟩
  · exact not_not.mp (throwIf_eq_ok.mp (forEach_eq_ok.mp hkinds kind hkind))
  · simpa using throwIf_eq_ok.mp (forEach_eq_ok.mp hhashes d hd)

theorem validateCompatibility_eq_ok {runtime : ProofArtifactCompatibility} :
    validateCompatibility (ε := ε) manifest runtime = .ok () ↔ manifest.compatibility = runtime := by
  rw [validateCompatibility, forEach_eq_ok]
  simp only [versionChecks, throwIf_eq_ok, not_not, List.forall_mem_cons]
  constructor
  · intro h
    obtain ⟨h₁, h₂, h₃, h₄, -⟩ := h
    cases hm : manifest.compatibility
    cases runtime
    rw [hm] at h₁ h₂ h₃ h₄
    simp only at h₁ h₂ h₃ h₄
    rw [h₁, h₂, h₃, h₄]
  · intro h
    rw [h]
    exact ⟨rfl, rfl, rfl, rfl, List.forall_mem_nil _⟩

/-! ## The set of artifacts -/

/-- Of each kind, the last artifact is kept. -/
theorem lookup_artifacts (loaded : List (LoadedProofArtifact ν)) (kind : ProofArtifactKind) :
    (loaded.foldl ProofArtifactLifecycleManager.addArtifact []).lookup kind =
      loaded.reverse.find? fun a => a.descriptor.kind = kind := by
  have h := lookup_foldl_setKey (fun a : LoadedProofArtifact ν => a.descriptor.kind) id loaded [] kind
  rwa [Option.map_id, id, List.lookup_nil, Option.or_none] at h

/-! ## Answers of the cache, the loader and the clock -/

/-- Bytes of a length have the digest of the descriptor, letter case apart, and
its size where it gives one. -/
structure Verified [NatCast ν] (sha256 : Bytes → List UInt8) (d : ProofArtifactDescriptor ν) (bytes : Bytes)
    (length : Nat) : Prop where
  hash : sha256Digest sha256 bytes = toLowerCase d.sha256
  size : ∀ size ∈ d.sizeBytes, size = .finite (length : ν)

/-- An array passes `verifyHash`. -/
abbrev Passes [NatCast ν] (sha256 : Bytes → List UInt8) (d : ProofArtifactDescriptor ν) (bytes : SharedArray) : Prop :=
  Verified sha256 d bytes.hashed bytes.byteLength

/-- What has been verified is so in the end where its digest and its size are the
same. -/
theorem verified_iff_same [NatCast ν] {sha256 : Bytes → List UInt8} {d : ProofArtifactDescriptor ν}
    {bytes : SharedArray} {final : Bytes} (h : Passes sha256 d bytes) : Verified sha256 d final final.length ↔
      sha256Digest sha256 final = sha256Digest sha256 bytes.hashed ∧
        (d.sizeBytes.isSome → (final.length : ν) = bytes.byteLength) := by
  constructor
  · intro hfinal
    refine ⟨hfinal.hash.trans h.hash.symm, fun hsize => ?_⟩
    obtain ⟨size, hsize⟩ := Option.isSome_iff_exists.mp hsize
    have heq := (hfinal.size size hsize).symm.trans (h.size size hsize)
    exact JsNumber.finite.inj heq
  · rintro ⟨hdigest, hlength⟩
    refine ⟨hdigest.trans h.hash, fun size hsize => ?_⟩
    rw [h.size size hsize, hlength (Option.isSome_iff_exists.mpr ⟨size, hsize⟩)]

section Answers

variable (m : ProofArtifactLifecycleManager) (env : Environment ν ε)

/-- The cache gives what it has under the key. -/
def Answers (key : String) (cached : Option (ProofArtifactCacheEntry ν)) : Prop :=
  (m.hasCache = false ∧ cached = none) ∨ (m.hasCache = true ∧ env.get key = .ok cached)

/-- An array that was loaded is stored, where it has to be. -/
def Stores (policy : ProofArtifactCachePolicy ν) (d : ProofArtifactDescriptor ν) (key : String) (bytes : SharedArray) :
    Prop :=
  policy.mode = .disabled ∨ m.hasCache = false ∨
    ∃ now, env.storedAt = .ok now ∧ env.set key { descriptor := d, bytes := bytes, cachedAt := now } = .ok ()

/-- The age of the entry is known. -/
def Aged [Add ν] [LE ν] [DecidableLE ν] (policy : ProofArtifactCachePolicy ν) (entry : ProofArtifactCacheEntry ν)
    (expired : Bool) : Prop :=
  match policy.ttlSeconds with
  | none => expired = false
  | some ttl => ∃ now, env.checkedAt = .ok now ∧ expired = JsNumber.le (entry.cachedAt.add ttl) now

variable [NatCast ν]

/-- The loader has the artifact, and the cache takes it. -/
structure LoadsFresh (policy : ProofArtifactCachePolicy ν) (d : ProofArtifactDescriptor ν) (key : String)
    (bytes : SharedArray) : Prop where
  loaded : env.load d = .ok bytes
  verified : Passes m.sha256 d bytes
  stored : Stores m env policy d key bytes

variable [Add ν] [LE ν] [DecidableLE ν] (manifest : ProofArtifactManifest ν) (d : ProofArtifactDescriptor ν)

/-- The array that a load takes, whether it is from the cache and whether it is
stale. -/
inductive Takes : SharedArray → Bool → Bool → Prop
  | fresh {entry : ProofArtifactCacheEntry ν} (answers : Answers m env (cacheKey manifest d) (some entry))
      (aged : Aged env manifest.policy entry false) (verified : Passes m.sha256 d entry.bytes) :
      Takes entry.bytes true false
  | loaded {cached : Option (ProofArtifactCacheEntry ν)} {bytes : SharedArray}
      (answers : Answers m env (cacheKey manifest d) cached)
      (aged : ∀ entry ∈ cached, Aged env manifest.policy entry true)
      (loads : LoadsFresh m env manifest.policy d (cacheKey manifest d) bytes) : Takes bytes false false
  | stale {entry : ProofArtifactCacheEntry ν} (answers : Answers m env (cacheKey manifest d) (some entry))
      (aged : Aged env manifest.policy entry true)
      (fails : ∀ bytes, ¬ LoadsFresh m env manifest.policy d (cacheKey manifest d) bytes)
      (allowed : manifest.policy.allowStaleFallback = true) (verified : Passes m.sha256 d entry.bytes) :
      Takes entry.bytes true true

end Answers

/-! ## One load -/

section Load

variable {m : ProofArtifactLifecycleManager} {env : Environment ν ε} {manifest : ProofArtifactManifest ν}
  {policy : ProofArtifactCachePolicy ν} {d : ProofArtifactDescriptor ν} {a : LoadedProofArtifact ν} {key : String}
  {bytes : SharedArray} {entry : ProofArtifactCacheEntry ν}

namespace ProofArtifactLifecycleManager

theorem foreign_eq_ok {α : Type} {answer : Except ε α} {a : α} :
    foreign (ν := ν) answer = .ok a ↔ answer = .ok a := by
  cases answer <;> simp [foreign, Except.mapError]

variable {cached : Option (ProofArtifactCacheEntry ν)}

theorem cached_eq_ok : m.cached env key = .ok cached ↔ Answers m env key cached := by
  unfold ProofArtifactLifecycleManager.cached Answers
  cases hcache : m.hasCache with
  | false => simp [pure, Except.pure, eq_comm]
  | true => simp [foreign_eq_ok]

theorem store_eq_ok : m.store env key policy d bytes = .ok () ↔ Stores m env policy d key bytes := by
  unfold store Stores
  split
  · rename_i h
    refine iff_of_true rfl ?_
    rcases h with h | h
    · exact .inl h
    · exact .inr (.inl h)
  · rename_i h
    rw [not_or] at h
    rw [or_iff_right h.1, or_iff_right h.2, except_bind_eq_ok]
    simp only [foreign_eq_ok]

theorem isExpired_eq_ok [Add ν] [LE ν] [DecidableLE ν] {expired : Bool} :
    isExpired env entry policy.ttlSeconds = .ok expired ↔ Aged env policy entry expired := by
  unfold isExpired Aged
  cases policy.ttlSeconds with
  | none => simp [pure, Except.pure, eq_comm]
  | some ttl =>
    rw [except_bind_eq_ok]
    simp only [foreign_eq_ok, pure, Except.pure, Except.ok.injEq, @eq_comm Bool expired]

variable [DecidableEq ν] [NatCast ν]

theorem verifySize_eq_ok :
    verifySize (ε := ε) bytes d = .ok () ↔ ∀ size ∈ d.sizeBytes, size = .finite (bytes.byteLength : ν) := by
  unfold verifySize
  split
  · rename_i hd
    simp [hd, pure, Except.pure]
  · rename_i size hd
    rw [throwIf_eq_ok, not_not, hd]
    simp

theorem verifyHash_eq_ok : m.verifyHash (ε := ε) bytes d = .ok () ↔ Passes m.sha256 d bytes := by
  rw [verifyHash, throwIf_bind_eq_ok, verifySize_eq_ok, not_not]
  exact ⟨fun h => ⟨h.1, h.2⟩, fun h => ⟨h.hash, h.size⟩⟩

theorem fromCache_eq_ok {stale : Bool} : m.fromCache (ε := ε) entry stale d = .ok a ↔ Passes m.sha256 d entry.bytes ∧
    a = { descriptor := d, bytes := entry.bytes.ref, loadedFromCache := true, stale := stale } := by
  rw [fromCache, except_bind_eq_ok, ← verifyHash_eq_ok (ε := ε)]
  constructor
  · rintro ⟨⟨⟩, hverified, h⟩
    cases h
    exact ⟨hverified, rfl⟩
  · rintro ⟨hverified, rfl⟩
    exact ⟨(), hverified, rfl⟩

theorem loadFresh_eq_ok : m.loadFresh env key policy d = .ok a ↔ ∃ bytes, LoadsFresh m env policy d key bytes ∧
    a = { descriptor := d, bytes := bytes.ref, loadedFromCache := false, stale := false } := by
  simp only [loadFresh, except_bind_eq_ok, foreign_eq_ok]
  constructor
  · rintro ⟨bytes, hload, ⟨⟩, hverified, ⟨⟩, hstored, h⟩
    cases h
    exact ⟨bytes, ⟨hload, verifyHash_eq_ok.mp hverified, store_eq_ok.mp hstored⟩, rfl⟩
  · rintro ⟨bytes, h, rfl⟩
    exact ⟨bytes, h.loaded, (), verifyHash_eq_ok.mpr h.verified, (), store_eq_ok.mpr h.stored, rfl⟩

/-- A failure, also to verify or to store what was loaded, only leads back to
the cache. -/
theorem loadOrFallBack_eq_ok :
    m.loadOrFallBack env key policy cached d = .ok a ↔
      (∃ bytes, LoadsFresh m env policy d key bytes ∧
        a = { descriptor := d, bytes := bytes.ref, loadedFromCache := false, stale := false }) ∨
      ((∀ bytes, ¬ LoadsFresh m env policy d key bytes) ∧ policy.allowStaleFallback = true ∧
        ∃ entry ∈ cached, Passes m.sha256 d entry.bytes ∧
          a = { descriptor := d, bytes := entry.bytes.ref, loadedFromCache := true, stale := true }) := by
  rw [loadOrFallBack, tryCatch_eq_ok, loadFresh_eq_ok]
  refine or_congr_right ?_
  constructor
  · rintro ⟨err, herr, h⟩
    split at h
    · rename_i entry hallowed
      refine ⟨fun bytes hbytes => ?_, hallowed, entry, rfl, fromCache_eq_ok.mp h⟩
      have hok := loadFresh_eq_ok.mpr ⟨bytes, hbytes, rfl⟩
      rw [herr] at hok
      cases hok
    · cases h
  · rintro ⟨hfails, hallowed, entry, hentry, h⟩
    obtain rfl : cached = some entry := hentry
    cases hfresh : m.loadFresh env key policy d with
    | ok b =>
      obtain ⟨bytes, hbytes, -⟩ := loadFresh_eq_ok.mp hfresh
      exact absurd hbytes (hfails bytes)
    | error err =>
      refine ⟨err, rfl, ?_⟩
      rw [hallowed]
      exact fromCache_eq_ok.mpr h

variable [Add ν] [LE ν] [DecidableLE ν]

/-- The artifact has the array that the load takes. -/
theorem loadArtifact_eq_ok : m.loadArtifact env manifest d = .ok a ↔ ∃ bytes loadedFromCache stale,
    Takes m env manifest d bytes loadedFromCache stale ∧
      a = { descriptor := d, bytes := bytes.ref, loadedFromCache := loadedFromCache, stale := stale } := by
  simp only [loadArtifact, except_bind_eq_ok, cached_eq_ok]
  constructor
  · rintro ⟨cached, hanswers, h⟩
    cases cached with
    | none =>
      rcases loadOrFallBack_eq_ok.mp h with ⟨bytes, hbytes, ha⟩ | ⟨-, -, entry, hentry, -⟩
      · exact ⟨bytes, false, false, .loaded hanswers nofun hbytes, ha⟩
      · cases hentry
    | some entry =>
      obtain ⟨expired, haged, h⟩ := except_bind_eq_ok.mp h
      rw [isExpired_eq_ok] at haged
      cases expired with
      | false =>
        obtain ⟨hverified, ha⟩ := fromCache_eq_ok.mp h
        exact ⟨_, _, _, .fresh hanswers haged hverified, ha⟩
      | true =>
        rcases loadOrFallBack_eq_ok.mp h with ⟨bytes, hbytes, ha⟩ | ⟨hfails, hallowed, e, he, hverified, ha⟩
        · refine ⟨bytes, false, false, .loaded hanswers (fun e he => ?_) hbytes, ha⟩
          cases he
          exact haged
        · cases he
          exact ⟨_, _, _, .stale hanswers haged hfails hallowed hverified, ha⟩
  · rintro ⟨bytes, loadedFromCache, stale, h, ha⟩
    cases h with
    | @fresh entry hanswers haged hverified =>
      exact ⟨some entry, hanswers, except_bind_eq_ok.mpr
        ⟨false, isExpired_eq_ok.mpr haged, fromCache_eq_ok.mpr ⟨hverified, ha⟩⟩⟩
    | @loaded cached bytes hanswers haged hloads =>
      refine ⟨cached, hanswers, ?_⟩
      have hfresh : ∀ cached, m.loadOrFallBack env _ _ cached d = .ok a :=
        fun _ => loadOrFallBack_eq_ok.mpr (.inl ⟨bytes, hloads, ha⟩)
      cases cached with
      | none => exact hfresh none
      | some entry =>
        exact except_bind_eq_ok.mpr ⟨true, isExpired_eq_ok.mpr (haged entry rfl), hfresh (some entry)⟩
    | @stale entry hanswers haged hfails hallowed hverified =>
      exact ⟨some entry, hanswers, except_bind_eq_ok.mpr ⟨true, isExpired_eq_ok.mpr haged,
        loadOrFallBack_eq_ok.mpr (.inr ⟨hfails, hallowed, entry, rfl, hverified, ha⟩)⟩⟩

/-- The artifact is one of the descriptor. -/
theorem descriptor_of_load (h : m.loadArtifact env manifest d = .ok a) : a.descriptor = d := by
  obtain ⟨_, _, _, _, rfl⟩ := loadArtifact_eq_ok.mp h
  rfl

end ProofArtifactLifecycleManager

/-- What a load takes has been verified. -/
theorem Takes.passes [NatCast ν] [Add ν] [LE ν] [DecidableLE ν] {loadedFromCache stale : Bool}
    (h : Takes m env manifest d bytes loadedFromCache stale) : Passes m.sha256 d bytes := by
  cases h with
  | fresh _ _ verified => exact verified
  | loaded _ _ loads => exact loads.verified
  | stale _ _ _ _ verified => exact verified

end Load

open ProofArtifactLifecycleManager

/-! ## All loads -/

section Loads

/-- No later descriptor has the kind of the one at index `i`. -/
def LastOfKind (manifest : ProofArtifactManifest ν) (i : Nat) (d : ProofArtifactDescriptor ν) : Prop :=
  ∀ j d', i < j → manifest.artifacts[j]? = some d' → d'.kind ≠ d.kind

variable [DecidableEq ν] [NatCast ν] [Add ν] [LE ν] [DecidableLE ν]

/-- The loads of a set, one for each descriptor. -/
def loads (m : ProofArtifactLifecycleManager) (env : Nat → Environment ν ε) (manifest : ProofArtifactManifest ν) :
    List (Except (Failure ν ε) (LoadedProofArtifact ν)) :=
  manifest.artifacts.zipIdx.map fun f => m.loadArtifact (env f.2) manifest f.1

variable {m : ProofArtifactLifecycleManager} {env : Nat → Environment ν ε} {manifest : ProofArtifactManifest ν}
  {runtime : ProofArtifactCompatibility} {rejected : List Nat} {loaded : List (LoadedProofArtifact ν)}

theorem getElem?_loads (i : Nat) : (loads m env manifest)[i]? =
    manifest.artifacts[i]?.map fun d => m.loadArtifact (env i) manifest d := by
  rw [loads, List.getElem?_map, List.getElem?_zipIdx]
  cases manifest.artifacts[i]? <;> simp

/-- A set is loaded when its manifest is valid and compatible and all its loads
succeed. -/
theorem loadArtifacts_eq_ok {set : LoadedProofArtifactSet ν} :
    m.loadArtifacts env rejected manifest runtime = .ok set ↔
      validateManifest (ε := ε) manifest = .ok () ∧ validateCompatibility (ε := ε) manifest runtime = .ok () ∧
        ∃ loaded : List (LoadedProofArtifact ν), loads m env manifest = loaded.map .ok ∧
          set = { manifest := manifest, artifacts := loaded.foldl addArtifact [] } := by
  simp only [loadArtifacts, except_bind_eq_ok]
  constructor
  · rintro ⟨⟨⟩, hvalid, ⟨⟩, hversions, loaded, hloaded, h⟩
    cases h
    exact ⟨hvalid, hversions, loaded, eq_map_ok_of_promiseAll hloaded, rfl⟩
  · rintro ⟨hvalid, hversions, loaded, hloaded, rfl⟩
    refine ⟨(), hvalid, (), hversions, loaded, ?_, rfl⟩
    show promiseAll rejected (loads m env manifest) = _
    rw [hloaded, promiseAll_map_ok]

section

variable (hloaded : loads m env manifest = loaded.map .ok)
include hloaded

/-- The artifacts that are loaded are those of the descriptors, in their order. -/
theorem getElem?_loaded (i : Nat) :
    loaded[i]?.map Except.ok = manifest.artifacts[i]?.map fun d => m.loadArtifact (env i) manifest d := by
  rw [← getElem?_loads, hloaded, List.getElem?_map]

/-- The artifact at an index is that of the load for its descriptor. -/
theorem load_of_loaded {i : Nat} {a : LoadedProofArtifact ν} (ha : loaded[i]? = some a) :
    ∃ d, manifest.artifacts[i]? = some d ∧ m.loadArtifact (env i) manifest d = .ok a := by
  have hat := getElem?_loaded hloaded i
  rw [ha, Option.map_some, eq_comm, Option.map_eq_some_iff] at hat
  exact hat

theorem loaded_of_load {i : Nat} {d : ProofArtifactDescriptor ν}
    (hd : manifest.artifacts[i]? = some d) :
    ∃ a, loaded[i]? = some a ∧ m.loadArtifact (env i) manifest d = .ok a := by
  have hat := getElem?_loaded hloaded i
  rw [hd, Option.map_some, Option.map_eq_some_iff] at hat
  obtain ⟨a, ha, hok⟩ := hat
  exact ⟨a, ha, hok.symm⟩

/-- Of each kind, a set has the artifact of the last load. -/
theorem lookup_eq_some_iff {kind : ProofArtifactKind} {a : LoadedProofArtifact ν} :
    (loaded.foldl addArtifact []).lookup kind = some a ↔ ∃ i d, manifest.artifacts[i]? = some d ∧ d.kind = kind ∧
      LastOfKind manifest i d ∧ m.loadArtifact (env i) manifest d = .ok a := by
  rw [lookup_artifacts, reverse_find?_eq_some_iff, decide_eq_true_iff]
  constructor
  · rintro ⟨hkind, i, hi, hlast⟩
    obtain ⟨d, hd, hload⟩ := load_of_loaded hloaded hi
    have hdkind : d.kind = kind := by rw [← descriptor_of_load hload, hkind]
    refine ⟨i, d, hd, hdkind, fun j d' hj hd' => ?_, hload⟩
    obtain ⟨b, hb, hbload⟩ := loaded_of_load hloaded hd'
    have hother := hlast j b hj hb
    rwa [decide_eq_false_iff_not, descriptor_of_load hbload, ← hdkind] at hother
  · rintro ⟨i, d, hd, hkind, hlast, hload⟩
    obtain ⟨b, hb, hbload⟩ := loaded_of_load hloaded hd
    obtain rfl : a = b := Except.ok.inj (hload.symm.trans hbload)
    refine ⟨by rw [descriptor_of_load hload, hkind], i, hb, fun j b hj hjb => ?_⟩
    obtain ⟨d', hd', hload'⟩ := load_of_loaded hloaded hjb
    rw [decide_eq_false_iff_not, descriptor_of_load hload', ← hkind]
    exact hlast j d' hj hd'

end

/-! ## The artifacts of a set -/

/-- A set is one of the manifest for the versions of the run time, with every
kind that is required, and its artifacts are as the manifest describes them. -/
structure SetVerified (memory : ArrayRef → Bytes) (m : ProofArtifactLifecycleManager) (manifest : ProofArtifactManifest ν)
    (runtime : ProofArtifactCompatibility) (set : LoadedProofArtifactSet ν) : Prop where
  sameManifest : set.manifest = manifest
  versions : manifest.compatibility = runtime
  kinds : ∀ kind ∈ requiredKinds, ∃ artifact, set.artifacts.lookup kind = some artifact
  artifacts : ∀ kind artifact, set.artifacts.lookup kind = some artifact →
    artifact.descriptor ∈ manifest.artifacts ∧ artifact.descriptor.kind = kind ∧
      Verified m.sha256 artifact.descriptor (memory artifact.bytes) (memory artifact.bytes).length

/-- The arrays that the last load of each kind takes have in the end the digest
and, where the descriptor gives one, the size that they had when they were
verified. -/
def Undisturbed (memory : ArrayRef → Bytes) (m : ProofArtifactLifecycleManager) (env : Nat → Environment ν ε)
    (manifest : ProofArtifactManifest ν) : Prop :=
  ∀ i d, manifest.artifacts[i]? = some d → LastOfKind manifest i d → ∀ bytes loadedFromCache stale,
    Takes m (env i) manifest d bytes loadedFromCache stale →
      sha256Digest m.sha256 (memory bytes.ref) = sha256Digest m.sha256 bytes.hashed ∧
        (d.sizeBytes.isSome → ((memory bytes.ref).length : ν) = bytes.byteLength)

/-- A set that is loaded is one of verified artifacts of the manifest, of every
kind that is required and for the versions of the run time, just where nobody has
written something else to the arrays since they were verified. -/
theorem loadArtifacts_verified_iff {memory : ArrayRef → Bytes} {set : LoadedProofArtifactSet ν}
    (h : m.loadArtifacts env rejected manifest runtime = .ok set) :
    SetVerified memory m manifest runtime set ↔ Undisturbed memory m env manifest := by
  obtain ⟨hvalid, hversions, loaded, hloaded, rfl⟩ := loadArtifacts_eq_ok.mp h
  constructor
  · intro hset i d hd hlast bytes loadedFromCache stale htakes
    have hload := loadArtifact_eq_ok.mpr ⟨bytes, loadedFromCache, stale, htakes, rfl⟩
    have hlookup := (lookup_eq_some_iff hloaded).mpr ⟨i, d, hd, rfl, hlast, hload⟩
    exact (verified_iff_same htakes.passes).mp (hset.artifacts _ _ hlookup).2.2
  · intro hsame
    refine ⟨rfl, validateCompatibility_eq_ok.mp hversions, fun kind hkind => ?_, fun kind artifact hlookup => ?_⟩
    · obtain ⟨d, hd, hk⟩ := List.mem_map.mp ((validateManifest_eq_ok hvalid).1 kind hkind)
      obtain ⟨i, hi⟩ := List.mem_iff_getElem?.mp hd
      obtain ⟨a, ha, hload⟩ := loaded_of_load hloaded hi
      refine Option.isSome_iff_exists.mp ?_
      rw [lookup_artifacts, List.find?_isSome]
      exact ⟨a, List.mem_reverse.mpr (List.mem_of_getElem? ha),
        decide_eq_true (by rw [descriptor_of_load hload, hk])⟩
    · obtain ⟨i, d, hd, hkind, hlast, hload⟩ := (lookup_eq_some_iff hloaded).mp hlookup
      obtain ⟨bytes, loadedFromCache, stale, htakes, rfl⟩ := loadArtifact_eq_ok.mp hload
      exact ⟨List.mem_of_getElem? hd, hkind,
        (verified_iff_same htakes.passes).mpr (hsame i d hd hlast _ _ _ htakes)⟩

end Loads

/-! ## A load with each source of bytes -/

/-- Some files, by their content, with their digests. -/
def exampleDigests : List (Bytes × String) :=
  [([], "e3b0c44298fc1c149afbf4c8996fb92427ae41e4649b934ca495991b7852b855"),
    ([0], "6e340b9cffb37a989ca544e6bb780a2c78901d3fb33738768511a30617afa01d"),
    ([1], "4bf5122f344554c53bde2ebb8cd2b7e3d1600ad631c385a5d7cce23c7785459a"),
    ([2], "dbc1b4c900ffe48d575b5da5c638040125f65db0fe3e24494b76ea986457d986")]

def exampleDigest (bytes : Bytes) : String := (exampleDigests.lookup bytes).getD ""

/-- A manager whose hash is right for these files. -/
def exampleManager : ProofArtifactLifecycleManager where
  hasCache := true
  sha256 bytes := hexDecode (exampleDigest bytes).toList

def exampleDescriptor (bytes : Bytes) (kind : ProofArtifactKind) : ProofArtifactDescriptor Int where
  kind := kind
  source := .localPath "artifact"
  sha256 := exampleDigest bytes
  sizeBytes := some (.finite bytes.length)

def exampleVersions : ProofArtifactCompatibility where
  sdkVersion := "1"
  circuitVersion := "2"
  contractVerifierVersion := "3"
  verificationKeyVersion := "4"

/-- A manifest that lists the artifacts. -/
def manifestOf (artifacts : List (ProofArtifactDescriptor Int)) : ProofArtifactManifest Int where
  schemaVersion := "1.0"
  manifestVersion := "1"
  circuitId := "c"
  artifacts := artifacts
  compatibility := exampleVersions
  cachePolicy := some
    { mode := .memory
      ttlSeconds := some (.finite 10)
      allowStaleFallback := true }

/-- A manifest of empty files. -/
def exampleManifest : ProofArtifactManifest Int :=
  manifestOf (requiredKinds.map (exampleDescriptor []))

/-- The first artifact is fresh in the cache, others have expired there, and the
loader only knows the key of the verifier. -/
def exampleEnvironment (i : Nat) : Environment Int String where
  get _ := .ok (some
    { descriptor := exampleDescriptor [] .zkey
      bytes :=
        { ref := i
          hashed := []
          byteLength := 0 }
      cachedAt := .finite (if i = 0 then 95 else 0) })
  load d := if d.kind = .verificationKey then .ok { ref := 3, hashed := [], byteLength := 0 } else .error "not found"
  set _ _ := .ok ()
  checkedAt := .ok (.finite 100)
  storedAt := .ok (.finite 101)

/-- Nobody writes to the empty files. -/
theorem example_verified : ∃ set,
    exampleManager.loadArtifacts exampleEnvironment [] exampleManifest exampleVersions = .ok set ∧
      (SetVerified (fun _ => []) exampleManager exampleManifest exampleVersions set ↔
        Undisturbed (fun _ => []) exampleManager exampleEnvironment exampleManifest) := by
  obtain ⟨set, hset⟩ := exists_of_isOk
    (show (exampleManager.loadArtifacts exampleEnvironment [] exampleManifest exampleVersions).isOk = true by
      decide +kernel)
  exact ⟨set, hset, loadArtifacts_verified_iff hset⟩

/-! ## One buffer for all artifacts -/

/-- Three files of one byte each. -/
def bufferManifest : ProofArtifactManifest Int :=
  manifestOf [exampleDescriptor [0] .wasm, exampleDescriptor [1] .zkey, exampleDescriptor [2] .verificationKey]

/-- An empty cache, and a loader that reads one file after the other into one
buffer. -/
def oneBuffer (i : Nat) : Environment Int String where
  get _ := .ok none
  load _ := .ok { ref := 0, hashed := [UInt8.ofNat i], byteLength := 1 }
  set _ _ := .ok ()
  checkedAt := .ok (.finite 100)
  storedAt := .ok (.finite 101)

/-- In the end, the buffer has the last file, and the set has it three times. -/
theorem shared_buffer_not_verified : ∃ set,
    exampleManager.loadArtifacts oneBuffer [] bufferManifest exampleVersions = .ok set ∧
      ¬ SetVerified (fun _ => [2]) exampleManager bufferManifest exampleVersions set := by
  obtain ⟨set, hset⟩ := exists_of_isOk
    (show (exampleManager.loadArtifacts oneBuffer [] bufferManifest exampleVersions).isOk = true by decide +kernel)
  refine ⟨set, hset, fun h => ?_⟩
  obtain ⟨artifact, hlookup⟩ := h.kinds .wasm (by decide)
  obtain ⟨hmem, hkind, hverified⟩ := h.artifacts .wasm artifact hlookup
  have hwasm : artifact.descriptor = exampleDescriptor [0] .wasm := by
    simp only [bufferManifest, manifestOf, List.mem_cons, List.not_mem_nil, or_false] at hmem
    rcases hmem with hmem | hmem | hmem
    · exact hmem
    · rw [hmem] at hkind
      cases hkind
    · rw [hmem] at hkind
      cases hkind
  rw [hwasm] at hverified
  exact absurd hverified.hash (by decide +kernel)

end ZkPayroll.Artifacts
