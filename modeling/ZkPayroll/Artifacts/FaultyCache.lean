import ZkPayroll.Artifacts.ProofArtifactLifecycleManager

/-!
# Loading with a cache that fails

What the cache of a `ProofArtifactLifecycleManager` can do to a load whose
loader returns the right bytes. A fresh entry is verified, and the cache is
asked, outside the `try` of `loadArtifact`; storing what was loaded is inside
it, so a cache that cannot store sends the load back to its entry. And a cache,
or a loader, that writes to an array which it has handed over changes what the
set has:

* `loadArtifact_iff`: the answers of the cache with which one load succeeds;
* `loadArtifacts_iff`: a set is loaded with the bytes of the loader just where
  the cache does none of its loads any harm.
-/

namespace ZkPayroll.Artifacts

open Framework Crypto ProofArtifactLifecycleManager

variable {ν ε : Type} [NatCast ν]

section Harm

variable (memory : ArrayRef → Bytes) (m : ProofArtifactLifecycleManager) (env : Environment ν ε)
  (policy : ProofArtifactCachePolicy ν) (d : ProofArtifactDescriptor ν)

/-- An array that has been verified has in the end the bytes of the loader where
they are `kept`. -/
structure Usable (kept : Prop) (right : Bytes) (bytes : SharedArray) : Prop where
  verified : Passes m.sha256 d bytes
  same : kept → memory bytes.ref = right

/-- The cache does a load no harm: without a fresh entry, the array of the loader
can be stored and used, or it cannot be stored and there is an entry to fall back
to; with one, its array can be used. -/
def Harmless [Add ν] [LE ν] [DecidableLE ν] (key : String) (kept : Prop) (bytes : SharedArray) : Prop :=
  ∃ cached, Answers m env key cached ∧
    match cached with
    | none => Stores m env policy d key bytes ∧ Usable memory m d kept bytes.hashed bytes
    | some entry => ∃ expired, Aged env policy entry expired ∧
      if expired = true then
        (Stores m env policy d key bytes ∧ Usable memory m d kept bytes.hashed bytes) ∨
          (¬ Stores m env policy d key bytes ∧ policy.allowStaleFallback = true ∧
            Usable memory m d kept bytes.hashed entry.bytes)
      else Usable memory m d kept bytes.hashed entry.bytes

end Harm

/-! ## One load -/

section Load

variable {memory : ArrayRef → Bytes} {m : ProofArtifactLifecycleManager} {env : Environment ν ε}
  {manifest : ProofArtifactManifest ν} {policy : ProofArtifactCachePolicy ν} {d : ProofArtifactDescriptor ν}
  {key : String} {kept : Prop} {bytes : SharedArray}

/-- With the right bytes, only the cache is in the way of a load. -/
theorem loadsFresh_iff (hload : env.load d = .ok bytes) (hbytes : Passes m.sha256 d bytes) {other : SharedArray} :
    LoadsFresh m env policy d key other ↔ other = bytes ∧ Stores m env policy d key bytes := by
  constructor
  · intro h
    obtain rfl : other = bytes := Except.ok.inj (h.loaded.symm.trans hload)
    exact ⟨rfl, h.stored⟩
  · rintro ⟨rfl, hstored⟩
    exact ⟨hload, hbytes, hstored⟩

variable [DecidableEq ν] [Add ν] [LE ν] [DecidableLE ν]

/-- The answers of the cache with which a load succeeds, where the loader has
the right bytes. -/
theorem loadArtifact_iff (hload : env.load d = .ok bytes) (hbytes : Passes m.sha256 d bytes) :
    (∃ a, m.loadArtifact env manifest d = .ok a ∧ (kept → memory a.bytes = bytes.hashed)) ↔
      Harmless memory m env manifest.policy d (cacheKey manifest d) kept bytes := by
  simp only [loadArtifact_eq_ok]
  constructor
  · rintro ⟨_, ⟨x, _, _, htakes, rfl⟩, hsame⟩
    cases htakes with
    | fresh hanswers haged hverified => exact ⟨_, hanswers, false, haged, hverified, hsame⟩
    | @loaded cached _ hanswers haged hloads =>
      obtain ⟨rfl, hstored⟩ := (loadsFresh_iff hload hbytes).mp hloads
      refine ⟨cached, hanswers, ?_⟩
      cases cached with
      | none => exact ⟨hstored, hbytes, hsame⟩
      | some entry => exact ⟨true, haged entry rfl, .inl ⟨hstored, hbytes, hsame⟩⟩
    | stale hanswers haged hfails hallowed hverified =>
      have hunstored : ¬ Stores m env manifest.policy d (cacheKey manifest d) bytes := fun hstored =>
        hfails bytes ((loadsFresh_iff hload hbytes).mpr ⟨rfl, hstored⟩)
      exact ⟨_, hanswers, true, haged, .inr ⟨hunstored, hallowed, hverified, hsame⟩⟩
  · rintro ⟨cached, hanswers, h⟩
    -- the load takes the array of the loader
    have hloaded : (∀ entry ∈ cached, Aged env manifest.policy entry true) →
        Stores m env manifest.policy d (cacheKey manifest d) bytes → Usable memory m d kept bytes.hashed bytes →
        ∃ a : LoadedProofArtifact ν, (∃ x c s, Takes m env manifest d x c s ∧
          a = { descriptor := d, bytes := x.ref, loadedFromCache := c, stale := s }) ∧
            (kept → memory a.bytes = bytes.hashed) := fun haged hstored husable =>
      ⟨_, ⟨bytes, _, _, .loaded hanswers haged ⟨hload, hbytes, hstored⟩, rfl⟩, husable.same⟩
    cases cached with
    | none => exact hloaded (fun _ he => absurd he (Option.not_mem_none _)) h.1 h.2
    | some entry =>
      obtain ⟨expired, haged, h⟩ := h
      cases expired with
      | false => exact ⟨_, ⟨_, _, _, .fresh hanswers haged h.verified, rfl⟩, h.same⟩
      | true =>
        rcases h with ⟨hstored, husable⟩ | ⟨hunstored, hallowed, husable⟩
        · exact hloaded (fun e he => by cases he; exact haged) hstored husable
        · have hfails : ∀ x, ¬ LoadsFresh m env manifest.policy d (cacheKey manifest d) x := fun x hx =>
            hunstored ((loadsFresh_iff hload hbytes).mp hx).2
          exact ⟨_, ⟨_, _, _, .stale hanswers haged hfails hallowed husable.verified, rfl⟩, husable.same⟩

end Load

/-! ## A set of artifacts -/

/-- The loader has the right bytes for every descriptor. -/
def LoaderCorrect (m : ProofArtifactLifecycleManager) (env : Nat → Environment ν ε)
    (manifest : ProofArtifactManifest ν) (arrays : Nat → SharedArray) : Prop :=
  ∀ i d, manifest.artifacts[i]? = some d → (env i).load d = .ok (arrays i) ∧ Passes m.sha256 d (arrays i)

/-- A set of the manifest has the bytes of the loader. -/
def HasBytes (memory : ArrayRef → Bytes) (manifest : ProofArtifactManifest ν) (arrays : Nat → SharedArray)
    (set : LoadedProofArtifactSet ν) : Prop :=
  ∀ i d, manifest.artifacts[i]? = some d → LastOfKind manifest i d →
    ∃ a, set.artifacts.lookup d.kind = some a ∧ a.descriptor = d ∧ memory a.bytes = (arrays i).hashed

section Loads

variable [DecidableEq ν] [Add ν] [LE ν] [DecidableLE ν] {memory : ArrayRef → Bytes} {m : ProofArtifactLifecycleManager}
  {env : Nat → Environment ν ε} {manifest : ProofArtifactManifest ν} {runtime : ProofArtifactCompatibility}
  {rejected : List Nat}

/-- With a loader that has the right bytes, the artifacts of a valid and
compatible manifest are loaded with these bytes just where the cache harms none
of the loads. -/
theorem loadArtifacts_iff (hvalid : validateManifest (ε := ε) manifest = .ok ())
    (hversions : validateCompatibility (ε := ε) manifest runtime = .ok ()) {arrays : Nat → SharedArray}
    (hloader : LoaderCorrect m env manifest arrays) :
    (∃ set, m.loadArtifacts env rejected manifest runtime = .ok set ∧ HasBytes memory manifest arrays set) ↔
      ∀ i d, manifest.artifacts[i]? = some d →
        Harmless memory m (env i) manifest.policy d (cacheKey manifest d) (LastOfKind manifest i d) (arrays i) := by
  simp only [loadArtifacts_eq_ok]
  constructor
  · rintro ⟨set, ⟨-, -, loaded, hloaded, rfl⟩, hbytes⟩ i d hd
    obtain ⟨hload, hverified⟩ := hloader i d hd
    obtain ⟨a, -, hok⟩ := loaded_of_load hloaded hd
    refine (loadArtifact_iff hload hverified).mp ⟨a, hok, fun hlast => ?_⟩
    obtain ⟨a', hlookup, -, hsame⟩ := hbytes i d hd hlast
    have hkept := (lookup_eq_some_iff hloaded).mpr ⟨i, d, hd, rfl, hlast, hok⟩
    rw [hkept] at hlookup
    cases hlookup
    exact hsame
  · intro h
    have hload : ∀ i d, manifest.artifacts[i]? = some d → ∃ a, m.loadArtifact (env i) manifest d = .ok a ∧
        (LastOfKind manifest i d → memory a.bytes = (arrays i).hashed) := by
      intro i d hd
      obtain ⟨hload, hverified⟩ := hloader i d hd
      exact (loadArtifact_iff hload hverified).mpr (h i d hd)
    have hall : ∀ p ∈ loads m env manifest, ∃ a, p = .ok a := by
      intro p hp
      obtain ⟨i, hi⟩ := List.mem_iff_getElem?.mp hp
      rw [getElem?_loads, Option.map_eq_some_iff] at hi
      obtain ⟨d, hd, rfl⟩ := hi
      obtain ⟨a, ha, -⟩ := hload i d hd
      exact ⟨a, ha⟩
    obtain ⟨loaded, hloaded⟩ := exists_map_ok hall
    refine ⟨_, ⟨hvalid, hversions, loaded, hloaded, rfl⟩, fun i d hd hlast => ?_⟩
    obtain ⟨a, ha, hsame⟩ := hload i d hd
    exact ⟨a, (lookup_eq_some_iff hloaded).mpr ⟨i, d, hd, rfl, hlast, ha⟩, descriptor_of_load ha, hsame hlast⟩

end Loads

/-! ## Caches that fail -/

/-- The array of a loader of empty files. -/
def emptyArray : SharedArray where
  ref := 0
  hashed := []
  byteLength := 0

/-- A loader that has every artifact, with a cache that is given. -/
def loadingWith (get : Except String (Option (ProofArtifactCacheEntry Int))) (set : Except String Unit) :
    Environment Int String where
  get _ := get
  load _ := .ok emptyArray
  set _ _ := set
  checkedAt := .ok (.finite 100)
  storedAt := .ok (.finite 101)

/-- A fresh entry with a byte that the artifact has not. -/
def corruptedEntry : ProofArtifactCacheEntry Int where
  descriptor := exampleDescriptor [] .zkey
  bytes := { ref := 1, hashed := [1], byteLength := 1 }
  cachedAt := .finite 100

theorem loaderCorrect_loadingWith (get : Except String (Option (ProofArtifactCacheEntry Int)))
    (set : Except String Unit) :
    LoaderCorrect exampleManager (fun _ => loadingWith get set) exampleManifest fun _ => emptyArray := by
  intro i d hd
  have hmem : d ∈ exampleManifest.artifacts := List.mem_of_getElem? hd
  have hd : ∃ kind, d = exampleDescriptor [] kind := by
    simp only [exampleManifest, manifestOf, requiredKinds, List.map_cons, List.map_nil, List.mem_cons,
      List.not_mem_nil, or_false] at hmem
    rcases hmem with rfl | rfl | rfl
    · exact ⟨_, rfl⟩
    · exact ⟨_, rfl⟩
    · exact ⟨_, rfl⟩
  obtain ⟨kind, rfl⟩ := hd
  have hhash : sha256Digest exampleManager.sha256 [] = toLowerCase (exampleDigest []) := by decide +kernel
  refine ⟨rfl, hhash, fun size hsize => ?_⟩
  cases hsize
  rfl

/-- A cache that throws when it is asked or when it has to store, and one whose
entry is corrupted, make the load of a valid manifest fail. -/
theorem faulty_cache_fails :
    validateManifest (ε := String) exampleManifest = .ok () ∧
      validateCompatibility (ε := String) exampleManifest exampleVersions = .ok () ∧
      ∀ env ∈ [loadingWith (.error "down") (.ok ()), loadingWith (.ok (some corruptedEntry)) (.ok ()),
          loadingWith (.ok none) (.error "full")],
        LoaderCorrect exampleManager (fun _ => env) exampleManifest (fun _ => emptyArray) ∧
          ¬ ∃ set, exampleManager.loadArtifacts (fun _ => env) [] exampleManifest exampleVersions = .ok set := by
  have hfails : ∀ env ∈ [loadingWith (.error "down") (.ok ()), loadingWith (.ok (some corruptedEntry)) (.ok ()),
      loadingWith (.ok none) (.error "full")],
      (exampleManager.loadArtifacts (fun _ => env) [] exampleManifest exampleVersions).isOk = false := by
    simp only [List.forall_mem_cons, List.not_mem_nil, false_imp_iff, implies_true, and_true]
    decide +kernel
  refine ⟨rfl, rfl, fun env henv => ⟨?_, fun hset => ?_⟩⟩
  · simp only [List.mem_cons, List.not_mem_nil, or_false] at henv
    rcases henv with rfl | rfl | rfl <;> exact loaderCorrect_loadingWith _ _
  · obtain ⟨set, hset⟩ := hset
    have hfail := hfails env henv
    rw [hset] at hfail
    cases hfail

/-- A cache with no entry that can store does no harm. -/
theorem loaded_with_empty_cache : ∃ set,
    exampleManager.loadArtifacts (fun _ => loadingWith (.ok none) (.ok ())) [] exampleManifest exampleVersions =
        .ok set ∧ HasBytes (fun _ => []) exampleManifest (fun _ => emptyArray) set :=
  (loadArtifacts_iff rfl rfl (loaderCorrect_loadingWith (.ok none) (.ok ()))).mpr fun i d hd =>
    ⟨none, .inr ⟨rfl, rfl⟩, .inr (.inr ⟨_, rfl, rfl⟩),
      (loaderCorrect_loadingWith (.ok none) (.ok ()) i d hd).2, fun _ => rfl⟩

end ZkPayroll.Artifacts
