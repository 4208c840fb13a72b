import ZkPayroll.Core.Errors
import ZkPayroll.Framework.Encoding

/-!
# Loading circuit artifacts

`crypto/SnarkjsProofGenerator.ts`. The two artifacts are loaded in the same way
(`Loader`): `fetchWasm` and `fetchZkey`, `downloadWasm` and `downloadZkey` are
one definition each, for an artifact of either type. A generator takes a step
(`Generator.Step`) when something that a download or a task awaits comes to an
end. A task is a call of `computeProof` or of `preload`; the registry and the
semaphore in front of `computeProof` only decide when one begins, so a run may
begin one at any time.
-/

namespace ZkPayroll.Crypto

open Framework ZkPayroll.Core

abbrev Bytes := List UInt8

inductive ArtifactType where
  | wasm
  | zkey
  deriving DecidableEq, Repr

def ArtifactType.toString : ArtifactType → String
  | .wasm => "wasm"
  | .zkey => "zkey"

/-- What `ProofGeneratorConfig` says of an artifact. -/
structure ArtifactConfig where
  url : String
  expectedHash : Option String

/-- What a generator is made with. -/
structure GeneratorConfig where
  artifact : ArtifactType → ArtifactConfig
  /-- A `CacheProvider` is given. -/
  hasCache : Bool

/-! ## Hashes -/

/-- `sha256Digest(data)`. -/
def sha256Digest (sha256 : Bytes → List UInt8) (data : Bytes) : String := String.ofList (hexEncode (sha256 data))

/-- `s.toLowerCase()`. Letters beyond ASCII are left as they are: none of them
becomes a hexadecimal digit. -/
def toLowerCase (s : String) : String := String.ofList (s.toList.map lowerAscii)

/-- The hash to compare with, if there is one. -/
def ArtifactConfig.hash (c : ArtifactConfig) : Option String := c.expectedHash.filter fun h => h ≠ ""

def artifactHashMismatchError (c : ArtifactConfig) (a : ArtifactType) (expected actual : String) : SdkError where
  kind := .zkPayroll
  name := "ArtifactHashMismatchError"
  message := s!"SHA-256 hash mismatch for {a.toString} artifact at \"{c.url}\": expected {expected} but got {actual}. " ++
    "The artifact may be corrupted, tampered with, or from an unexpected version."
  code := "ARTIFACT_HASH_MISMATCH"

def fetchError (c : ArtifactConfig) (a : ArtifactType) (error : SdkError) : SdkError where
  kind := .zkPayroll
  name := "PayrollError"
  message := s!"Failed to fetch {a.toString} artifact from {c.url}: {error.message}"
  code := "500"

/-- `verifyHash(content, source, artifactType, expectedHash)`, once the digest
is there. -/
def verifyHash (sha256 : Bytes → List UInt8) (c : ArtifactConfig) (a : ArtifactType) (content : Bytes) :
    Except SdkError Unit :=
  match c.hash with
  | none => .ok ()
  | some expectedHash =>
    let actualHash := sha256Digest sha256 content
    if actualHash ≠ toLowerCase expectedHash then .error (artifactHashMismatchError c a expectedHash actualHash)
    else .ok ()

/-! ## Loading an artifact -/

/-- How far a call of `downloadWasm` has come. -/
inductive Download where
  | reading
  | verifying (content : Bytes)
  /-- It has returned, and its `finally` is still to run. -/
  | returned (result : Except SdkError (Option Bytes))
  | settled (result : Except SdkError (Option Bytes))

/-- The fields `wasmCache` and `wasmFetchPromise`, with the downloads there have
been. -/
structure Loader where
  cache : Option Bytes := none
  fetchPromise : Option Nat := none
  downloads : List Download := []

/-- The promise that `fetchWasm` returns. -/
inductive Fetch where
  | value (content : Bytes)
  | download (id : Nat)

namespace Loader

variable (l : Loader)

/-- `fetchWasm()`. -/
def fetch : Fetch × Loader :=
  match l.cache, l.fetchPromise with
  | some content, _ => (.value content, l)
  | none, some id => (.download id, l)
  | none, none =>
    (.download l.downloads.length,
      { l with fetchPromise := some l.downloads.length, downloads := l.downloads ++ [.reading] })

def setDownload (id : Nat) (d : Download) : Loader := { l with downloads := l.downloads.set id d }

/-- `downloadWasm` when the artifact has been read: the content is cached, and
its hash computed. -/
def read (c : ArtifactConfig) (a : ArtifactType) (id : Nat) : Except SdkError Bytes → Loader
  | .ok content => { l.setDownload id (.verifying content) with cache := some content }
  | .error e => l.setDownload id (.returned (.error (fetchError c a e)))

/-- `downloadWasm` after the verification: what is cached is returned. -/
def verified (id : Nat) : Except SdkError Unit → Loader
  | .ok _ => l.setDownload id (.returned (.ok l.cache))
  | .error e => l.setDownload id (.returned (.error e))

/-- The `finally` of `fetchWasm`. -/
def finallyRun (id : Nat) (result : Except SdkError (Option Bytes)) : Loader :=
  { l.setDownload id (.settled result) with fetchPromise := none }

def clear : Loader := { l with cache := none, fetchPromise := none }

end Loader

/-- What the promise of a fetch has settled with. -/
def Fetch.result (l : Loader) : Fetch → Option (Except SdkError (Option Bytes))
  | .value content => some (.ok (some content))
  | .download id =>
    match l.downloads[id]? with
    | some (.settled result) => some result
    | _ => none

/-! ## The generator -/

/-- What a task awaits. -/
inductive Task where
  /-- `this.cache.get(key)`. -/
  | readingCache
  /-- Both fetches, in `computeProof` or in `preload`. -/
  | fetching (preload : Bool) (fetch : ArtifactType → Fetch)
  /-- `groth16.fullProve`, called with the artifacts. -/
  | proving (artifact : ArtifactType → Option Bytes)
  /-- `this.cache.set(key, …)`. -/
  | storing
  /-- `computeProof` has returned. -/
  | proved
  /-- `preload` has reported that the artifacts are loaded. -/
  | loaded (artifact : ArtifactType → Option Bytes)
  | failed (e : SdkError)

structure PreloadStatus where
  wasmLoaded : Bool
  zkeyLoaded : Bool
  completedAt : Option String

def PreloadStatus.setLoaded (status : PreloadStatus) : ArtifactType → PreloadStatus
  | .wasm => { status with wasmLoaded := true }
  | .zkey => { status with zkeyLoaded := true }

structure Generator where
  loader : ArtifactType → Loader
  preloadStatus : PreloadStatus
  tasks : List Task

namespace Generator

variable (g : Generator)

def setLoader (a : ArtifactType) (l : Loader) : Generator := { g with loader := Function.update g.loader a l }

def setTask (n : Nat) (t : Task) : Generator := { g with tasks := g.tasks.set n t }

/-- `[this.fetchWasm(), this.fetchZkey()]`. -/
def fetchAll : (ArtifactType → Fetch) × Generator :=
  (fun a => (g.loader a).fetch.1, { g with loader := fun a => (g.loader a).fetch.2 })

/-- A download whose content has the right hash. -/
def verified (a : ArtifactType) (id : Nat) (result : Except SdkError Unit) : Generator :=
  let g' := g.setLoader a ((g.loader a).verified id result)
  match result with
  | .ok _ => { g' with preloadStatus := g.preloadStatus.setLoaded a }
  | .error _ => g'

/-- `clearArtifactCache()`; the registry in front of `computeProof` is left
out. -/
def clearArtifactCache : Generator :=
  { g with
    loader := fun a => (g.loader a).clear
    preloadStatus := { wasmLoaded := false, zkeyLoaded := false, completedAt := none } }

end Generator

/-! ## Steps -/

/-- What can happen next. -/
inductive GeneratorEvent where
  | computeProof
  /-- `hit` tells whether there was a proof in the cache. -/
  | cacheRead (n : Nat) (hit : Except SdkError Bool)
  | preload
  | fetched (n : Nat) (completedAt : String)
  | fetchFailed (n : Nat)
  | proved (n : Nat) (result : Except SdkError Unit)
  | stored (n : Nat) (result : Except SdkError Unit)
  /-- `axios.get` or `readFile` of a download. -/
  | read (a : ArtifactType) (id : Nat) (result : Except SdkError Bytes)
  /-- `crypto.subtle.digest` of a download. -/
  | hashed (a : ArtifactType) (id : Nat) (result : Except SdkError Unit)
  | finallyRun (a : ArtifactType) (id : Nat)
  | clearArtifactCache

section Steps

variable (sha256 : Bytes → List UInt8) (c : GeneratorConfig)

/-- What one step makes of a generator. -/
inductive Generator.Step (g : Generator) : GeneratorEvent → Generator → Prop
  | computeProof (h : c.hasCache = true) : g.Step .computeProof { g with tasks := g.tasks ++ [.readingCache] }
  | computeProofUncached (h : c.hasCache = false) :
    g.Step .computeProof { g.fetchAll.2 with tasks := g.tasks ++ [.fetching false g.fetchAll.1] }
  | cacheHit {n : Nat} (h : g.tasks[n]? = some .readingCache) : g.Step (.cacheRead n (.ok true)) (g.setTask n .proved)
  | cacheMiss {n : Nat} (h : g.tasks[n]? = some .readingCache) :
    g.Step (.cacheRead n (.ok false)) (g.fetchAll.2.setTask n (.fetching false g.fetchAll.1))
  | cacheFailed {n : Nat} (e : SdkError) (h : g.tasks[n]? = some .readingCache) :
    g.Step (.cacheRead n (.error e)) (g.setTask n (.failed e))
  | preload : g.Step .preload { g.fetchAll.2 with tasks := g.tasks ++ [.fetching true g.fetchAll.1] }
  | fetched {n : Nat} {fetch : ArtifactType → Fetch} (artifact : ArtifactType → Option Bytes) (completedAt : String)
      (h : g.tasks[n]? = some (.fetching false fetch)) (hr : ∀ a, (fetch a).result (g.loader a) = some (.ok (artifact a))) :
    g.Step (.fetched n completedAt) (g.setTask n (.proving artifact))
  | preloaded {n : Nat} {fetch : ArtifactType → Fetch} (artifact : ArtifactType → Option Bytes) (completedAt : String)
      (h : g.tasks[n]? = some (.fetching true fetch)) (hr : ∀ a, (fetch a).result (g.loader a) = some (.ok (artifact a))) :
    g.Step (.fetched n completedAt)
      { g.setTask n (.loaded artifact) with
        preloadStatus := { wasmLoaded := true, zkeyLoaded := true, completedAt := some completedAt } }
  | fetchFailed {n : Nat} {preload : Bool} {fetch : ArtifactType → Fetch} {a : ArtifactType} {e : SdkError}
      (h : g.tasks[n]? = some (.fetching preload fetch)) (hr : (fetch a).result (g.loader a) = some (.error e)) :
    g.Step (.fetchFailed n) (g.setTask n (.failed e))
  | proved {n : Nat} {artifact : ArtifactType → Option Bytes} (h : g.tasks[n]? = some (.proving artifact)) :
    g.Step (.proved n (.ok ())) (g.setTask n (if c.hasCache then .storing else .proved))
  | proveFailed {n : Nat} {artifact : ArtifactType → Option Bytes} (e : SdkError)
      (h : g.tasks[n]? = some (.proving artifact)) :
    g.Step (.proved n (.error e)) (g.setTask n (.failed e))
  | stored {n : Nat} (h : g.tasks[n]? = some .storing) : g.Step (.stored n (.ok ())) (g.setTask n .proved)
  | storeFailed {n : Nat} (e : SdkError) (h : g.tasks[n]? = some .storing) :
    g.Step (.stored n (.error e)) (g.setTask n (.failed e))
  | read {a : ArtifactType} {n : Nat} (result : Except SdkError Bytes)
      (h : (g.loader a).downloads[n]? = some .reading) :
    g.Step (.read a n result) (g.setLoader a ((g.loader a).read (c.artifact a) a n result))
  | hashed {a : ArtifactType} {n : Nat} {content : Bytes}
      (h : (g.loader a).downloads[n]? = some (.verifying content)) :
    g.Step (.hashed a n (.ok ())) (g.verified a n (verifyHash sha256 (c.artifact a) a content))
  | hashFailed {a : ArtifactType} {n : Nat} {content : Bytes} (e : SdkError)
      (h : (g.loader a).downloads[n]? = some (.verifying content)) :
    g.Step (.hashed a n (.error e)) (g.verified a n (.error (fetchError (c.artifact a) a e)))
  | finallyRun {a : ArtifactType} {n : Nat} {result : Except SdkError (Option Bytes)}
      (h : (g.loader a).downloads[n]? = some (.returned result)) :
    g.Step (.finallyRun a n) (g.setLoader a ((g.loader a).finallyRun n result))
  | clearArtifactCache : g.Step .clearArtifactCache g.clearArtifactCache

end Steps

end ZkPayroll.Crypto
