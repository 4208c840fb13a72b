import ZkPayroll.Crypto.SnarkjsProofGenerator
import ZkPayroll.Framework.Transition

/-!
# Which artifacts are used

An artifact is cached before its hash is verified, and stays in the cache when
the hash is wrong. Only genuine artifacts are handed to proofs and reported as
loaded (`only_genuine_used`) in the runs in which no fetch reads another one
from the cache, and no verified download finds another one there (`Vetted`); a
step that is not vetted hands it on (`genuine_step_iff`).
-/

namespace ZkPayroll.Crypto

open Framework ZkPayroll.Core

variable (sha256 : Bytes → List UInt8)
variable (c : ArtifactConfig)

/-- Bytes, if there are any, have the hash that is expected of them. -/
def Genuine (content : Option Bytes) : Prop :=
  ∀ expected, c.hash = some expected → ∀ bytes, content = some bytes →
    sha256Digest sha256 bytes = toLowerCase expected

theorem genuine_none : Genuine sha256 c none := nofun

theorem genuine_iff {c : ArtifactConfig} {expected : String} (h : c.hash = some expected) (bytes : Bytes) :
    Genuine sha256 c (some bytes) ↔ sha256Digest sha256 bytes = toLowerCase expected := by
  constructor
  · exact fun hg => hg expected h bytes rfl
  · intro hhash e he b hb
    rw [h] at he
    rw [← Option.some.inj he, ← Option.some.inj hb, hhash]

variable {a : ArtifactType}

theorem verifyHash_eq_ok_iff {c : ArtifactConfig} {content : Bytes} :
    verifyHash sha256 c a content = .ok () ↔ Genuine sha256 c (some content) := by
  unfold verifyHash
  cases hc : c.hash with
  | none => exact iff_of_true rfl fun _ he => by rw [hc] at he; cases he
  | some expected =>
    rw [genuine_iff sha256 hc]
    simp only [ne_eq, ite_not]
    split
    · exact iff_of_true rfl (by assumption)
    · exact iff_of_false nofun (by assumption)

/-! ## What is handed on -/

/-- What was fetched is what it is taken for. -/
def Fetch.Genuine : Fetch → Prop
  | .value content => Crypto.Genuine sha256 c (some content)
  | .download _ => True

/-- What the download has returned is genuine. -/
def Download.Genuine : Download → Prop
  | .returned (.ok content) | .settled (.ok content) => Crypto.Genuine sha256 c content
  | _ => True

variable (c : GeneratorConfig)

/-- What the task has of the artifacts is genuine. -/
def Task.Genuine : Task → Prop
  | .fetching _ fetch => ∀ a, (fetch a).Genuine sha256 (c.artifact a)
  | .proving artifact | .loaded artifact => ∀ a, Crypto.Genuine sha256 (c.artifact a) (artifact a)
  | _ => True

/-- All that is handed on is genuine. -/
structure Generator.Genuine (g : Generator) : Prop where
  tasks {t : Task} : t ∈ g.tasks → t.Genuine sha256 c
  downloads {a : ArtifactType} {d : Download} : d ∈ (g.loader a).downloads → d.Genuine sha256 (c.artifact a)

/-- Proofs are made from genuine artifacts, and only these are reported as
loaded. -/
def Generator.Trusted (g : Generator) : Prop :=
  ∀ t ∈ g.tasks, ∀ artifact, t = .proving artifact ∨ t = .loaded artifact →
    ∀ a, Crypto.Genuine sha256 (c.artifact a) (artifact a)

/-- Where a step reads the cache, there is nothing but a genuine artifact. -/
def Vetted (g : Generator) : GeneratorEvent → Prop
  | .computeProof => c.hasCache = false → ∀ a, Genuine sha256 (c.artifact a) (g.loader a).cache
  | .preload | .cacheRead _ (.ok false) => ∀ a, Genuine sha256 (c.artifact a) (g.loader a).cache
  | .hashed a id (.ok _) => ∀ content, (g.loader a).downloads[id]? = some (.verifying content) →
      Genuine sha256 (c.artifact a) (some content) → Genuine sha256 (c.artifact a) (g.loader a).cache
  | _ => True

/-! ## Steps -/

variable {sha256 c} {g g' : Generator}

theorem Generator.Genuine.trusted (h : g.Genuine sha256 c) : g.Trusted sha256 c := by
  intro t ht artifact hcase
  have hg := h.tasks ht
  rcases hcase with rfl | rfl
  · exact hg
  · exact hg

theorem fetch_genuine_iff (l : Loader) (a : ArtifactConfig) :
    l.fetch.1.Genuine sha256 a ↔ Crypto.Genuine sha256 a l.cache := by
  unfold Loader.fetch
  split
  · rename_i content _ hc
    rw [hc]
    rfl
  · rename_i hc _
    rw [hc]
    exact iff_of_true trivial (genuine_none sha256 a)
  · rename_i hc _
    rw [hc]
    exact iff_of_true trivial (genuine_none sha256 a)

theorem mem_downloads_fetch {l : Loader} {d : Download} (h : d ∈ l.fetch.2.downloads) :
    d ∈ l.downloads ∨ d = .reading := by
  unfold Loader.fetch at h
  split at h
  · exact .inl h
  · exact .inl h
  · exact (List.mem_append.mp h).imp_right List.mem_singleton.mp

variable {status : PreloadStatus}

/-- A task is added or replaced, and downloads are started at most. -/
theorem Generator.Genuine.withTask (h : g.Genuine sha256 c) {tasks : List Task} {loader : ArtifactType → Loader}
    {t : Task} (ht : t.Genuine sha256 c) (hmem : ∀ u ∈ tasks, u ∈ g.tasks ∨ u = t)
    (hloader : ∀ a, ∀ d ∈ (loader a).downloads, d ∈ (g.loader a).downloads ∨ d = .reading) :
    Generator.Genuine sha256 c { loader := loader, preloadStatus := status, tasks := tasks } where
  tasks hu := (hmem _ hu).elim h.tasks fun he => he ▸ ht
  downloads hd := (hloader _ _ hd).elim h.downloads fun he => he ▸ trivial

/-- A download goes on, and its loader caches or forgets. -/
theorem Generator.Genuine.withDownload (h : g.Genuine sha256 c) {id : Nat} {d : Download}
    (hd : d.Genuine sha256 (c.artifact a)) {l : Loader} (hl : l.downloads = (g.loader a).downloads.set id d)
    (status : PreloadStatus) : Generator.Genuine sha256 c { g.setLoader a l with preloadStatus := status } where
  tasks := h.tasks
  downloads {b e} he := by
    simp only [setLoader, Function.update_apply] at he
    split at he
    · rename_i hb
      subst hb
      rw [hl] at he
      rcases List.mem_or_eq_of_mem_set he with he | rfl
      · exact h.downloads he
      · exact hd
    · exact h.downloads he

theorem mem_setTask {n : Nat} {t u : Task} (h : u ∈ (g.setTask n t).tasks) : u ∈ g.tasks ∨ u = t :=
  List.mem_or_eq_of_mem_set h

theorem mem_setTask_self {n : Nat} {t t' : Task} (h : g.tasks[n]? = some t) : t' ∈ (g.setTask n t').tasks :=
  List.mem_set (List.getElem?_eq_some_iff.mp h).1 t'

/-- A task that has nothing of an artifact. -/
theorem Generator.Genuine.setTask (h : g.Genuine sha256 c) (n : Nat) {t : Task} (ht : t.Genuine sha256 c) :
    (g.setTask n t).Genuine sha256 c :=
  h.withTask ht (fun _ => mem_setTask) fun _ _ => .inl

theorem result_genuine (h : g.Genuine sha256 c) {t : Task} (ht : t ∈ g.tasks) {preload : Bool}
    {fetch : ArtifactType → Fetch} (hf : t = .fetching preload fetch) {content : Option Bytes}
    (hr : (fetch a).result (g.loader a) = some (.ok content)) : Crypto.Genuine sha256 (c.artifact a) content := by
  have hfetch : (fetch a).Genuine sha256 (c.artifact a) := by
    have := h.tasks ht
    rw [hf] at this
    exact this a
  cases hfa : fetch a with
  | value bytes =>
    rw [hfa] at hr hfetch
    cases hr
    exact hfetch
  | download id =>
    rw [hfa] at hr
    simp only [Fetch.result] at hr
    split at hr
    · rename_i result hd
      obtain rfl := Option.some.inj hr
      exact h.downloads (List.mem_of_getElem? hd)
    · cases hr

/-- A task that starts to fetch hands on what the caches have. -/
theorem fetchAll_genuine_iff (h : g.Genuine sha256 c) (preload : Bool) {tasks : List Task}
    (hmem : .fetching preload g.fetchAll.1 ∈ tasks)
    (hsub : ∀ u ∈ tasks, u ∈ g.tasks ∨ u = .fetching preload g.fetchAll.1) :
    Generator.Genuine sha256 c { loader := g.fetchAll.2.loader, preloadStatus := status, tasks := tasks } ↔
      ∀ a, Crypto.Genuine sha256 (c.artifact a) (g.loader a).cache := by
  have hfetch : (∀ a, (g.fetchAll.1 a).Genuine sha256 (c.artifact a)) ↔
      ∀ a, Crypto.Genuine sha256 (c.artifact a) (g.loader a).cache := forall_congr' fun a => fetch_genuine_iff _ _
  rw [← hfetch]
  constructor
  · intro hg
    exact hg.tasks (t := .fetching preload g.fetchAll.1) hmem
  · intro hv
    exact h.withTask (t := .fetching preload g.fetchAll.1) hv hsub fun a d => mem_downloads_fetch

/-- A download whose hash is right hands on what its cache has by then. -/
theorem hashed_genuine_iff (h : g.Genuine sha256 c) {id : Nat} {content : Bytes}
    (hd : (g.loader a).downloads[id]? = some (.verifying content))
    (hv : Crypto.Genuine sha256 (c.artifact a) (some content)) {l : Loader}
    (hl : l.downloads = (g.loader a).downloads.set id (.returned (.ok (g.loader a).cache))) :
    Generator.Genuine sha256 c { g.setLoader a l with preloadStatus := status } ↔
      Vetted sha256 c g (.hashed a id (.ok ())) := by
  constructor
  · intro hg content' hd' _
    have hmem : .returned (.ok (g.loader a).cache) ∈ l.downloads := by
      rw [hl]
      exact List.mem_set (List.getElem?_eq_some_iff.mp hd).1 _
    exact hg.downloads (a := a) (by simpa [Generator.setLoader] using hmem)
  · intro hvet
    exact h.withDownload (d := .returned (.ok (g.loader a).cache)) (hvet content hd hv) hl _

/-- A step is vetted exactly when it hands on nothing but genuine artifacts. -/
theorem genuine_step_iff (h : g.Genuine sha256 c) {e : GeneratorEvent} (hs : g.Step sha256 c e g') :
    g'.Genuine sha256 c ↔ Vetted sha256 c g e := by
  cases hs with
  | computeProof hc =>
    refine iff_of_true ?_ fun hno => absurd hc (by rw [hno]; decide)
    exact h.withTask (t := .readingCache) trivial (fun u hu => (List.mem_append.mp hu).imp_right List.mem_singleton.mp)
      fun _ _ => .inl
  | computeProofUncached hc =>
    have hvetted : Vetted sha256 c g .computeProof ↔
        ∀ a, Crypto.Genuine sha256 (c.artifact a) (g.loader a).cache := forall_prop_of_true hc
    rw [hvetted]
    refine fetchAll_genuine_iff h false (by simp) fun u hu => ?_
    exact (List.mem_append.mp hu).imp_right List.mem_singleton.mp
  | cacheHit _ => exact iff_of_true (h.setTask _ trivial) trivial
  | cacheMiss hn => exact fetchAll_genuine_iff h false (mem_setTask_self hn) fun _ => mem_setTask
  | cacheFailed _ _ => exact iff_of_true (h.setTask _ trivial) trivial
  | preload =>
    refine fetchAll_genuine_iff h true (by simp) fun u hu => ?_
    exact (List.mem_append.mp hu).imp_right List.mem_singleton.mp
  | fetched _ _ hn hr =>
    exact iff_of_true (h.setTask _ fun a => result_genuine h (List.mem_of_getElem? hn) rfl (hr a)) trivial
  | preloaded _ _ hn hr =>
    refine iff_of_true ?_ trivial
    exact h.withTask (t := .loaded _) (fun a => result_genuine h (List.mem_of_getElem? hn) rfl (hr a))
      (fun _ => mem_setTask) fun _ _ => .inl
  | fetchFailed _ _ => exact iff_of_true (h.setTask _ trivial) trivial
  | proved _ =>
    refine iff_of_true (h.setTask _ ?_) trivial
    split <;> trivial
  | proveFailed _ _ => exact iff_of_true (h.setTask _ trivial) trivial
  | stored _ => exact iff_of_true (h.setTask _ trivial) trivial
  | storeFailed _ _ => exact iff_of_true (h.setTask _ trivial) trivial
  | @read a id result hd =>
    refine iff_of_true ?_ trivial
    cases result with
    | ok content => exact h.withDownload (d := .verifying content) trivial rfl g.preloadStatus
    | error e => exact h.withDownload (d := .returned (.error _)) trivial rfl g.preloadStatus
  | @hashed a id content hd =>
    cases hv : verifyHash sha256 (c.artifact a) a content with
    | ok _ => exact hashed_genuine_iff h hd ((verifyHash_eq_ok_iff sha256).mp hv) rfl
    | error e =>
      have hnot : ¬Crypto.Genuine sha256 (c.artifact a) (some content) := by
        rw [← verifyHash_eq_ok_iff sha256 (a := a), hv]
        nofun
      refine iff_of_true (h.withDownload (d := .returned (.error e)) trivial rfl g.preloadStatus) ?_
      intro content' hd' hgenuine
      rw [hd] at hd'
      cases hd'
      exact absurd hgenuine hnot
  | @hashFailed a id content e hd =>
    exact iff_of_true (h.withDownload (d := .returned (.error _)) trivial rfl g.preloadStatus) trivial
  | @finallyRun a id result hd =>
    refine iff_of_true (h.withDownload (d := .settled result) ?_ rfl g.preloadStatus) trivial
    have hreturned := h.downloads (List.mem_of_getElem? hd)
    cases result with
    | ok content => exact hreturned
    | error e => trivial
  | clearArtifactCache => exact iff_of_true ⟨h.tasks, h.downloads⟩ trivial

/-! ## Runs -/

/-- A new generator. -/
def NewGenerator (g : Generator) : Prop := (∀ a, g.loader a = {}) ∧ g.tasks = []

/-- The states that runs reach whose steps all meet the condition `ok`. -/
abbrev ReachableGenerator (sha256 : Bytes → List UInt8) (c : GeneratorConfig)
    (ok : Generator → GeneratorEvent → Prop) (g : Generator) : Prop :=
  Reachable NewGenerator (fun g g' => ∃ e, ok g e ∧ g.Step sha256 c e g') g

theorem ReachableGenerator.next {ok : Generator → GeneratorEvent → Prop} (h : ReachableGenerator sha256 c ok g)
    {e : GeneratorEvent} (hs : g.Step sha256 c e g') (he : ok g e) : ReachableGenerator sha256 c ok g' :=
  Reachable.next h ⟨e, he, hs⟩

theorem genuine_of_reachable (h : ReachableGenerator sha256 c (Vetted sha256 c) g) : g.Genuine sha256 c := by
  refine Reachable.invariant (I := Generator.Genuine sha256 c) (fun g hg => ?_) (fun g g' hinv hs => ?_) h
  · exact ⟨fun ht => by simp [hg.2] at ht, fun hd => by simp [hg.1] at hd⟩
  · obtain ⟨e, hv, hs⟩ := hs
    exact (genuine_step_iff hinv hs).mpr hv

/-- In a run whose steps are vetted, proofs are made from genuine artifacts, and
only these are reported as loaded. -/
theorem only_genuine_used (h : ReachableGenerator sha256 c (Vetted sha256 c) g) : g.Trusted sha256 c :=
  (genuine_of_reachable h).trusted

/-- SHA-256 as it is on three artifacts. -/
def artifactSha256 (data : Bytes) : List UInt8 :=
  (List.lookup data
    [([0], digest "6e340b9cffb37a989ca544e6bb780a2c78901d3fb33738768511a30617afa01d"),
      ([1], digest "4bf5122f344554c53bde2ebb8cd2b7e3d1600ad631c385a5d7cce23c7785459a"),
      ([2], digest "dbc1b4c900ffe48d575b5da5c638040125f65db0fe3e24494b76ea986457d986")]).getD data

/-- The artifacts of one byte, 0 and 1, are expected. -/
def pinnedConfig : GeneratorConfig where
  artifact
    | .wasm => { url := "payroll.wasm"
                 expectedHash := some "6E340B9CFFB37A989CA544E6BB780A2C78901D3FB33738768511A30617AFA01D" }
    | .zkey => { url := "payroll.zkey"
                 expectedHash := some "4bf5122f344554c53bde2ebb8cd2b7e3d1600ad631c385a5d7cce23c7785459a" }
  hasCache := false

def newGenerator : Generator where
  loader _ := {}
  preloadStatus := { wasmLoaded := false, zkeyLoaded := false, completedAt := none }
  tasks := []

def pair (wasm zkey : Bytes) : ArtifactType → Option Bytes
  | .wasm => some wasm
  | .zkey => some zkey

theorem verify_wasm : verifyHash artifactSha256 (pinnedConfig.artifact .wasm) .wasm [0] = .ok () :=
  (verifyHash_eq_ok_iff _).mpr ((genuine_iff _ rfl _).mpr (by decide +kernel))

theorem verify_zkey : verifyHash artifactSha256 (pinnedConfig.artifact .zkey) .zkey [1] = .ok () :=
  (verifyHash_eq_ok_iff _).mpr ((genuine_iff _ rfl _).mpr (by decide +kernel))

theorem wasm_not_genuine : ¬Genuine artifactSha256 (pinnedConfig.artifact .wasm) (some [2]) := by
  rw [genuine_iff _ rfl]
  decide +kernel

/-- Both artifacts are loaded, and a proof is made from them. -/
theorem pinned_used :
    ∃ g : Generator, Task.proving (pair [0] [1]) ∈ g.tasks ∧ g.Trusted artifactSha256 pinnedConfig := by
  have h₀ : ReachableGenerator artifactSha256 pinnedConfig (Vetted artifactSha256 pinnedConfig) newGenerator :=
    Reachable.start ⟨fun _ => rfl, rfl⟩
  have h₁ := h₀.next .preload fun a => genuine_none _ _
  have h₂ := h₁.next (.read (a := .wasm) (n := 0) (.ok [0]) rfl) trivial
  have h₃ := h₂.next (.hashed (a := .wasm) (n := 0) rfl) fun _ _ _ => (verifyHash_eq_ok_iff _).mp verify_wasm
  rw [verify_wasm] at h₃
  have h₄ := h₃.next (.finallyRun (a := .wasm) (n := 0) rfl) trivial
  have h₅ := h₄.next (.read (a := .zkey) (n := 0) (.ok [1]) rfl) trivial
  have h₆ := h₅.next (.hashed (a := .zkey) (n := 0) rfl) fun _ _ _ => (verifyHash_eq_ok_iff _).mp verify_zkey
  rw [verify_zkey] at h₆
  have h₇ := h₆.next (.finallyRun (a := .zkey) (n := 0) rfl) trivial
  have h₈ := h₇.next (.computeProofUncached rfl) fun _ a => by
    cases a
    · exact (verifyHash_eq_ok_iff _).mp verify_wasm
    · exact (verifyHash_eq_ok_iff _).mp verify_zkey
  have h₉ := h₈.next (.fetched (n := 1) (pair [0] [1]) "" rfl (by intro a; cases a <;> rfl)) trivial
  exact ⟨_, List.mem_cons_of_mem _ List.mem_cons_self, only_genuine_used h₉⟩

/-- A preload fails because the hash is wrong; the artifact is used all the
same. -/
theorem mismatch_used :
    ∃ g, ReachableGenerator artifactSha256 pinnedConfig (fun _ _ => True) g ∧
      ¬g.Trusted artifactSha256 pinnedConfig := by
  obtain ⟨e, he⟩ : ∃ e, verifyHash artifactSha256 (pinnedConfig.artifact .wasm) .wasm [2] = .error e := by
    cases hv : verifyHash artifactSha256 (pinnedConfig.artifact .wasm) .wasm [2] with
    | ok _ => exact absurd ((verifyHash_eq_ok_iff _).mp hv) wasm_not_genuine
    | error e => exact ⟨e, rfl⟩
  have h₀ : ReachableGenerator artifactSha256 pinnedConfig (fun _ _ => True) newGenerator :=
    Reachable.start ⟨fun _ => rfl, rfl⟩
  have h₁ := h₀.next .preload trivial
  have h₂ := h₁.next (.read (a := .wasm) (n := 0) (.ok [2]) rfl) trivial
  have h₃ := h₂.next (.hashed (a := .wasm) (n := 0) rfl) trivial
  rw [he] at h₃
  have h₄ := h₃.next (.finallyRun (a := .wasm) (n := 0) rfl) trivial
  have h₅ := h₄.next (.read (a := .zkey) (n := 0) (.ok [1]) rfl) trivial
  have h₆ := h₅.next (.hashed (a := .zkey) (n := 0) rfl) trivial
  rw [verify_zkey] at h₆
  have h₇ := h₆.next (.finallyRun (a := .zkey) (n := 0) rfl) trivial
  have h₈ := h₇.next (.computeProofUncached rfl) trivial
  have h₉ := h₈.next (.fetched (n := 1) (pair [2] [1]) "" rfl (by intro a; cases a <;> rfl)) trivial
  refine ⟨_, h₉, fun h => wasm_not_genuine ?_⟩
  exact h _ (List.mem_cons_of_mem _ List.mem_cons_self) _ (.inl rfl) .wasm

end ZkPayroll.Crypto
