import ZkPayroll.Framework.Expiring
import ZkPayroll.Framework.JsArithmetic

/-!
# When a key is visible

`cache/freshness.ts`, with the tests of the expiry that the providers write out
each time.

Calls of a provider and the time at which they are made. A key is to be visible
from its latest set until its time to live is over (`Visible`), that is until the
`expiresAt` that is stored: the numbers are exact, and do not show that
`storedAt + ttlSeconds * 1000` is rounded twice. Of a provider
whose `get` and `getWithMetadata` drop entries as `Framework.Expiring` says,
`seen_iff` says when both see just the keys that are visible (`Kept`): the time
to live is not zero, no visible value is `null`, and at the very end `get` has
nothing to return, since `null` was stored or `getWithMetadata` was first.
-/

namespace ZkPayroll.Cache

open Framework

section

variable {V R ν : Type}

structure CacheMetadataOptions (ν : Type) where
  ttlSeconds : Option (JsNumber ν) := none
  revision : Option String := none

structure CacheFreshnessMetadata (R ν : Type) where
  storedAt : ν
  /-- `none` is `null`: the value does not expire. -/
  expiresAt : Option (JsNumber ν)
  ageMs : ν
  stale : Bool
  revision : Option R

structure CacheReadResult (V R ν : Type) where
  value : V
  metadata : CacheFreshnessMetadata R ν

variable [CommRing ν] [LinearOrder ν]

/-- `expiresAt !== null && now > expiresAt`. -/
def isPast (expiresAt : Option (JsNumber ν)) (now : ν) : Bool := expiresAt.any fun e => e.lt (.finite now)

/-- `expiresAt !== null && now >= expiresAt`. -/
def isReached (expiresAt : Option (JsNumber ν)) (now : ν) : Bool := expiresAt.any fun e => e.le (.finite now)

def createCacheReadResult (value : V) (storedAt : ν) (expiresAt : Option (JsNumber ν)) (revision : Option R)
    (now : ν) : CacheReadResult V R ν where
  value := value
  metadata := {
    storedAt := storedAt
    expiresAt := expiresAt
    ageMs := max 0 (now - storedAt)
    stale := isReached expiresAt now
    revision := revision }

/-- `options.ttlSeconds ? storedAt + options.ttlSeconds * 1000 : null`. -/
def expiresAt (options : CacheMetadataOptions ν) (storedAt : ν) : Option (JsNumber ν) :=
  match options.ttlSeconds with
  | none => none
  | some ttl => if ttl = .finite 0 ∨ ttl.isNaN then none else some (.add (.finite storedAt) (ttl.scale (1000 : Nat)))

variable {expiresAt : Option (JsNumber ν)}

omit [CommRing ν] in
theorem isReached_of_isPast {now : ν} (h : isPast expiresAt now = true) :
    isReached expiresAt now = true := by
  cases expiresAt with
  | none => cases h
  | some e =>
    have hlt : e.lt (.finite now) = true := h
    rw [JsNumber.lt, Bool.and_eq_true] at hlt
    exact hlt.1

omit [CommRing ν] in
theorem isReached_mono {now later : ν} (hle : now ≤ later)
    (h : isReached expiresAt now = true) : isReached expiresAt later = true := by
  cases expiresAt with
  | none => cases h
  | some e =>
    have hbefore : e.le (.finite now) = true := h
    have hafter : JsNumber.le (.finite now) (.finite later) = true := decide_eq_true hle
    exact JsNumber.le_trans hbefore hafter

omit [CommRing ν] in
theorem isPast_mono {now later : ν} (hle : now ≤ later)
    (h : isPast expiresAt now = true) : isPast expiresAt later = true := by
  have hreached := isReached_mono hle (isReached_of_isPast h)
  cases expiresAt with
  | none => cases h
  | some e =>
    have hbefore : e.lt (.finite now) = true := h
    rw [JsNumber.lt, Bool.and_eq_true, Bool.not_eq_true'] at hbefore
    have hlate : JsNumber.le (.finite later) e = false := by
      by_contra hlate
      have hlater : JsNumber.le (.finite now) (.finite later) = true := decide_eq_true hle
      have hnow : JsNumber.le (.finite now) e = true := JsNumber.le_trans hlater (Bool.not_eq_false _ ▸ hlate)
      rw [hbefore.2] at hnow
      cases hnow
    show e.lt (.finite later) = true
    rw [JsNumber.lt, Bool.and_eq_true, Bool.not_eq_true']
    exact ⟨hreached, hlate⟩

end

section

variable {V ν : Type}

/-- A call of a provider. -/
inductive Call (V ν : Type) where
  | set (key : String) (value : V) (ttlSeconds : Option (JsNumber ν))
  | setWithMetadata (key : String) (value : V) (options : CacheMetadataOptions ν)
  | get (key : String)
  | has (key : String)
  | getWithMetadata (key : String)

/-- A call and the reading of the clock, or the time that `getWithMetadata` is given. -/
structure TimedCall (V ν : Type) where
  now : ν
  call : Call V ν

/-- What a call sets. -/
structure Setting (V ν : Type) where
  value : V
  options : CacheMetadataOptions ν
  now : ν

/-- The call on the store of settings. -/
def TimedCall.operation (c : TimedCall V ν) : ν × Operation String (Setting V ν) :=
  match c.call with
  | .set key value ttlSeconds => (c.now, .put key ⟨value, { ttlSeconds := ttlSeconds }, c.now⟩)
  | .setWithMetadata key value options => (c.now, .put key ⟨value, options, c.now⟩)
  | .get key | .has key => (c.now, .get key)
  | .getWithMetadata key => (c.now, .peek key)

/-- The time to live that a call gives. -/
def Call.ttlSeconds : Call V ν → Option (JsNumber ν)
  | .set _ _ ttlSeconds => ttlSeconds
  | .setWithMetadata _ _ options => options.ttlSeconds
  | _ => none

variable [CommRing ν] [LinearOrder ν]

/-- The calls of a provider, the last one first, while the clock did not go
back, and a later time. -/
structure Run (V ν : Type) [CommRing ν] [LinearOrder ν] where
  calls : List (TimedCall V ν)
  ordered : calls.Pairwise fun later earlier => earlier.now ≤ later.now
  ttl : ∀ c ∈ calls, ∀ ttl, c.call.ttlSeconds = some ttl → JsNumber.le (.finite 0) ttl = true
  now : ν
  later : ∀ c ∈ calls, c.now ≤ now

variable (s : Setting V ν)

def Setting.expiresAt : Option (JsNumber ν) := Cache.expiresAt s.options s.now

/-- An entry is past its expiry for `get`, and at it for `getWithMetadata`. -/
def expiry : Expiry (Setting V ν) ν where
  passed s now := isPast s.expiresAt now
  reached s now := isReached s.expiresAt now
  passed_mono := isPast_mono
  reached_mono := isReached_mono
  reached_of_passed := isReached_of_isPast

namespace Run

/-- The calls of the run, on the store of settings. -/
def history (r : Run V ν) : List (ν × Operation String (Setting V ν)) := r.calls.map (·.operation)

/-- The latest set of a key. -/
def latestSet (r : Run V ν) (key : String) : Option (Setting V ν) := latest key r.history

/-- When `getWithMetadata` read a key since its latest set. -/
def metadataReads (r : Run V ν) (key : String) : List ν := peeks key r.history

end Run

/-- The end of what is set to live for `ttl` seconds. -/
def Setting.endAfter (ttl : JsNumber ν) : JsNumber ν := .add (.finite s.now) (ttl.scale (1000 : Nat))

/-- What is set is not over yet, if it is ever. -/
def Setting.Lasts (now : ν) : Prop :=
  ∀ ttl, s.options.ttlSeconds = some ttl → JsNumber.lt (.finite now) (s.endAfter ttl) = true

/-- It is over just now. -/
def Setting.EndsAt (now : ν) : Prop :=
  ∃ ttl, s.options.ttlSeconds = some ttl ∧ s.endAfter ttl = .finite now

/-- A key is visible from its latest set until its time to live is over. -/
def Run.Visible (r : Run V ν) (key : String) : Prop := ∃ s, r.latestSet key = some s ∧ s.Lasts r.now

/-- Of the latest set of a key, when both reads see it just as long as it lasts. -/
structure Run.Kept (null : V) (r : Run V ν) (key : String) (s : Setting V ν) : Prop where
  ttl : s.options.ttlSeconds ≠ some (.finite 0)
  value : s.Lasts r.now → s.value ≠ null
  atEnd : s.EndsAt r.now → s.value = null ∨ r.now ∈ r.metadataReads key

/-! ## One set -/

variable {s : Setting V ν} {ttl : JsNumber ν}

theorem Setting.expiresAt_of_pos (h : s.options.ttlSeconds = some ttl)
    (hzero : ttl ≠ .finite 0) (hnan : ttl.isNaN = false) : s.expiresAt = some (s.endAfter ttl) := by
  have hne : ¬(ttl = .finite 0 ∨ ttl.isNaN = true) := by
    rw [hnan]
    simpa using hzero
  rw [expiresAt, Cache.expiresAt, h]
  exact if_neg hne

omit [LinearOrder ν] in
theorem Setting.isNaN_endAfter (hnan : ttl.isNaN = false) : (s.endAfter ttl).isNaN = false := by
  cases ttl with
  | nan => cases hnan
  | _ => rfl

variable {now : ν}

theorem Setting.lasts_iff (h : s.options.ttlSeconds = some ttl) :
    s.Lasts now ↔ JsNumber.lt (.finite now) (s.endAfter ttl) = true := by
  constructor
  · intro hlasts
    exact hlasts ttl h
  · intro hlt ttl' h'
    rw [h] at h'
    cases h'
    exact hlt

omit [LinearOrder ν] in
theorem Setting.endsAt_iff (h : s.options.ttlSeconds = some ttl) :
    s.EndsAt now ↔ s.endAfter ttl = .finite now := by
  rw [EndsAt, h]
  simp

theorem Setting.lasts_of_no_ttl (h : s.options.ttlSeconds = none) (now : ν) : s.Lasts now := by
  intro ttl httl
  rw [h] at httl
  cases httl

/-- A time to live of zero is over from the beginning. -/
theorem Setting.not_lasts_of_zero (h : s.options.ttlSeconds = some (.finite 0))
    (hset : s.now ≤ now) : ¬s.Lasts now := by
  rw [lasts_iff h, endAfter, JsNumber.scale, JsNumber.add, zero_mul, add_zero, JsNumber.lt]
  simp [JsNumber.le, hset]

section Positive

variable {s : Setting V ν} {ttl : JsNumber ν} {now : ν}

section

variable (h : s.options.ttlSeconds = some ttl) (hzero : ttl ≠ .finite 0) (hnan : ttl.isNaN = false)
include h hzero hnan

theorem Setting.isReached_expiresAt : isReached s.expiresAt now = JsNumber.le (s.endAfter ttl) (.finite now) := by
  rw [expiresAt_of_pos h hzero hnan]
  rfl

theorem Setting.isPast_expiresAt : isPast s.expiresAt now = JsNumber.lt (s.endAfter ttl) (.finite now) := by
  rw [expiresAt_of_pos h hzero hnan]
  rfl

theorem Setting.lasts_iff_not_reached : s.Lasts now ↔ isReached s.expiresAt now = false := by
  rw [lasts_iff h, isReached_expiresAt h hzero hnan, JsNumber.lt_eq_not_le rfl (isNaN_endAfter hnan), Bool.not_eq_true']

theorem Setting.endsAt_iff_reached :
    s.EndsAt now ↔ isReached s.expiresAt now = true ∧ isPast s.expiresAt now = false := by
  rw [endsAt_iff h, isReached_expiresAt h hzero hnan, isPast_expiresAt h hzero hnan]
  constructor
  · intro hend
    rw [hend, JsNumber.lt_self]
    exact ⟨JsNumber.le_refl rfl, rfl⟩
  · intro ⟨hle, hlt⟩
    rw [JsNumber.lt, hle, Bool.true_and, Bool.not_eq_false'] at hlt
    exact JsNumber.le_antisymm hle hlt

/-- At the very end a read with metadata is the only one that drops the entry. -/
theorem Setting.kept_at_end {reads : List ν}
    (hreads : ∀ t ∈ reads, t ≤ now) (hend : s.endAfter ttl = .finite now) :
    (∀ t ∈ reads, isReached s.expiresAt t = false) ↔ now ∉ reads := by
  constructor
  · intro hkept hmem
    have hnow := hkept now hmem
    rw [isReached_expiresAt h hzero hnan, hend, JsNumber.le_refl rfl] at hnow
    cases hnow
  · intro hmem t ht
    have hne : t ≠ now := fun heq => hmem (heq ▸ ht)
    have hlt : t < now := lt_of_le_of_ne (hreads t ht) hne
    rw [isReached_expiresAt h hzero hnan, hend]
    exact decide_eq_false (not_le_of_gt hlt)

end

end Positive

omit [CommRing ν] in
/-- What is not over now was never over before. -/
theorem not_reached_before {expiresAt : Option (JsNumber ν)} {now t : ν} (ht : t ≤ now)
    (h : isReached expiresAt now = false) : isReached expiresAt t = false := by
  by_contra hbefore
  rw [isReached_mono ht (Bool.not_eq_false _ ▸ hbefore)] at h
  cases h

/-- What both reads see of the latest set of a key, and how long it lasts. -/
theorem Setting.seen_iff (null : V) {reads : List ν}
    (hnan : ∀ ttl, s.options.ttlSeconds = some ttl → JsNumber.le (.finite 0) ttl = true) (hset : s.now ≤ now)
    (hreads : ∀ t ∈ reads, t ≤ now) :
    (((isPast s.expiresAt now = false ∧ (∀ t ∈ reads, isReached s.expiresAt t = false) ∧ s.value ≠ null) ↔
        s.Lasts now) ∧ (isReached s.expiresAt now = false ↔ s.Lasts now)) ↔
      s.options.ttlSeconds ≠ some (.finite 0) ∧ (s.Lasts now → s.value ≠ null) ∧
        (s.EndsAt now → s.value = null ∨ now ∈ reads) := by
  cases httl : s.options.ttlSeconds with
  | none =>
    have hexpires : s.expiresAt = none := by
      rw [expiresAt, Cache.expiresAt, httl]
    have hends : ¬s.EndsAt now := by
      intro ⟨ttl, h, _⟩
      rw [httl] at h
      cases h
    rw [hexpires]
    simp [lasts_of_no_ttl httl, hends, isPast, isReached]
  | some ttl =>
    by_cases hzero : ttl = .finite 0
    · subst hzero
      have hexpires : s.expiresAt = none := by
        rw [expiresAt, Cache.expiresAt, httl]
        simp
      rw [hexpires]
      simp [not_lasts_of_zero httl hset, isReached]
    · have hnan : ttl.isNaN = false := (JsNumber.not_isNaN_of_le (hnan ttl httl)).2
      have hpositive : some ttl ≠ some (JsNumber.finite 0) := fun h => hzero (Option.some.inj h)
      have hends : s.EndsAt now ↔ _ := endsAt_iff_reached httl hzero hnan
      rw [lasts_iff_not_reached httl hzero hnan, hends]
      by_cases hR : isReached s.expiresAt now = true
      · by_cases hP : isPast s.expiresAt now = true
        · simp [hR, hP, hpositive]
        · have hend : s.endAfter ttl = .finite now := (endsAt_iff httl).mp (hends.mpr ⟨hR, Bool.not_eq_true _ ▸ hP⟩)
          rw [kept_at_end httl hzero hnan hreads hend]
          simp [hR, hP, hpositive]
          tauto
      · have hP : isPast s.expiresAt now = false := by
          by_contra hP
          exact hR (isReached_of_isPast (Bool.not_eq_false _ ▸ hP))
        simp only [Bool.not_eq_true] at hR
        have hkept : ∀ t ∈ reads, isReached s.expiresAt t = false := fun t ht => not_reached_before (hreads t ht) hR
        simp only [hR, hP, true_and, and_true, iff_true, ne_eq, hpositive, not_false_eq_true, true_implies,
          Bool.false_eq_true, false_implies]
        exact ⟨fun h => h.2, fun h => ⟨hkept, h⟩⟩

/-! ## Runs -/

omit [CommRing ν] [LinearOrder ν] in
theorem TimedCall.of_operation_put {c : TimedCall V ν} {key : String}
    (h : c.operation.2 = .put key s) : s.now = c.now ∧ s.options.ttlSeconds = c.call.ttlSeconds := by
  obtain ⟨now, call⟩ := c
  cases call with
  | set k value ttlSeconds =>
    cases h
    exact ⟨rfl, rfl⟩
  | setWithMetadata k value options =>
    cases h
    exact ⟨rfl, rfl⟩
  | _ => cases h

omit [CommRing ν] [LinearOrder ν] in
theorem TimedCall.operation_fst (c : TimedCall V ν) : c.operation.1 = c.now := by
  obtain ⟨now, call⟩ := c
  cases call <;> rfl

namespace Run

theorem le_now {r : Run V ν} {step : ν × Operation String (Setting V ν)} (h : step ∈ r.history) :
    step.1 ≤ r.now := by
  obtain ⟨c, hc, rfl⟩ := List.mem_map.mp h
  rw [c.operation_fst]
  exact r.later c hc

theorem latestSet_spec {r : Run V ν} {key : String} {s : Setting V ν} (h : r.latestSet key = some s) :
    s.now ≤ r.now ∧ ∀ ttl, s.options.ttlSeconds = some ttl → JsNumber.le (.finite 0) ttl = true := by
  obtain ⟨step, hstep, hput⟩ := mem_of_latest h
  obtain ⟨c, hc, rfl⟩ := List.mem_map.mp hstep
  obtain ⟨hnow, hoptions⟩ := TimedCall.of_operation_put hput
  rw [hnow, hoptions]
  exact ⟨r.later c hc, r.ttl c hc⟩

theorem metadataReads_le {r : Run V ν} {key : String} {t : ν} (h : t ∈ r.metadataReads key) : t ≤ r.now := by
  obtain ⟨step, hstep, rfl⟩ := mem_of_mem_peeks h
  exact le_now hstep

/-- What `get`, `has` and `getWithMetadata` tell of a key is whether it is visible. -/
structure Seen (r : Run V ν) (key : String) (got has read : Prop) : Prop where
  got : got ↔ r.Visible key
  has : has ↔ r.Visible key
  read : read ↔ r.Visible key

/-- Every read of a key sees it just while it is visible, if the latest set is so. -/
theorem seen_iff (null : V) (r : Run V ν) (key : String) {got has read : Prop}
    (hgot : got ↔ ∃ s, holding expiry r.history key = some s ∧ isPast s.expiresAt r.now = false ∧ s.value ≠ null)
    (hhas : has ↔ got)
    (hread : read ↔ ∃ s, holding expiry r.history key = some s ∧ isReached s.expiresAt r.now = false) :
    Seen r key got has read ↔ ∀ s, r.latestSet key = some s → r.Kept null key s := by
  have hsteps : ∀ step ∈ r.history, step.1 ≤ r.now := fun step h => le_now h
  replace hgot := hgot.trans (exists_get_iff (x := expiry) hsteps (P := fun s => s.value ≠ null))
  replace hread := hread.trans (exists_peek_iff (x := expiry) hsteps)
  have hparts : Seen r key got has read ↔ (got ↔ r.Visible key) ∧ (read ↔ r.Visible key) :=
    ⟨fun h => ⟨h.got, h.read⟩, fun h => ⟨h.1, hhas.trans h.1, h.2⟩⟩
  rw [hparts, hgot, hread, Visible, latestSet]
  cases hlatest : latest key r.history with
  | none => simp
  | some s =>
    obtain ⟨hset, hnan⟩ := latestSet_spec hlatest
    have hseen := Setting.seen_iff null hnan hset fun t (ht : t ∈ r.metadataReads key) => metadataReads_le ht
    have hkept : (∀ s', some s = some s' → r.Kept null key s') ↔ r.Kept null key s :=
      ⟨fun h => h s rfl, fun h s' hs => Option.some.inj hs ▸ h⟩
    have hfields : r.Kept null key s ↔ s.options.ttlSeconds ≠ some (.finite 0) ∧
        (s.Lasts r.now → s.value ≠ null) ∧ (s.EndsAt r.now → s.value = null ∨ r.now ∈ r.metadataReads key) :=
      ⟨fun h => ⟨h.ttl, h.value, h.atEnd⟩, fun h => ⟨h.1, h.2.1, h.2.2⟩⟩
    rw [hkept, hfields, ← hseen]
    simp only [Option.some.injEq, exists_eq_left']
    rfl

end Run

end

end ZkPayroll.Cache
