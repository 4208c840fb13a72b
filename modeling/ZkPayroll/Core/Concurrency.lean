import ZkPayroll.Framework.Guards
import ZkPayroll.Framework.Transition
import ZkPayroll.Treasury.Readiness

/-!
# The semaphore

`Semaphore` of `core/concurrency.ts`. Calls of `acquire` are numbered in the
order in which they are made, and a waiter is the number of its call. A call
holds a permit from the moment at which the semaphore grants it; from then on
its release function may be called (`Callers.Step`), once.

The counter is not touched when a permit is handed to a waiter. So it is the
number of the permits that are out only together with the rule that callers
wait only while all permits are out (`Callers.Kept`).

A call of `runExclusive` acquires a permit, runs its function and releases the
permit, whether the function returns or throws. However such calls are
interleaved, no more functions run than there are permits, and no permit is lost:
while a call has not settled, some call can go on (`runsExclusively`), and there
is an end to that (`exclusive_settles`).
-/

namespace ZkPayroll.Core

open Framework Treasury

/-! ## The class -/

structure Semaphore where
  maxPermits : Nat
  maxPermits_pos : 0 < maxPermits
  active : Nat := 0
  /-- The calls of `acquire` that wait, the longest-waiting first. -/
  waiters : List Nat := []

namespace Semaphore

/-- `new Semaphore(permits)`. -/
def new {ν : Type} [NumberFormat ν] [Ring ν] [LinearOrder ν] [FloorRing ν] (permits : JsNumber ν) :
    Except SdkError Semaphore :=
  match permits.toInteger with
  | some (.ofNat (n + 1)) => .ok { maxPermits := n + 1, maxPermits_pos := n.succ_pos }
  | _ =>
    let received := numberText permits
    .error (genericError s!"Semaphore permits must be a positive integer (received {received})")

variable (s : Semaphore)

/-- Whether the call of `acquire` is granted a permit at once; it waits otherwise. -/
def acquire (call : Nat) : Bool × Semaphore :=
  if s.active < s.maxPermits then (true, { s with active := s.active + 1 })
  else (false, { s with waiters := s.waiters ++ [call] })

/-- The waiter to which the permit is handed, if there is one. -/
def release : Option Nat × Semaphore :=
  match s.waiters with
  | next :: waiters => (some next, { s with waiters := waiters })
  | [] => (none, { s with active := s.active - 1 })

def activeCount : Nat := s.active

def waitingCount : Nat := s.waiters.length

end Semaphore

/-! ## Its callers -/

/-- A semaphore and what became of the calls of its methods. -/
structure Callers where
  semaphore : Semaphore
  /-- How often `acquire` was called. -/
  acquired : Nat := 0
  /-- The calls that were granted a permit, in the order of the grants. -/
  granted : List Nat := []
  /-- Those of them whose release function was not called yet. -/
  outstanding : List Nat := []

namespace Callers

/-- A call of `acquire`. -/
def acquire (c : Callers) : Callers :=
  let r := c.semaphore.acquire c.acquired
  if r.1 then
    { semaphore := r.2
      acquired := c.acquired + 1
      granted := c.granted ++ [c.acquired]
      outstanding := c.outstanding ++ [c.acquired] }
  else { c with semaphore := r.2, acquired := c.acquired + 1 }

/-- A call of the release function that call `i` of `acquire` was granted. -/
def release (c : Callers) (i : Nat) : Callers :=
  let r := c.semaphore.release
  match r.1 with
  | some next =>
    { c with
      semaphore := r.2
      granted := c.granted ++ [next]
      outstanding := c.outstanding.erase i ++ [next] }
  | none => { c with semaphore := r.2, outstanding := c.outstanding.erase i }

/-- What can happen next. -/
inductive Step : Callers → Callers → Prop
  | acquire (c : Callers) : Step c c.acquire
  | release (c : Callers) {i : Nat} (h : i ∈ c.outstanding) : Step c (c.release i)

/-- A semaphore that was made by its constructor, and not used yet. -/
def Starts (ν : Type) [NumberFormat ν] [Ring ν] [LinearOrder ν] [FloorRing ν] (c : Callers) : Prop :=
  ∃ (permits : JsNumber ν) (s : Semaphore), Semaphore.new permits = .ok s ∧ c = { semaphore := s }

/-- What a semaphore promises its callers. -/
structure Served (c : Callers) : Prop where
  bounded : c.outstanding.length ≤ c.semaphore.maxPermits
  /-- The calls are granted permits in the order in which they were made. -/
  inOrder : c.granted = List.range c.granted.length
  activeCount_eq : c.semaphore.activeCount = c.outstanding.length
  waiting : c.semaphore.waitingCount ≠ 0 → c.outstanding.length = c.semaphore.maxPermits

/-- What every step keeps: the waiters are the calls after those that were
granted a permit, and while there are any, no permit is left. -/
structure Kept (c : Callers) : Prop where
  active_le : c.semaphore.active ≤ c.semaphore.maxPermits
  active_eq : c.semaphore.active = c.outstanding.length
  full : c.semaphore.waiters ≠ [] → c.semaphore.active = c.semaphore.maxPermits
  granted_eq : c.granted = List.range c.granted.length
  waiters_eq : c.semaphore.waiters = List.range' c.granted.length (c.acquired - c.granted.length)
  granted_le : c.granted.length ≤ c.acquired

theorem semaphore_new_eq {ν : Type} [NumberFormat ν] [Ring ν] [LinearOrder ν] [FloorRing ν] {permits : JsNumber ν}
    {s : Semaphore} (h : Semaphore.new permits = .ok s) : s.active = 0 ∧ s.waiters = [] := by
  unfold Semaphore.new at h
  split at h
  · cases h
    exact ⟨rfl, rfl⟩
  · cases h

theorem kept_start {s : Semaphore} (hactive : s.active = 0) (hwaiters : s.waiters = []) : Kept { semaphore := s } where
  active_le := by
    show s.active ≤ s.maxPermits
    omega
  active_eq := hactive
  full hne := absurd hwaiters hne
  granted_eq := rfl
  waiters_eq := hwaiters
  granted_le := Nat.le_refl 0

theorem Kept.acquire {c : Callers} (h : Kept c) : Kept c.acquire := by
  obtain ⟨hle, heq, hfull, hgranted, hwaiters, hcount⟩ := h
  by_cases hfree : c.semaphore.active < c.semaphore.maxPermits
  · -- A permit is free, so nobody waits, and the call is the next to be granted one.
    have hnone : c.semaphore.waiters = [] := by
      by_contra hne
      have hmax := hfull hne
      omega
    have hlast : c.acquired = c.granted.length := by
      have hlen := congrArg List.length hwaiters
      rw [hnone, List.length_nil, List.length_range'] at hlen
      omega
    have hacquire : c.acquire =
        { semaphore := { c.semaphore with active := c.semaphore.active + 1 }
          acquired := c.acquired + 1
          granted := c.granted ++ [c.acquired]
          outstanding := c.outstanding ++ [c.acquired] } := by
      simp only [Callers.acquire, Semaphore.acquire, if_pos hfree]
      rfl
    rw [hacquire]
    constructor
    · exact hfree
    · simp [heq]
    · exact fun hne => absurd hnone hne
    · show c.granted ++ [c.acquired] = List.range (c.granted ++ [c.acquired]).length
      rw [List.length_append, List.length_singleton, List.range_succ, ← hgranted, hlast]
    · simp [hnone, hlast]
    · simp [hlast]
  · have hacquire : c.acquire =
        { c with semaphore := { c.semaphore with waiters := c.semaphore.waiters ++ [c.acquired] }
                 acquired := c.acquired + 1 } := by
      simp only [Callers.acquire, Semaphore.acquire, if_neg hfree]
      rfl
    rw [hacquire]
    constructor
    · exact hle
    · exact heq
    · intro _
      show c.semaphore.active = c.semaphore.maxPermits
      omega
    · exact hgranted
    · show c.semaphore.waiters ++ [c.acquired] = List.range' c.granted.length (c.acquired + 1 - c.granted.length)
      rw [hwaiters, Nat.sub_add_comm hcount, List.range'_concat]
      congr 2
      omega
    · show c.granted.length ≤ c.acquired + 1
      omega

theorem Kept.release {c : Callers} (h : Kept c) {i : Nat} (hi : i ∈ c.outstanding) : Kept (c.release i) := by
  obtain ⟨hle, heq, hfull, hgranted, hwaiters, hcount⟩ := h
  have hpos : 0 < c.outstanding.length := List.length_pos_of_mem hi
  have herase : (c.outstanding.erase i).length = c.outstanding.length - 1 := List.length_erase_of_mem hi
  cases hw : c.semaphore.waiters with
  | nil =>
    have hrelease : c.release i =
        { c with semaphore := { c.semaphore with active := c.semaphore.active - 1 }
                 outstanding := c.outstanding.erase i } := by
      simp only [Callers.release, Semaphore.release, hw]
    rw [hrelease]
    constructor
    · show c.semaphore.active - 1 ≤ c.semaphore.maxPermits
      omega
    · show c.semaphore.active - 1 = (c.outstanding.erase i).length
      omega
    · exact fun hne => absurd hw hne
    · exact hgranted
    · exact hwaiters
    · exact hcount
  | cons next waiters =>
    -- The permit goes to the call after those that were granted one.
    obtain ⟨n, hn⟩ : ∃ n, c.acquired - c.granted.length = n + 1 := by
      have hlen := congrArg List.length hwaiters
      rw [hw, List.length_cons, List.length_range'] at hlen
      exact ⟨waiters.length, hlen.symm⟩
    rw [hw, hn, List.range'_succ] at hwaiters
    obtain ⟨hnext, hrest⟩ := List.cons.inj hwaiters
    have hrelease : c.release i =
        { c with semaphore := { c.semaphore with waiters := waiters }
                 granted := c.granted ++ [next]
                 outstanding := c.outstanding.erase i ++ [next] } := by
      simp only [Callers.release, Semaphore.release, hw]
    rw [hrelease]
    constructor
    · exact hle
    · show c.semaphore.active = (c.outstanding.erase i ++ [next]).length
      rw [List.length_append, herase, List.length_singleton]
      omega
    · exact fun _ => hfull (by rw [hw]; simp)
    · show c.granted ++ [next] = List.range (c.granted ++ [next]).length
      rw [List.length_append, List.length_singleton, List.range_succ, ← hgranted, hnext]
    · show waiters = List.range' (c.granted ++ [next]).length (c.acquired - (c.granted ++ [next]).length)
      rw [List.length_append, List.length_singleton, hrest]
      congr 1
      omega
    · show (c.granted ++ [next]).length ≤ c.acquired
      rw [List.length_append, List.length_singleton]
      omega

theorem Kept.step {c c' : Callers} (h : Kept c) (hs : Step c c') : Kept c' := by
  cases hs with
  | acquire => exact h.acquire
  | release hi => exact h.release hi

theorem Kept.served {c : Callers} (h : Kept c) : Served c where
  bounded := h.active_eq ▸ h.active_le
  inOrder := h.granted_eq
  activeCount_eq := h.active_eq
  waiting hne := by
    rw [← h.active_eq]
    exact h.full fun hnil => hne (by rw [Semaphore.waitingCount, hnil, List.length_nil])

/-- However `acquire` and the release functions are called, each of these at most
once, a semaphore keeps its promise. -/
theorem semaphore_serves {ν : Type} [NumberFormat ν] [Ring ν] [LinearOrder ν] [FloorRing ν] {c : Callers}
    (h : Reachable (Starts ν) Step c) : Served c := by
  have hkept : Kept c := by
    refine Reachable.invariant ?_ (fun _ _ hk hs => hk.step hs) h
    rintro _ ⟨permits, s, hnew, rfl⟩
    obtain ⟨hactive, hwaiters⟩ := semaphore_new_eq hnew
    exact kept_start hactive hwaiters
  exact hkept.served

/-- Of three calls of a semaphore with one permit, the second has the permit once
the first has released it, and the third waits. -/
theorem one_permit_serves : Served
    { semaphore := { maxPermits := 1, maxPermits_pos := Nat.one_pos, active := 1, waiters := [2] }
      acquired := 3
      granted := [0, 1]
      outstanding := [1] } := by
  have hstart : Starts Int { semaphore := { maxPermits := 1, maxPermits_pos := Nat.one_pos } } :=
    ⟨.finite 1, _, rfl, rfl⟩
  have hthree := (((Reachable.start hstart).next (Step.acquire _)).next (Step.acquire _)).next (Step.acquire _)
  exact semaphore_serves (hthree.next (Step.release (i := 0) _ (by decide)))

end Callers

/-! ## Exclusive runs -/

/-- How far a call of `runExclusive` has come. -/
inductive Stage (T : Type) where
  /-- It awaits `acquire`. -/
  | acquiring
  /-- It awaits the function. -/
  | running
  | settled (result : Except SdkError T)

def Stage.isRunning {T : Type} : Stage T → Bool
  | .running => true
  | _ => false

/-- The steps that are left. -/
def Stage.work {T : Type} : Stage T → Nat
  | .acquiring => 2
  | .running => 1
  | .settled _ => 0

/-- A semaphore whose methods are called by `runExclusive`; call `i` of it makes
call `i` of `acquire`. -/
structure Exclusive (T : Type) where
  callers : Callers
  stages : List (Stage T) := []

namespace Exclusive

variable {T : Type} {x y : Exclusive T}

/-- A call has ended. -/
def Settled (x : Exclusive T) (i : Nat) : Prop := ∃ r, x.stages[i]? = some (.settled r)

/-- A call goes on: its function is started once the permit is granted, and the
permit is released when the function has returned or thrown. -/
inductive Continues : Exclusive T → Exclusive T → Prop
  | start (x : Exclusive T) {i : Nat} (hgranted : i ∈ x.callers.outstanding) (h : x.stages[i]? = some .acquiring) :
      Continues x { x with stages := x.stages.set i .running }
  | settle (x : Exclusive T) {i : Nat} (r : Except SdkError T) (h : x.stages[i]? = some .running) :
      Continues x { callers := x.callers.release i, stages := x.stages.set i (.settled r) }

inductive Step : Exclusive T → Exclusive T → Prop
  | call (x : Exclusive T) : Step x { callers := x.callers.acquire, stages := x.stages ++ [.acquiring] }
  | goOn {x y : Exclusive T} (h : Continues x y) : Step x y

/-- A world in which nothing has happened yet. -/
def Starts (ν : Type) [NumberFormat ν] [Ring ν] [LinearOrder ν] [FloorRing ν] (x : Exclusive T) : Prop :=
  Callers.Starts ν x.callers ∧ x.stages = []

/-- The calls whose functions run. -/
def running (x : Exclusive T) : List Nat :=
  (List.range x.stages.length).filter fun i => x.stages[i]?.any Stage.isRunning

/-- What is left to do of the calls that were made. -/
def work (x : Exclusive T) : Nat := (x.stages.map Stage.work).sum

/-- The permits that are out are those of the calls that were granted one and
have not settled. -/
structure Kept (x : Exclusive T) : Prop where
  callers : x.callers.Kept
  acquired_eq : x.callers.acquired = x.stages.length
  outstanding_iff : ∀ i, i ∈ x.callers.outstanding ↔ i < x.callers.granted.length ∧ ¬x.Settled i
  nodup : x.callers.outstanding.Nodup
  granted : ∀ i stage, x.stages[i]? = some stage → stage ≠ .acquiring → i < x.callers.granted.length

theorem acquire_cases (c : Callers) : c.acquire.acquired = c.acquired + 1 ∧
    (c.acquire.granted = c.granted ++ [c.acquired] ∧ c.acquire.outstanding = c.outstanding ++ [c.acquired] ∨
      c.acquire.granted = c.granted ∧ c.acquire.outstanding = c.outstanding) := by
  by_cases h : (c.semaphore.acquire c.acquired).1 = true
  · simp [Callers.acquire, h]
  · simp [Callers.acquire, h]

theorem release_cases (c : Callers) (i : Nat) : (c.release i).acquired = c.acquired ∧
    ((∃ next, (c.release i).granted = c.granted ++ [next] ∧ (c.release i).outstanding = c.outstanding.erase i ++ [next]) ∨
      (c.release i).granted = c.granted ∧ (c.release i).outstanding = c.outstanding.erase i) := by
  cases h : c.semaphore.release.1 with
  | none => simp [Callers.release, h]
  | some next => simp [Callers.release, h]

/-- The call that is granted a permit is the one after those that were. -/
theorem eq_length_of_granted {c c' : Callers} (hc' : c'.Kept) {next : Nat} (h : c'.granted = c.granted ++ [next]) :
    next = c.granted.length := by
  have hlast := congrArg List.getLast? hc'.granted_eq
  rw [h, List.length_append, List.length_singleton, List.range_succ] at hlast
  simpa using hlast

variable {i : Nat}

theorem settled_append {callers : Callers} :
    Settled { callers := callers, stages := x.stages ++ [.acquiring] } i ↔ x.Settled i := by
  unfold Settled
  rw [List.getElem?_append]
  split
  · rfl
  · rename_i hi
    rw [List.getElem?_eq_none (Nat.le_of_not_lt hi), List.getElem?_singleton]
    split <;> simp

theorem settled_set {i j : Nat} {s : Stage T} (hs : x.stages[i]? = some s) {callers : Callers} {stage : Stage T} :
    Settled { callers := callers, stages := x.stages.set i stage } j ↔
      j = i ∧ (∃ r, stage = .settled r) ∨ j ≠ i ∧ x.Settled j := by
  have hi : i < x.stages.length := (List.getElem?_eq_some_iff.mp hs).1
  unfold Settled
  by_cases hij : j = i
  · subst hij
    simp [List.getElem?_set_self hi]
  · rw [List.getElem?_set_ne (Ne.symm hij)]
    simp [hij]

theorem Kept.call (h : Kept x) : Kept { callers := x.callers.acquire, stages := x.stages ++ [.acquiring] } := by
  obtain ⟨hacquired, hcases⟩ := acquire_cases x.callers
  have hkept := h.callers.acquire
  have hnew {i : Nat} {stage : Stage T} (hi : (x.stages ++ [.acquiring])[i]? = some stage) (hne : stage ≠ .acquiring) :
      i < x.callers.granted.length := by
    rcases getElem?_concat_eq_some hi with hi | ⟨-, rfl⟩
    · exact h.granted i stage hi hne
    · exact absurd rfl hne
  refine ⟨hkept, by simp [hacquired, h.acquired_eq], fun i => ?_, ?_, fun i stage hi hne => ?_⟩
  · rw [settled_append]
    rcases hcases with ⟨hgranted, hout⟩ | ⟨hgranted, hout⟩
    · have hlast := eq_length_of_granted hkept hgranted
      have hfresh : ¬x.Settled x.callers.acquired := by
        rintro ⟨r, hr⟩
        rw [h.acquired_eq, List.getElem?_eq_none (Nat.le_refl _)] at hr
        cases hr
      rw [hgranted, hout, List.mem_append, List.mem_singleton, h.outstanding_iff, List.length_append,
        List.length_singleton, ← hlast]
      constructor
      · rintro (⟨hi, hs⟩ | rfl)
        · exact ⟨Nat.lt_succ_of_lt hi, hs⟩
        · exact ⟨Nat.lt_succ_self _, hfresh⟩
      · rintro ⟨hi, hs⟩
        rcases Nat.lt_succ_iff_lt_or_eq.mp hi with hi | hi
        · exact .inl ⟨hi, hs⟩
        · exact .inr hi
    · rw [hgranted, hout, h.outstanding_iff]
  · rcases hcases with ⟨hgranted, hout⟩ | ⟨hgranted, hout⟩
    · rw [hout]
      refine List.nodup_append.mpr ⟨h.nodup, List.nodup_singleton _, fun a ha b hb hab => ?_⟩
      have hlt := ((h.outstanding_iff a).mp ha).1
      rw [hab, List.mem_singleton.mp hb, eq_length_of_granted hkept hgranted] at hlt
      exact Nat.lt_irrefl _ hlt
    · rw [hout]
      exact h.nodup
  · have hlt := hnew hi hne
    rcases hcases with ⟨hgranted, -⟩ | ⟨hgranted, -⟩
    · rw [hgranted, List.length_append]
      exact Nat.lt_add_right _ hlt
    · rwa [hgranted]

theorem Kept.start (h : Kept x) (hgranted : i ∈ x.callers.outstanding) (hi : x.stages[i]? = some .acquiring) :
    Kept { x with stages := x.stages.set i .running } := by
  refine ⟨h.callers, by simp [h.acquired_eq], fun j => ?_, h.nodup, fun j stage hj hne => ?_⟩
  · rw [h.outstanding_iff, settled_set hi]
    have hiff : (j = i ∧ (∃ r, (Stage.running : Stage T) = .settled r) ∨ j ≠ i ∧ x.Settled j) ↔ x.Settled j := by
      constructor
      · rintro (⟨-, r, hr⟩ | ⟨-, hs⟩)
        · cases hr
        · exact hs
      · refine fun hs => .inr ⟨?_, hs⟩
        rintro rfl
        obtain ⟨r, hr⟩ := hs
        rw [hi] at hr
        cases hr
    rw [hiff]
  · rcases getElem?_set_eq_some hj with ⟨rfl, -⟩ | ⟨-, hj⟩
    · exact ((h.outstanding_iff _).mp hgranted).1
    · exact h.granted j stage hj hne

theorem Kept.settle (h : Kept x) (r : Except SdkError T) (hi : x.stages[i]? = some .running) :
    Kept { callers := x.callers.release i, stages := x.stages.set i (.settled r) } := by
  have hout : i ∈ x.callers.outstanding := by
    refine (h.outstanding_iff i).mpr ⟨h.granted i _ hi (fun h => nomatch h), ?_⟩
    rintro ⟨r', hr'⟩
    rw [hi] at hr'
    cases hr'
  obtain ⟨hacquired, hcases⟩ := release_cases x.callers i
  have hkept := h.callers.release hout
  have hlt := ((h.outstanding_iff i).mp hout).1
  have hold (j : Nat) : j ∈ x.callers.outstanding.erase i ↔ j < x.callers.granted.length ∧
      ¬Settled { callers := x.callers.release i, stages := x.stages.set i (.settled r) } j := by
    rw [h.nodup.mem_erase_iff, h.outstanding_iff, settled_set hi]
    by_cases hj : j = i
    · simp [hj]
    · simp [hj]
  refine ⟨hkept, by simp [hacquired, h.acquired_eq], fun j => ?_, ?_, fun j stage hj hne => ?_⟩
  · rcases hcases with ⟨next, hgranted, hout'⟩ | ⟨hgranted, hout'⟩
    · -- The permit goes to the next call, which has not started.
      have hnext := eq_length_of_granted hkept hgranted
      have hfresh : ¬Settled { callers := x.callers.release i, stages := x.stages.set i (.settled r) } next := by
        rw [settled_set hi]
        rintro (⟨hni, -⟩ | ⟨-, s, hs⟩)
        · omega
        · have hlt' := h.granted next _ hs (fun h => nomatch h)
          omega
      rw [hout', hgranted, List.mem_append, List.mem_singleton, hold, List.length_append, List.length_singleton]
      constructor
      · rintro (⟨hj, hs⟩ | rfl)
        · exact ⟨Nat.lt_succ_of_lt hj, hs⟩
        · exact ⟨by omega, hfresh⟩
      · rintro ⟨hj, hs⟩
        rcases Nat.lt_succ_iff_lt_or_eq.mp hj with hj | hj
        · exact .inl ⟨hj, hs⟩
        · exact .inr (by omega)
    · rw [hout', hgranted, hold]
  · rcases hcases with ⟨next, hgranted, hout'⟩ | ⟨hgranted, hout'⟩
    · rw [hout']
      refine List.nodup_append.mpr ⟨h.nodup.erase i, List.nodup_singleton _, fun a ha b hb hab => ?_⟩
      have hlt' := ((hold a).mp ha).1
      rw [hab, List.mem_singleton.mp hb, eq_length_of_granted hkept hgranted] at hlt'
      exact Nat.lt_irrefl _ hlt'
    · rw [hout']
      exact h.nodup.erase i
  · have hlt' : j < x.callers.granted.length := by
      rcases getElem?_set_eq_some hj with ⟨rfl, -⟩ | ⟨-, hj⟩
      · exact hlt
      · exact h.granted j stage hj hne
    rcases hcases with ⟨next, hgranted, -⟩ | ⟨hgranted, -⟩
    · rw [hgranted, List.length_append]
      exact Nat.lt_add_right _ hlt'
    · rwa [hgranted]

theorem Kept.step (h : Kept x) (hs : Step x y) : Kept y := by
  cases hs with
  | call => exact h.call
  | goOn hc =>
    cases hc with
    | start hgranted hi => exact h.start hgranted hi
    | settle r hi => exact h.settle r hi

/-- What `runExclusive` promises its callers. -/
structure RunsExclusively (x : Exclusive T) : Prop where
  /-- No more functions run than there are permits. -/
  bounded : x.running.length ≤ x.callers.semaphore.maxPermits
  /-- Permits are granted in the order of the calls, and none is granted twice. -/
  inOrder : x.callers.granted = List.range x.callers.granted.length
  /-- While a call has not settled, some call goes on. -/
  goesOn : (∃ i < x.stages.length, ¬x.Settled i) → ∃ y, Continues x y
  /-- When all have settled, all permits are back. -/
  idle : (∀ i < x.stages.length, x.Settled i) →
    x.callers.semaphore.activeCount = 0 ∧ x.callers.semaphore.waitingCount = 0

theorem mem_running : i ∈ x.running ↔ x.stages[i]? = some .running := by
  unfold running
  rw [List.mem_filter, List.mem_range]
  constructor
  · rintro ⟨-, h⟩
    cases hs : x.stages[i]? with
    | none => simp [hs] at h
    | some stage =>
      cases stage with
      | running => rfl
      | acquiring => simp [hs, Stage.isRunning] at h
      | settled r => simp [hs, Stage.isRunning] at h
  · exact fun h => ⟨(List.getElem?_eq_some_iff.mp h).1, by rw [h]; rfl⟩

theorem Kept.mem_outstanding (h : Kept x) (hi : x.stages[i]? = some .running) : i ∈ x.callers.outstanding := by
  refine (h.outstanding_iff i).mpr ⟨h.granted i _ hi (fun h => nomatch h), ?_⟩
  rintro ⟨r, hr⟩
  rw [hi] at hr
  cases hr

theorem Kept.continues (h : Kept x) (hi : i ∈ x.callers.outstanding) : ∃ y, Continues x y := by
  obtain ⟨hlt, hnot⟩ := (h.outstanding_iff i).mp hi
  have hlen : i < x.stages.length := by
    have hle := h.callers.granted_le
    rw [h.acquired_eq] at hle
    omega
  obtain ⟨stage, hs⟩ : ∃ stage, x.stages[i]? = some stage := ⟨_, List.getElem?_eq_getElem hlen⟩
  cases stage with
  | acquiring => exact ⟨_, .start x hi hs⟩
  | running => exact ⟨_, .settle x (.error undefinedValue) hs⟩
  | settled r => exact absurd ⟨r, hs⟩ hnot

theorem Kept.exclusive (h : Kept x) : RunsExclusively x where
  bounded := by
    have hnodup : x.running.Nodup := List.nodup_range.filter _
    have hsub : x.running ⊆ x.callers.outstanding := fun i hi => h.mem_outstanding (mem_running.mp hi)
    have hle := (hnodup.subperm hsub).length_le
    have hactive := h.callers.active_le
    rw [h.callers.active_eq] at hactive
    exact hle.trans hactive
  inOrder := h.callers.granted_eq
  goesOn := by
    rintro ⟨i, hi, hnot⟩
    by_cases hgranted : i < x.callers.granted.length
    · exact h.continues ((h.outstanding_iff i).mpr ⟨hgranted, hnot⟩)
    · -- The call waits, so all permits are out.
      have hwaits : x.callers.semaphore.waiters ≠ [] := by
        rw [h.callers.waiters_eq, h.acquired_eq, Ne, List.range'_eq_nil_iff]
        omega
      have hfull := h.callers.full hwaits
      rw [h.callers.active_eq] at hfull
      have hpos := x.callers.semaphore.maxPermits_pos
      obtain ⟨j, hj⟩ := List.exists_mem_of_length_pos (hfull ▸ hpos)
      exact h.continues hj
  idle hall := by
    have hle := h.callers.granted_le
    rw [h.acquired_eq] at hle
    have hnone : x.callers.outstanding = [] := by
      refine List.eq_nil_iff_forall_not_mem.mpr fun i hi => ?_
      obtain ⟨hlt, hnot⟩ := (h.outstanding_iff i).mp hi
      exact hnot (hall i (by omega))
    have hactive := h.callers.active_eq
    rw [hnone, List.length_nil] at hactive
    refine ⟨hactive, ?_⟩
    by_contra hne
    have hfull := h.callers.full (fun hnil => hne (by rw [Semaphore.waitingCount, hnil, List.length_nil]))
    have hpos := x.callers.semaphore.maxPermits_pos
    omega

theorem kept_of_reachable {ν : Type} [NumberFormat ν] [Ring ν] [LinearOrder ν] [FloorRing ν]
    (h : Reachable (Starts ν) Step x) : Kept x := by
  refine Reachable.invariant ?_ (fun _ _ hk hs => hk.step hs) h
  rintro s ⟨⟨permits, semaphore, hnew, hcallers⟩, hstages⟩
  obtain ⟨hactive, hwaiters⟩ := Callers.semaphore_new_eq hnew
  refine ⟨hcallers ▸ Callers.kept_start hactive hwaiters, by rw [hcallers, hstages]; rfl, fun i => ?_, ?_, ?_⟩
  · rw [hcallers]
    simp
  · rw [hcallers]
    exact List.nodup_nil
  · rw [hstages]
    simp

/-- However calls of `runExclusive` are interleaved, whether their functions return
or throw, the semaphore keeps its promise. -/
theorem runsExclusively {ν : Type} [NumberFormat ν] [Ring ν] [LinearOrder ν] [FloorRing ν]
    (h : Reachable (Starts ν) Step x) : RunsExclusively x :=
  (kept_of_reachable h).exclusive

theorem sum_set {l : List Nat} {i a b : Nat} (h : l[i]? = some a) : (l.set i b).sum + a = l.sum + b := by
  induction l generalizing i with
  | nil => cases h
  | cons c l ih =>
    cases i with
    | zero =>
      cases h
      simp only [List.set_cons_zero, List.sum_cons]
      omega
    | succ i =>
      have hrest := ih h
      simp only [List.set_cons_succ, List.sum_cons]
      omega

theorem Continues.work (h : Continues x y) : y.work + 1 = x.work := by
  have hset {i : Nat} {a b : Stage T} (hi : x.stages[i]? = some a) :
      ((x.stages.set i b).map Stage.work).sum + a.work = (x.stages.map Stage.work).sum + b.work := by
    rw [List.map_set]
    exact sum_set (by rw [List.getElem?_map, hi]; rfl)
  cases h with
  | start hgranted hi =>
    have hsum := hset (b := .running) hi
    simp only [Exclusive.work, Stage.work] at hsum ⊢
    omega
  | settle r hi =>
    have hsum := hset (b := .settled r) hi
    simp only [Exclusive.work, Stage.work] at hsum ⊢
    omega

/-- When no more calls are made, there is an end to what goes on, and then all
calls have settled. -/
theorem exclusive_settles {ν : Type} [NumberFormat ν] [Ring ν] [LinearOrder ν] [FloorRing ν]
    (h : Reachable (Starts ν) Step x) :
    Acc (fun z y => Continues y z) x ∧
      ∀ y, Relation.ReflTransGen Continues x y → (∀ z, ¬Continues y z) → ∀ i < y.stages.length, y.Settled i := by
  constructor
  · have hwf : WellFounded fun z y : Exclusive T => z.work < y.work := (measure work).wf
    exact Subrelation.accessible (fun hc => by have hwork := hc.work; omega) (hwf.apply x)
  · intro y hxy hstuck i hi
    by_contra hnot
    have hsteps : Relation.ReflTransGen Step x y := hxy.lift id fun _ _ hc => Step.goOn hc
    have hy := h.trans hsteps
    obtain ⟨z, hz⟩ := (kept_of_reachable hy).exclusive.goesOn ⟨i, hi, hnot⟩
    exact hstuck z hz

/-- Two calls with one permit; the function of the first throws. -/
def twoCalls : Exclusive Unit where
  callers :=
    { semaphore := { maxPermits := 1, maxPermits_pos := Nat.one_pos, active := 1 }
      acquired := 2
      granted := [0, 1]
      outstanding := [1] }
  stages := [.settled (.error undefinedValue), .acquiring]

theorem reachable_twoCalls : Reachable (Starts Int) Step twoCalls := by
  let start : Exclusive Unit := { callers := { semaphore := { maxPermits := 1, maxPermits_pos := Nat.one_pos } } }
  have hstart : Starts Int start := ⟨⟨.finite 1, _, rfl, rfl⟩, rfl⟩
  have hcalled := ((Reachable.start hstart).next (Step.call _)).next (Step.call _)
  have hrunning := hcalled.next (Step.goOn (Continues.start _ (i := 0) (by decide) rfl))
  exact hrunning.next (Step.goOn (Continues.settle _ (i := 0) (.error undefinedValue) rfl))

theorem twoCalls_run : RunsExclusively twoCalls := runsExclusively reachable_twoCalls

theorem twoCalls_settle : Acc (fun z y => Continues y z) twoCalls ∧
    ∀ y, Relation.ReflTransGen Continues twoCalls y → (∀ z, ¬Continues y z) → ∀ i < y.stages.length, y.Settled i :=
  exclusive_settles reachable_twoCalls

end Exclusive

end ZkPayroll.Core
