import Mathlib.Algebra.Order.Ring.Int
import Mathlib.Data.Finset.Max
import ZkPayroll.Framework.Firsts

/-!
# The summary of disputes

`buildDisputeSummary` of `disputes/DisputeUIHelpers.ts`. The flags and the counts
of a dispute are taken from the first of its events in the list
(`buildDisputeSummary_eq`).

A summary should tell of each dispute what its latest event does, whatever the
order of the events (`Faithful`). It does exactly when no two events of a
dispute differ in what is counted (`Agreeing`, `summary_faithful_iff`).
-/

namespace ZkPayroll.Disputes

open Framework

/-! ## Data -/

inductive DisputeStatus where
  | opened
  | updated
  | resolved
  | appealed
  | closed
  deriving DecidableEq, Repr

inductive DisputeSeverity where
  | info
  | warning
  | critical
  deriving DecidableEq, Repr

inductive DisputeCategory where
  | payment_mismatch
  | state_inconsistency
  | unauthorized_access
  | amount_discrepancy
  | timing_violation
  | integrity_failure
  | other
  deriving DecidableEq, Repr

/-- What the summary reads of a `DisputeEvent`. -/
structure DisputeEvent where
  disputeId : String
  status : DisputeStatus
  category : DisputeCategory
  severity : DisputeSeverity
  openedAt : Int
  eventAt : Int
  deriving DecidableEq

structure DisputeSummary where
  totalDisputes : Nat
  blockingDisputes : Nat := 0
  unresolvedDisputes : Nat := 0
  resolvedDisputes : Nat := 0
  bySeverity : DisputeSeverity → Nat := fun _ => 0
  byCategory : DisputeCategory → Nat := fun _ => 0
  canProceed : Bool := true
  earliestDisputeAt : Option Int := none
  latestEventAt : Option Int := none

/-! ## `buildDisputeSummary` -/

def DisputeEvent.isResolved (e : DisputeEvent) : Bool := e.status = .resolved

/-- Neither resolved nor closed. -/
def DisputeEvent.isUnresolved (e : DisputeEvent) : Bool := e.status ≠ .resolved ∧ e.status ≠ .closed

def DisputeEvent.isBlocking (e : DisputeEvent) : Bool :=
  (e.severity = .critical ∨ e.severity = .warning) ∧ e.status ≠ .resolved ∧ e.status ≠ .closed

/-- `if (!kept || t < kept) kept = t`, or with `>`: the time 0 counts as unset. -/
def keep (better : Int → Int → Bool) (kept : Option Int) (t : Int) : Option Int :=
  match kept with
  | none => some t
  | some k => if k = 0 ∨ better t k then some t else some k

variable (t k : Int)

def earlier : Bool := t < k

def later : Bool := t > k

/-- The first event of a dispute in the list. -/
def DisputeSummary.addDispute (s : DisputeSummary) (e : DisputeEvent) : DisputeSummary :=
  { s with
    resolvedDisputes := if e.isResolved then s.resolvedDisputes + 1 else s.resolvedDisputes
    unresolvedDisputes := if e.isUnresolved then s.unresolvedDisputes + 1 else s.unresolvedDisputes
    blockingDisputes := if e.isBlocking then s.blockingDisputes + 1 else s.blockingDisputes
    canProceed := if e.isBlocking then false else s.canProceed
    earliestDisputeAt := keep earlier s.earliestDisputeAt e.openedAt }

/-- Any event. -/
def DisputeSummary.addEvent (s : DisputeSummary) (e : DisputeEvent) : DisputeSummary :=
  { s with
    bySeverity := Function.update s.bySeverity e.severity (s.bySeverity e.severity + 1)
    byCategory := Function.update s.byCategory e.category (s.byCategory e.category + 1)
    latestEventAt := keep later s.latestEventAt e.eventAt }

/-- The loop, with the ids in `seenDisputes`. -/
def summarize (seen : List String) (s : DisputeSummary) : List DisputeEvent → DisputeSummary
  | [] => s
  | e :: disputes =>
    if e.disputeId ∈ seen then summarize seen (s.addEvent e) disputes
    else summarize (e.disputeId :: seen) ((s.addDispute e).addEvent e) disputes

def buildDisputeSummary (disputes : List DisputeEvent) : DisputeSummary :=
  summarize [] { totalDisputes := disputes.length } disputes

/-! ## What the loop computes -/

/-- The first event of each dispute in the list. -/
abbrev firstEvents (events : List DisputeEvent) : List DisputeEvent := firsts DisputeEvent.disputeId [] events

theorem summarize_eq : ∀ (events : List DisputeEvent) (seen : List String) (s : DisputeSummary),
    summarize seen s events =
      { totalDisputes := s.totalDisputes
        blockingDisputes := s.blockingDisputes + (firsts DisputeEvent.disputeId seen events).countP (·.isBlocking)
        unresolvedDisputes :=
          s.unresolvedDisputes + (firsts DisputeEvent.disputeId seen events).countP (·.isUnresolved)
        resolvedDisputes := s.resolvedDisputes + (firsts DisputeEvent.disputeId seen events).countP (·.isResolved)
        bySeverity := fun v => s.bySeverity v + events.countP (·.severity = v)
        byCategory := fun c => s.byCategory c + events.countP (·.category = c)
        canProceed := s.canProceed && !(firsts DisputeEvent.disputeId seen events).any (·.isBlocking)
        earliestDisputeAt :=
          ((firsts DisputeEvent.disputeId seen events).map (·.openedAt)).foldl (keep earlier) s.earliestDisputeAt
        latestEventAt := (events.map (·.eventAt)).foldl (keep later) s.latestEventAt }
  | [], seen, s => by simp [summarize, firsts]
  | e :: events, seen, s => by
    have hseverity : ∀ v, Function.update s.bySeverity e.severity (s.bySeverity e.severity + 1) v =
        s.bySeverity v + if e.severity = v then 1 else 0 := by
      intro v
      by_cases h : e.severity = v
      · subst h
        simp
      · simp [h, Function.update_of_ne (Ne.symm h)]
    have hcategory : ∀ c, Function.update s.byCategory e.category (s.byCategory e.category + 1) c =
        s.byCategory c + if e.category = c then 1 else 0 := by
      intro c
      by_cases h : e.category = c
      · subst h
        simp
      · simp [h, Function.update_of_ne (Ne.symm h)]
    rw [summarize, firsts]
    split
    · rw [summarize_eq events]
      simp only [DisputeSummary.addEvent, hseverity, hcategory, List.countP_cons, List.map_cons,
        List.foldl_cons, decide_eq_true_eq]
      congr 1
      · funext v
        omega
      · funext c
        omega
    · rw [summarize_eq events]
      simp only [DisputeSummary.addEvent, DisputeSummary.addDispute, hseverity, hcategory, List.countP_cons,
        List.map_cons, List.foldl_cons, List.any_cons, decide_eq_true_eq]
      congr 1
      · split <;> omega
      · split <;> omega
      · split <;> omega
      · funext v
        omega
      · funext c
        omega
      · cases e.isBlocking <;> simp

variable (events : List DisputeEvent)

theorem buildDisputeSummary_eq :
    buildDisputeSummary events =
      { totalDisputes := events.length
        blockingDisputes := (firstEvents events).countP (·.isBlocking)
        unresolvedDisputes := (firstEvents events).countP (·.isUnresolved)
        resolvedDisputes := (firstEvents events).countP (·.isResolved)
        bySeverity := fun v => events.countP (·.severity = v)
        byCategory := fun c => events.countP (·.category = c)
        canProceed := !(firstEvents events).any (·.isBlocking)
        earliestDisputeAt := ((firstEvents events).map (·.openedAt)).foldl (keep earlier) none
        latestEventAt := (events.map (·.eventAt)).foldl (keep later) none } := by
  rw [buildDisputeSummary, summarize_eq]
  simp

theorem earliestDisputeAt_eq :
    (buildDisputeSummary events).earliestDisputeAt =
      ((firstEvents events).map (·.openedAt)).foldl (keep earlier) none := by
  rw [buildDisputeSummary_eq]

theorem latestEventAt_eq :
    (buildDisputeSummary events).latestEventAt = (events.map (·.eventAt)).foldl (keep later) none := by
  rw [buildDisputeSummary_eq]

/-! ## The purpose of a summary -/

/-- The dispute of the event has no later one. -/
def IsLatest (events : List DisputeEvent) (e : DisputeEvent) : Prop :=
  e ∈ events ∧ ∀ f ∈ events, f.disputeId = e.disputeId → f.eventAt ≤ e.eventAt

/-- The latest event of each dispute. -/
def LatestOf (events : List DisputeEvent) (latest : String → DisputeEvent) : Prop :=
  ∀ e ∈ events, (latest e.disputeId).disputeId = e.disputeId ∧ IsLatest events (latest e.disputeId)

/-- The disputes that the events are about. -/
def disputeIds (events : List DisputeEvent) : List String := (events.map DisputeEvent.disputeId).dedup

/-- The summary tells of each dispute what its latest event does, in any order
of the events. -/
structure Faithful (events : List DisputeEvent) : Prop where
  canProceed : (buildDisputeSummary events).canProceed = true ↔
    ∀ e, IsLatest events e → e.isBlocking = false
  counts {latest : String → DisputeEvent} : LatestOf events latest →
    (buildDisputeSummary events).blockingDisputes =
        (disputeIds events).countP (fun id => (latest id).isBlocking) ∧
      (buildDisputeSummary events).unresolvedDisputes =
        (disputeIds events).countP (fun id => (latest id).isUnresolved) ∧
      (buildDisputeSummary events).resolvedDisputes =
        (disputeIds events).countP (fun id => (latest id).isResolved)
  reordered {events' : List DisputeEvent} : events'.Perm events →
    buildDisputeSummary events' = buildDisputeSummary events

/-- No two events of a dispute differ in what is counted. As to the times, some
dispute has no event that was opened later than the first, and the time 0 is not
the extreme of different ones. -/
structure Agreeing (events : List DisputeEvent) : Prop where
  agree {e f : DisputeEvent} : e ∈ events → f ∈ events → e.disputeId = f.disputeId →
    e.isBlocking = f.isBlocking ∧ e.isUnresolved = f.isUnresolved ∧ e.isResolved = f.isResolved
  opened : events ≠ [] → ∃ e ∈ events, (∀ f ∈ events, e.openedAt ≤ f.openedAt) ∧
    (∀ f ∈ events, f.disputeId = e.disputeId → f.openedAt = e.openedAt) ∧
    (e.openedAt = 0 → ∀ f ∈ events, f.openedAt = 0)
  occurred {e : DisputeEvent} : e ∈ events → (∀ f ∈ events, f.eventAt ≤ e.eventAt) → e.eventAt = 0 →
    ∀ f ∈ events, f.eventAt = 0

/-! ## The time that is kept -/

section Keep

variable {better : Int → Int → Bool} {rank : Int → Int} {m : Int}

theorem mem_of_foldl_keep {r : Int} : ∀ {ts : List Int} {k : Option Int}, ts.foldl (keep better) k = some r →
    r ∈ ts ∨ k = some r
  | [], _, h => .inr h
  | t :: ts, k, h => by
    rw [List.foldl_cons] at h
    rcases mem_of_foldl_keep h with hr | hr
    · exact .inl (List.mem_cons_of_mem t hr)
    · have hcases : keep better k t = some t ∨ keep better k t = k := by
        unfold keep
        split
        · exact .inl rfl
        · split
          · exact .inl rfl
          · exact .inr rfl
      rcases hcases with hk | hk
      · rw [hk] at hr
        exact .inl (Option.some.inj hr ▸ List.mem_cons_self)
      · exact .inr (hk ▸ hr)

/-- The time `t` does not take the place of `m`. -/
def Bounds (rank : Int → Int) (m t : Int) : Prop := rank m ≤ rank t ∧ (m = 0 → t = 0)

/-- Any time takes the place of the time 0. -/
theorem keep_of_zero {k : Option Int} (hk : ∀ t, k = some t → t = 0) (t : Int) : keep better k t = some t := by
  cases k with
  | none => rfl
  | some u => simp [keep, hk u rfl]

/-- An extreme time takes the place of any other. -/
theorem keep_extreme (hbetter : ∀ t k, better t k = true ↔ rank t < rank k) (hrank : Function.Injective rank)
    {k : Option Int} (hk : ∀ t, k = some t → rank m ≤ rank t) : keep better k m = some m := by
  cases k with
  | none => rfl
  | some t =>
    rw [keep]
    split
    · rfl
    · rename_i hno
      rw [not_or, hbetter, not_lt] at hno
      rw [hrank (le_antisymm hno.2 (hk t rfl))]

theorem foldl_keep_extreme (hbetter : ∀ t k, better t k = true ↔ rank t < rank k)
    (hrank : Function.Injective rank) : ∀ {ts : List Int} {k : Option Int}, (∀ t ∈ ts, Bounds rank m t) →
      (∀ t, k = some t → Bounds rank m t) → k = some m ∨ m ∈ ts → ts.foldl (keep better) k = some m
  | [], k, _, _, h => h.resolve_right List.not_mem_nil
  | t :: ts, k, hts, hk, h => by
    obtain ⟨ht, hts⟩ := List.forall_mem_cons.mp hts
    have hnext : ∀ u, keep better k t = some u → Bounds rank m u := by
      intro u hu
      have hfold : [t].foldl (keep better) k = some u := hu
      rcases mem_of_foldl_keep hfold with hu | hu
      · exact List.mem_singleton.mp hu ▸ ht
      · exact hk u hu
    rw [List.foldl_cons]
    refine foldl_keep_extreme hbetter hrank hts hnext ?_
    rcases h with rfl | h
    · left
      rw [keep]
      split
      · rename_i hor
        rcases hor with hz | hb
        · rw [hz, ht.2 hz]
        · exact absurd ht.1 (not_le.mpr ((hbetter _ _).mp hb))
      · rfl
    · rcases List.mem_cons.mp h with rfl | h
      · exact .inl (keep_extreme hbetter hrank fun u hu => (hk u hu).1)
      · exact .inr h

end Keep

theorem earlier_iff : earlier t k = true ↔ id t < id k := decide_eq_true_iff

theorem later_iff : later t k = true ↔ -t < -k := by
  rw [neg_lt_neg_iff]
  exact decide_eq_true_iff

/-! ## Agreeing events -/

variable {events events' : List DisputeEvent}
variable {p : DisputeEvent → Bool}

/-- What is counted of the first events of disputes is counted of any. -/
theorem countP_firstEvents {q : String → Bool}
    (h : ∀ e ∈ events, p e = q e.disputeId) : (firstEvents events).countP p = (disputeIds events).countP q :=
  countP_firsts h

theorem countP_firstEvents_perm (hp : events'.Perm events)
    (h : ∀ e ∈ events, ∀ f ∈ events, e.disputeId = f.disputeId → p e = p f) :
    (firstEvents events').countP p = (firstEvents events).countP p := by
  let q (id : String) : Bool := events.any fun f => f.disputeId = id ∧ p f
  have hany : ∀ e ∈ events, p e = q e.disputeId := by
    intro e he
    rw [Bool.eq_iff_iff, List.any_eq_true]
    constructor
    · exact fun hpe => ⟨e, he, by simpa using hpe⟩
    · intro hex
      obtain ⟨f, hf, hfe⟩ := hex
      simp only [decide_eq_true_eq] at hfe
      rw [h e he f hf hfe.1.symm, hfe.2]
  rw [countP_firstEvents (q := q) (fun e he => hany e (hp.mem_iff.mp he)), countP_firstEvents hany]
  exact (hp.map DisputeEvent.disputeId).dedup.countP_eq _

variable {e : DisputeEvent}

theorem earliest_eq (he : e ∈ events) (hmin : ∀ f ∈ events, e.openedAt ≤ f.openedAt)
    (hsame : ∀ f ∈ events, f.disputeId = e.disputeId → f.openedAt = e.openedAt)
    (hzero : e.openedAt = 0 → ∀ f ∈ events, f.openedAt = 0) :
    (buildDisputeSummary events).earliestDisputeAt = some e.openedAt := by
  rw [buildDisputeSummary_eq]
  refine foldl_keep_extreme earlier_iff Function.injective_id (fun t ht => ?_) nofun (.inr ?_)
  · obtain ⟨f, hf, rfl⟩ := List.mem_map.mp ht
    exact ⟨hmin f (mem_firsts hf).1, fun hz => hzero hz f (mem_firsts hf).1⟩
  · have hfirst : ∃ f ∈ firstEvents events, f.disputeId = e.disputeId := exists_mem_firsts he List.not_mem_nil
    obtain ⟨f, hf, hid⟩ := hfirst
    exact List.mem_map.mpr ⟨f, hf, hsame f (mem_firsts hf).1 hid⟩

theorem latest_eq (he : e ∈ events) (hmax : ∀ f ∈ events, f.eventAt ≤ e.eventAt)
    (hzero : e.eventAt = 0 → ∀ f ∈ events, f.eventAt = 0) :
    (buildDisputeSummary events).latestEventAt = some e.eventAt := by
  rw [buildDisputeSummary_eq]
  refine foldl_keep_extreme later_iff neg_injective (fun t ht => ?_) nofun (.inr (List.mem_map_of_mem he))
  obtain ⟨f, hf, rfl⟩ := List.mem_map.mp ht
  exact ⟨neg_le_neg (hmax f hf), fun hz => hzero hz f hf⟩

theorem Agreeing.reordered (h : Agreeing events) (hp : events'.Perm events) :
    buildDisputeSummary events' = buildDisputeSummary events := by
  have hcount : ∀ p : DisputeEvent → Bool,
      (∀ e ∈ events, ∀ f ∈ events, e.disputeId = f.disputeId → p e = p f) →
        (firstEvents events').countP p = (firstEvents events).countP p := fun p => countP_firstEvents_perm hp
  have hblocking := hcount (·.isBlocking) fun e he f hf hid => (h.agree he hf hid).1
  have hearliest : (buildDisputeSummary events').earliestDisputeAt =
      (buildDisputeSummary events).earliestDisputeAt := by
    by_cases hne : events = []
    · rw [hne] at hp
      rw [hp.eq_nil, hne]
    · obtain ⟨e, he, hmin, hsame, hzero⟩ := h.opened hne
      rw [earliest_eq he hmin hsame hzero, earliest_eq (hp.mem_iff.mpr he)]
      · exact fun f hf => hmin f (hp.mem_iff.mp hf)
      · exact fun f hf => hsame f (hp.mem_iff.mp hf)
      · exact fun hz f hf => hzero hz f (hp.mem_iff.mp hf)
  have hlatest : (buildDisputeSummary events').latestEventAt = (buildDisputeSummary events).latestEventAt := by
    by_cases hne : events = []
    · rw [hne] at hp
      rw [hp.eq_nil, hne]
    · obtain ⟨e, he, hmax⟩ := events.toFinset.exists_max_image (·.eventAt)
        (List.toFinset_nonempty_iff events |>.mpr hne)
      rw [List.mem_toFinset] at he
      have hmax : ∀ f ∈ events, f.eventAt ≤ e.eventAt := fun f hf => hmax f (List.mem_toFinset.mpr hf)
      have hzero := h.occurred he hmax
      rw [latest_eq he hmax hzero, latest_eq (hp.mem_iff.mpr he)]
      · exact fun f hf => hmax f (hp.mem_iff.mp hf)
      · exact fun hz f hf => hzero hz f (hp.mem_iff.mp hf)
  rw [buildDisputeSummary_eq, buildDisputeSummary_eq] at hearliest hlatest
  rw [buildDisputeSummary_eq, buildDisputeSummary_eq]
  simp only at hearliest hlatest
  simp only [DisputeSummary.mk.injEq, hearliest, hlatest, hp.length_eq, hp.countP_eq, hblocking, and_true, true_and]
  refine ⟨hcount _ fun e he f hf hid => (h.agree he hf hid).2.1,
    hcount _ fun e he f hf hid => (h.agree he hf hid).2.2, ?_⟩
  rw [Bool.eq_iff_iff]
  have hnone : ∀ es : List DisputeEvent, (!(firstEvents es).any (·.isBlocking)) = true ↔
      (firstEvents es).countP (·.isBlocking) = 0 := by
    intro es
    simp [List.countP_eq_zero]
  rw [hnone, hnone, hblocking]

theorem Agreeing.faithful (h : Agreeing events) : Faithful events where
  canProceed := by
    rw [buildDisputeSummary_eq, Bool.not_eq_true', List.any_eq_false]
    constructor
    · intro hfirst e he
      have hex : ∃ f ∈ firstEvents events, f.disputeId = e.disputeId := exists_mem_firsts he.1 List.not_mem_nil
      obtain ⟨f, hf, hid⟩ := hex
      rw [← (h.agree (mem_firsts hf).1 he.1 hid).1]
      simpa using hfirst f hf
    · intro hlatest f hf
      obtain ⟨hf, -⟩ := mem_firsts hf
      obtain ⟨e, he, hmax⟩ := (events.filter (·.disputeId = f.disputeId)).toFinset.exists_max_image (·.eventAt)
        ⟨f, by simp [hf]⟩
      simp only [List.mem_toFinset, List.mem_filter, decide_eq_true_eq] at he hmax
      have hislatest : IsLatest events e := ⟨he.1, fun g hg hid => hmax g ⟨hg, hid.trans he.2⟩⟩
      rw [(h.agree hf he.1 he.2.symm).1, hlatest e hislatest]
      exact Bool.false_ne_true
  counts {latest} hl := by
    rw [buildDisputeSummary_eq]
    have hagree := fun e he => h.agree he (hl e he).2.1 (hl e he).1.symm
    exact ⟨countP_firstEvents fun e he => (hagree e he).1, countP_firstEvents fun e he => (hagree e he).2.1,
      countP_firstEvents fun e he => (hagree e he).2.2⟩
  reordered hp := h.reordered hp

/-! ## Events that do not agree -/

theorem Faithful.agree (h : Faithful events) {e f : DisputeEvent} (he : e ∈ events) (hf : f ∈ events)
    (hid : e.disputeId = f.disputeId) :
    e.isBlocking = f.isBlocking ∧ e.isUnresolved = f.isUnresolved ∧ e.isResolved = f.isResolved := by
  by_cases hef : e = f
  · rw [hef]
    exact ⟨rfl, rfl, rfl⟩
  · -- one of the two events comes first, or the other
    have hperm : events.Perm (e :: f :: (events.erase e).erase f) :=
      (List.perm_cons_erase he).trans ((List.perm_cons_erase ((List.mem_erase_of_ne (Ne.symm hef)).mpr hf)).cons e)
    have hsame := (h.reordered hperm.symm).trans (h.reordered (hperm.trans (List.Perm.swap f e _)).symm).symm
    have hcount : ∀ p : DisputeEvent → Bool, (firstEvents (e :: f :: (events.erase e).erase f)).countP p =
        (firstEvents (f :: e :: (events.erase e).erase f)).countP p → p e = p f := by
      intro p hp
      simp only [firstEvents, firsts, List.not_mem_nil, if_false, hid, List.mem_singleton, if_true,
        List.countP_cons] at hp
      cases hpe : p e <;> cases hpf : p f <;> simp_all
    rw [buildDisputeSummary_eq, buildDisputeSummary_eq, DisputeSummary.mk.injEq] at hsame
    obtain ⟨-, hb, hu, hr, -⟩ := hsame
    exact ⟨hcount _ hb, hcount _ hu, hcount _ hr⟩

/-- The events in an order in which those that satisfy `p` come first. -/
theorem filter_perm (p : DisputeEvent → Bool) (events : List DisputeEvent) :
    (events.filter p ++ events.filter fun e => !p e).Perm events :=
  List.filter_append_perm p events

/-- The same, where another event comes next. -/
theorem filter_cons_perm (he : e ∈ events) (hp : p e = false) :
    (events.filter p ++ e :: (events.filter fun f => !p f).erase e).Perm events := by
  have hrest : e ∈ events.filter fun f => !p f := List.mem_filter.mpr ⟨he, by rw [hp]; rfl⟩
  exact ((List.perm_cons_erase hrest).append_left (events.filter p)).symm.trans (filter_perm p events)

/-- The first opening time is reported in some order, and so in any. -/
theorem Faithful.earliest (h : Faithful events) (he : e ∈ events)
    (hmin : ∀ f ∈ events, e.openedAt ≤ f.openedAt) :
    (buildDisputeSummary events).earliestDisputeAt = some e.openedAt := by
  -- the dispute of `e` comes last, and `e` is its first event
  let p (f : DisputeEvent) : Bool := f.disputeId ≠ e.disputeId
  have hperm := filter_cons_perm (p := p) he (by simp [p])
  have hnew : e.disputeId ∉ (events.filter p).map DisputeEvent.disputeId := by
    intro hin
    obtain ⟨f, hf, hid⟩ := List.mem_map.mp hin
    simp [p, hid] at hf
  have hlast : ∀ f ∈ (events.filter fun f => !p f).erase e,
      f.disputeId ∈ e.disputeId :: (events.filter p).map DisputeEvent.disputeId := by
    intro f hf
    have hid : f.disputeId = e.disputeId := by simpa [p] using (List.mem_filter.mp (List.mem_of_mem_erase hf)).2
    exact hid ▸ List.mem_cons_self
  rw [← h.reordered hperm, earliestDisputeAt_eq, firstEvents, firsts_append_cons hnew, firsts_eq_nil hlast,
    List.map_append, List.foldl_append]
  refine keep_extreme earlier_iff Function.injective_id fun t ht => ?_
  obtain ⟨f, hf, rfl⟩ := List.mem_map.mp ((mem_of_foldl_keep ht).resolve_right nofun)
  exact hmin f (List.mem_of_mem_filter (mem_firsts hf).1)

theorem Faithful.opened (h : Faithful events) (hne : events ≠ []) :
    ∃ e ∈ events, (∀ f ∈ events, e.openedAt ≤ f.openedAt) ∧
      (∀ f ∈ events, f.disputeId = e.disputeId → f.openedAt = e.openedAt) ∧
      (e.openedAt = 0 → ∀ f ∈ events, f.openedAt = 0) := by
  obtain ⟨e₀, he₀, hmin⟩ := events.toFinset.exists_min_image (·.openedAt)
    ((List.toFinset_nonempty_iff events).mpr hne)
  rw [List.mem_toFinset] at he₀
  have hmin : ∀ f ∈ events, e₀.openedAt ≤ f.openedAt := fun f hf => hmin f (List.mem_toFinset.mpr hf)
  have hreport := h.earliest he₀ hmin
  -- else the first event of each dispute could be one that was opened later
  have hsame : ∃ e ∈ events, e.openedAt = e₀.openedAt ∧
      ∀ f ∈ events, f.disputeId = e.disputeId → f.openedAt = e₀.openedAt := by
    by_contra hno
    push Not at hno
    let p (f : DisputeEvent) : Bool := f.openedAt ≠ e₀.openedAt
    have hseen : ∀ f ∈ events.filter fun f => !p f,
        f.disputeId ∈ (events.filter p).map DisputeEvent.disputeId ++ [] := by
      intro f hf
      obtain ⟨hf, htime⟩ := List.mem_filter.mp hf
      obtain ⟨g, hg, hid, hlater⟩ := hno f hf (by simpa [p] using htime)
      rw [List.append_nil, ← hid]
      exact List.mem_map_of_mem (List.mem_filter.mpr ⟨hg, by simpa [p] using hlater⟩)
    rw [← h.reordered (filter_perm p events), earliestDisputeAt_eq, firstEvents, firsts_append,
      firsts_eq_nil hseen, List.append_nil] at hreport
    obtain ⟨f, hf, htime⟩ := List.mem_map.mp ((mem_of_foldl_keep hreport).resolve_right nofun)
    simpa [p, htime] using (List.mem_filter.mp (mem_firsts hf).1).2
  obtain ⟨e, he, htime, hall⟩ := hsame
  refine ⟨e, he, fun f hf => htime ▸ hmin f hf, fun f hf hid => (hall f hf hid).trans htime.symm, ?_⟩
  -- else a dispute that was opened at another time could come after those of the time 0
  intro hzero f hf
  by_contra hlater
  rw [htime] at hzero
  let p (g : DisputeEvent) : Bool := g.openedAt = 0 ∧ g.disputeId ≠ f.disputeId
  have hperm := filter_cons_perm (p := p) hf (by simp [p])
  have hnew : f.disputeId ∉ (events.filter p).map DisputeEvent.disputeId := by
    intro hin
    obtain ⟨g, hg, hid⟩ := List.mem_map.mp hin
    simp [p, hid] at hg
  rw [← h.reordered hperm, earliestDisputeAt_eq, firstEvents, firsts_append_cons hnew, List.map_append,
    List.foldl_append, List.map_cons, List.foldl_cons, keep_of_zero] at hreport
  · rcases mem_of_foldl_keep hreport with hin | hin
    · obtain ⟨g, hg, hgtime⟩ := List.mem_map.mp hin
      obtain ⟨hg, hseen⟩ := mem_firsts hg
      have hid : g.disputeId ≠ f.disputeId := fun hid => hseen (hid ▸ List.mem_cons_self)
      have hnot := (List.mem_filter.mp (List.mem_of_mem_erase hg)).2
      simp [p, hid, hgtime, hzero] at hnot
    · exact hlater ((Option.some.inj hin).trans hzero)
  · intro t ht
    obtain ⟨g, hg, rfl⟩ := List.mem_map.mp ((mem_of_foldl_keep ht).resolve_right nofun)
    have hzero := (List.mem_filter.mp (mem_firsts hg).1).2
    simp only [p, decide_eq_true_eq] at hzero
    exact hzero.1

theorem Faithful.occurred (h : Faithful events) (he : e ∈ events)
    (hmax : ∀ f ∈ events, f.eventAt ≤ e.eventAt) (hzero : e.eventAt = 0) : ∀ f ∈ events, f.eventAt = 0 := by
  have hreport : (buildDisputeSummary events).latestEventAt = some 0 := by
    have hperm := (List.perm_append_singleton e (events.erase e)).trans (List.perm_cons_erase he).symm
    rw [← h.reordered hperm, latestEventAt_eq, List.map_append, List.foldl_append, ← hzero]
    refine keep_extreme later_iff neg_injective fun t ht => ?_
    obtain ⟨f, hf, rfl⟩ := List.mem_map.mp ((mem_of_foldl_keep ht).resolve_right nofun)
    exact neg_le_neg (hmax f (List.mem_of_mem_erase hf))
  intro f hf
  by_contra hearlier
  let p (g : DisputeEvent) : Bool := g.eventAt = 0
  have hperm := filter_cons_perm (p := p) hf (by simp [p, hearlier])
  rw [← h.reordered hperm, latestEventAt_eq, List.map_append, List.foldl_append, List.map_cons, List.foldl_cons,
    keep_of_zero] at hreport
  · rcases mem_of_foldl_keep hreport with hin | hin
    · obtain ⟨g, hg, hgtime⟩ := List.mem_map.mp hin
      have hnot := (List.mem_filter.mp (List.mem_of_mem_erase hg)).2
      simp [p, hgtime] at hnot
    · exact hearlier (Option.some.inj hin)
  · intro t ht
    obtain ⟨g, hg, rfl⟩ := List.mem_map.mp ((mem_of_foldl_keep ht).resolve_right nofun)
    simpa [p] using (List.mem_filter.mp hg).2

/-- A summary is faithful exactly when no two events of a dispute differ in what
is counted of them. -/
theorem summary_faithful_iff (events : List DisputeEvent) : Faithful events ↔ Agreeing events := by
  constructor
  · exact fun h => ⟨h.agree, h.opened, h.occurred⟩
  · exact fun h => h.faithful

/-- A critical dispute is opened, and resolved a day later. -/
def openedEvent : DisputeEvent where
  disputeId := "d1"
  status := .opened
  category := .payment_mismatch
  severity := .critical
  openedAt := 1700000000000
  eventAt := 1700000000000

def resolvedEvent : DisputeEvent := { openedEvent with status := .resolved, eventAt := 1700086400000 }

/-- The payroll cannot proceed although the only dispute is resolved. -/
theorem resolved_still_blocks : ¬Faithful [openedEvent, resolvedEvent] := by
  intro h
  have hgo : (buildDisputeSummary [openedEvent, resolvedEvent]).canProceed = true := by
    refine h.canProceed.mpr fun e he => ?_
    obtain ⟨hmem, hlast⟩ := he
    rcases List.mem_pair.mp hmem with rfl | rfl
    · exact absurd (hlast resolvedEvent (by simp) rfl) (by decide)
    · rfl
  cases hgo

end ZkPayroll.Disputes
