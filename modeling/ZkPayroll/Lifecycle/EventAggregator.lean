import Mathlib.Algebra.Order.Ring.Cast
import Mathlib.Data.Prod.Lex
import ZkPayroll.Draft.DraftSerializer
import ZkPayroll.Framework.ByKey

/-!
# Aggregation of lifecycle events

`aggregateLifecycleEvents` of `lifecycle/eventAggregator.ts`. Timestamps and
sequences are finite numbers, and an event has details of any type, of which `∅`
has no properties.

An event without a sequence is compared by its position among the events that
are selected, and against the sequence of another. So two events of one time, of
which one has a sequence, may change places when other sources are left out.
The stream of some sources is the part of the whole stream that they have just
when that never happens (`aggregates_iff`).
-/

namespace ZkPayroll.Lifecycle

open Framework
open Draft (numberText)

variable {ν δ : Type}

/-! ## Data -/

inductive LifecycleEventSource where
  | payroll
  | treasury
  | wallet
  | contract
  deriving DecidableEq

def LifecycleEventSource.text : LifecycleEventSource → String
  | .payroll => "payroll"
  | .treasury => "treasury"
  | .wallet => "wallet"
  | .contract => "contract"

structure RawLifecycleEvent (ν δ : Type) where
  source : LifecycleEventSource
  type : String
  timestamp : ν
  sequence : Option ν := none
  actor : Option String := none
  summary : Option String := none
  details : Option δ := none

structure LifecycleEvent (ν δ : Type) where
  id : String
  timestamp : ν
  source : LifecycleEventSource
  type : String
  actor : String
  summary : String
  details : δ
  index : Nat

/-- The order of a stream in time. -/
inductive StreamOrder where
  | asc
  | desc

structure AggregateLifecycleEventsOptions where
  order : Option StreamOrder := none
  sources : Option (List LifecycleEventSource) := none

/-- The events, flat or grouped by source. -/
inductive RawEvents (ν δ : Type) where
  | flat (events : List (RawLifecycleEvent ν δ))
  | grouped (groups : List (List (RawLifecycleEvent ν δ)))

/-- All events, in the order in which they are listed. -/
def RawEvents.events : RawEvents ν δ → List (RawLifecycleEvent ν δ)
  | .flat events => events
  | .grouped groups => groups.flatten

/-! ## Aggregation -/

/-- `idCounter` is the counter after it was raised. -/
def generateLifecycleEventId [NumberFormat ν] (idCounter : Nat) (source : LifecycleEventSource) (timestamp : ν) : String :=
  s!"lc_{source.text}_{numberText (JsNumber.finite timestamp)}_{idCounter}"

def defaultSummary (event : RawLifecycleEvent ν δ) : String :=
  let actor := match event.actor with
    | some actor => if actor = "" then "" else " (" ++ actor ++ ")"
    | none => ""
  s!"{event.source.text}.{event.type}{actor}"

def selectEvents (sources : Option (List LifecycleEventSource)) (flat : List (RawLifecycleEvent ν δ)) :
    List (RawLifecycleEvent ν δ) :=
  match sources with
  | some sources => flat.filter fun event => event.source ∈ sources
  | none => flat

/-- An event with its position. -/
abbrev Positioned (ν δ : Type) := RawLifecycleEvent ν δ × Nat

/-- Events with where they are listed. -/
def withPosition (filtered : List (RawLifecycleEvent ν δ)) : List (Positioned ν δ) := filtered.zipIdx

section Aggregation

variable [CommRing ν] [LinearOrder ν]

/-- The comparison of two events. -/
def compareEvents (order : StreamOrder) (a b : Positioned ν δ) : ν :=
  if a.1.timestamp ≠ b.1.timestamp then
    match order with
    | .asc => a.1.timestamp - b.1.timestamp
    | .desc => b.1.timestamp - a.1.timestamp
  else
    let aSeq := a.1.sequence.getD a.2
    let bSeq := b.1.sequence.getD b.2
    if aSeq ≠ bSeq then
      match order with
      | .asc => aSeq - bSeq
      | .desc => bSeq - aSeq
    else a.2 - b.2

def sortEvents (order : StreamOrder) (events : List (Positioned ν δ)) : List (Positioned ν δ) :=
  events.insertionSort fun a b => compareEvents order a b ≤ 0

variable [EmptyCollection δ]

omit [CommRing ν] [LinearOrder ν] in
/-- An event of the stream, with no number yet. -/
def lifecycleEventOf (event : RawLifecycleEvent ν δ) : LifecycleEvent ν δ where
  id := ""
  timestamp := event.timestamp
  source := event.source
  type := event.type
  actor := event.actor.getD ""
  summary := event.summary.getD (defaultSummary event)
  details := event.details.getD ∅
  index := 0

variable [NumberFormat ν]

/-- The stream, where the counter of identifiers is `idCounter` before. -/
def aggregateLifecycleEvents (idCounter : Nat) (rawEvents : RawEvents ν δ) (options : AggregateLifecycleEventsOptions) :
    List (LifecycleEvent ν δ) :=
  let filtered := selectEvents options.sources rawEvents.events
  (sortEvents (options.order.getD .asc) (withPosition filtered)).mapIdx fun index w =>
    { lifecycleEventOf w.1 with
      id := generateLifecycleEventId (idCounter + index + 1) w.1.source w.1.timestamp
      index := index }

end Aggregation

/-! ## The order of a stream -/

section Order

variable [CommRing ν] [LinearOrder ν]

/-- What the events are compared by, one after the other. -/
def sortKey (order : StreamOrder) (w : Positioned ν δ) : ν ×ₗ ν ×ₗ ν :=
  match order with
  | .asc => toLex (w.1.timestamp, toLex (w.1.sequence.getD w.2, (w.2 : ν)))
  | .desc => toLex (-w.1.timestamp, toLex (-w.1.sequence.getD w.2, (w.2 : ν)))

variable [IsStrictOrderedRing ν]

/-- A difference of the first numbers that are not the same compares lists of
them. -/
theorem difference_le_iff (t t' s s' p p' : ν) :
    (if t ≠ t' then t - t' else if s ≠ s' then s - s' else p - p') ≤ 0 ↔
      toLex (t, toLex (s, p)) ≤ toLex (t', toLex (s', p')) := by
  rw [Prod.Lex.toLex_le_toLex, Prod.Lex.toLex_le_toLex]
  dsimp only
  split
  · rename_i ht
    rw [sub_nonpos, or_iff_left fun h => ht h.1]
    exact ⟨fun h => lt_of_le_of_ne h ht, le_of_lt⟩
  · rename_i ht
    rw [not_not] at ht
    rw [or_iff_right (by rw [ht]; exact lt_irrefl _), and_iff_right ht]
    split
    · rename_i hs
      rw [sub_nonpos, or_iff_left fun h => hs h.1]
      exact ⟨fun h => lt_of_le_of_ne h hs, le_of_lt⟩
    · rename_i hs
      rw [not_not] at hs
      rw [or_iff_right (by rw [hs]; exact lt_irrefl _), and_iff_right hs, sub_nonpos]

variable (order : StreamOrder)

theorem compareEvents_le_iff (a b : Positioned ν δ) :
    compareEvents order a b ≤ 0 ↔ sortKey order a ≤ sortKey order b := by
  cases order with
  | asc => exact difference_le_iff _ _ _ _ _ _
  | desc =>
    rw [sortKey, sortKey, ← difference_le_iff, compareEvents]
    simp only [ne_eq, neg_inj, neg_sub_neg]

theorem sortEvents_eq (events : List (Positioned ν δ)) :
    sortEvents order events = sortByKey (sortKey order) events := by
  have h := List.map_insertionSort (fun a b => compareEvents order a b ≤ 0)
    (fun a b => sortKey order a ≤ sortKey order b) id events fun a _ b _ => compareEvents_le_iff order a b
  rwa [List.map_id, List.map_id] at h

/-- Events at their places are told apart by their positions. -/
theorem apart_of_places {l : List (Positioned ν δ)} {events : List (RawLifecycleEvent ν δ)}
    (hplaces : ∀ w ∈ l, events[w.2]? = some w.1) : Apart (sortKey order) l := by
  intro a ha b hb h
  have hposition : (a.2 : ν) = b.2 := by
    cases order with
    | asc => exact congrArg (fun key => (ofLex (ofLex key).2).2) h
    | desc => exact congrArg (fun key => (ofLex (ofLex key).2).2) h
  have heq : a.2 = b.2 := Nat.cast_injective hposition
  refine Prod.ext (Option.some.inj ?_) heq
  rw [← hplaces a ha, ← hplaces b hb, heq]

end Order

/-! ## Other sources left out -/

section Sources

variable (sources : List LifecycleEventSource) (events : List (RawLifecycleEvent ν δ))

def isSelected (event : RawLifecycleEvent ν δ) : Bool := event.source ∈ sources

/-- The position, among the events that are selected, of the event at a place. -/
def newPosition (place : Nat) : Nat := (events.take place).countP (isSelected sources)

def reposition (w : Positioned ν δ) : Positioned ν δ := (w.1, newPosition sources events w.2)

/-- The events that are selected, with their positions among all. -/
def selectedPlaces : List (Positioned ν δ) := (withPosition events).filter fun w => isSelected sources w.1

variable {sources events}

theorem withPosition_filter :
    withPosition (events.filter (isSelected sources)) =
      (selectedPlaces sources events).map (reposition sources events) := by
  have hafter : ∀ rest pre : List (RawLifecycleEvent ν δ),
      (rest.filter (isSelected sources)).zipIdx (pre.countP (isSelected sources)) =
        ((rest.zipIdx pre.length).filter fun w => isSelected sources w.1).map (reposition sources (pre ++ rest)) := by
    intro rest
    induction rest with
    | nil => intro pre; rfl
    | cons e rest ih =>
      intro pre
      have hlength : pre.length + 1 = (pre ++ [e]).length := by
        rw [List.length_append]
        rfl
      have hrest := ih (pre ++ [e])
      rw [← hlength, List.append_assoc, List.singleton_append] at hrest
      rw [List.zipIdx_cons]
      by_cases he : isSelected sources e = true
      · rw [List.filter_cons_of_pos he,
          List.filter_cons_of_pos (p := fun w : Positioned ν δ => isSelected sources w.1) he, List.zipIdx_cons,
          List.map_cons, ← hrest, List.countP_append, List.countP_singleton, if_pos he]
        congr 1
        rw [reposition, newPosition, List.take_left]
      · rw [List.filter_cons_of_neg he,
          List.filter_cons_of_neg (p := fun w : Positioned ν δ => isSelected sources w.1) he, ← hrest,
          List.countP_append, List.countP_singleton, if_neg he, Nat.add_zero]
  exact hafter events []

/-- Among the events that are selected, an earlier one keeps an earlier position. -/
theorem newPosition_lt {i j : Nat} {e : RawLifecycleEvent ν δ} (he : events[i]? = some e)
    (hselected : isSelected sources e = true) (hij : i < j) :
    newPosition sources events i < newPosition sources events j := by
  have hsplit : events.take j = events.take i ++ (events.drop i).take (j - i) := by
    rw [← List.take_append_drop i (events.take j), List.take_take, Nat.min_eq_left hij.le, List.drop_take]
  have hdrop : e ∈ (events.drop i).take (j - i) := by
    obtain ⟨hi, rfl⟩ := List.getElem?_eq_some_iff.mp he
    rw [List.drop_eq_getElem_cons hi]
    obtain ⟨k, hk⟩ : ∃ k, j - i = k + 1 := ⟨j - i - 1, by omega⟩
    rw [hk, List.take_succ_cons]
    exact List.mem_cons_self
  rw [newPosition, newPosition, hsplit, List.countP_append]
  have hpos : 0 < ((events.drop i).take (j - i)).countP (isSelected sources) :=
    List.countP_pos_iff.mpr ⟨e, hdrop, hselected⟩
  omega

theorem mem_selectedPlaces {w : Positioned ν δ} : w ∈ selectedPlaces sources events ↔
    events[w.2]? = some w.1 ∧ isSelected sources w.1 = true := by
  rw [selectedPlaces, List.mem_filter, withPosition, List.mem_zipIdx_iff_getElem?]

variable {a b : Positioned ν δ} {a b : Positioned ν δ}

section

variable (ha : a ∈ selectedPlaces sources events) (hb : b ∈ selectedPlaces sources events)
include ha hb

theorem newPosition_lt_iff :
    newPosition sources events a.2 < newPosition sources events b.2 ↔ a.2 < b.2 := by
  rw [mem_selectedPlaces] at ha hb
  rcases Nat.lt_trichotomy a.2 b.2 with h | h | h
  · exact iff_of_true (newPosition_lt ha.1 ha.2 h) h
  · rw [h]
    exact iff_of_false (Nat.lt_irrefl _) (Nat.lt_irrefl _)
  · exact iff_of_false (Nat.lt_asymm (newPosition_lt hb.1 hb.2 h)) (Nat.lt_asymm h)

theorem newPosition_le_iff :
    newPosition sources events a.2 ≤ newPosition sources events b.2 ↔ a.2 ≤ b.2 := by
  rw [← not_lt, ← not_lt, newPosition_lt_iff hb ha]

theorem reposition_inj (h : reposition sources events a = reposition sources events b) : a = b := by
  have hevent : (reposition sources events a).1 = (reposition sources events b).1 := congrArg Prod.fst h
  have hposition : newPosition sources events a.2 = newPosition sources events b.2 := congrArg Prod.snd h
  have hle := newPosition_le_iff ha hb
  have hge := newPosition_le_iff hb ha
  exact Prod.ext hevent (by omega)

end

end Sources

section Streams

variable [CommRing ν] [LinearOrder ν]

/-- Whether an event with the sequence `s` comes before one without a sequence,
whose position is given; their places decide where the two are the same. -/
def ComesBefore (order : StreamOrder) (s : ν) (i j position : Nat) : Prop :=
  match order with
  | .asc => s < position ∨ s = position ∧ i < j
  | .desc => (position : ν) < s ∨ s = position ∧ i < j

/-- Of two events of one time that are selected, one with a sequence and one
without, the same comes first by the position among all events and by that among
the events that are selected. -/
def SequencesApart (order : StreamOrder) (sources : List LifecycleEventSource) (events : List (RawLifecycleEvent ν δ)) :
    Prop :=
  ∀ a ∈ selectedPlaces sources events, ∀ b ∈ selectedPlaces sources events, a.1.timestamp = b.1.timestamp →
    ∀ s, a.1.sequence = some s → b.1.sequence = none →
      (ComesBefore order s a.2 b.2 (newPosition sources events b.2) ↔ ComesBefore order s a.2 b.2 b.2)

variable {sources : List LifecycleEventSource} {events : List (RawLifecycleEvent ν δ)} [IsStrictOrderedRing ν]
variable {a b : Positioned ν δ} {a b : Positioned ν δ} {order : StreamOrder}

/-- An event with a sequence against one without, by a position of both. -/
theorem sortKey_le_iff_comesBefore {i j : Nat} {s : ν}
    (htime : a.1.timestamp = b.1.timestamp) (ha : a.1.sequence = some s) (hb : b.1.sequence = none)
    (hplaces : a.2 ≤ b.2 ↔ i < j) : sortKey order a ≤ sortKey order b ↔ ComesBefore order s i j b.2 := by
  cases order with
  | asc =>
    rw [sortKey, sortKey, Prod.Lex.toLex_le_toLex, Prod.Lex.toLex_le_toLex, ha, hb]
    simp only [htime, lt_irrefl, false_or, true_and, Option.getD_some, Option.getD_none, Nat.cast_le, hplaces,
      ComesBefore]
  | desc =>
    rw [sortKey, sortKey, Prod.Lex.toLex_le_toLex, Prod.Lex.toLex_le_toLex, ha, hb]
    simp only [htime, lt_irrefl, false_or, true_and, Option.getD_some, Option.getD_none, Nat.cast_le, hplaces,
      ComesBefore, neg_lt_neg_iff, neg_inj]

/-- Two events keep their order, if the times or both of the sequences decide it,
or if there is no sequence. -/
theorem sameOrder_of_alike (ha : a ∈ selectedPlaces sources events)
    (hb : b ∈ selectedPlaces sources events)
    (halike : a.1.timestamp = b.1.timestamp → (a.1.sequence = none ↔ b.1.sequence = none)) :
    sortKey order (reposition sources events a) ≤ sortKey order (reposition sources events b) ↔
      sortKey order a ≤ sortKey order b := by
  have hlt := newPosition_lt_iff ha hb
  have hgt := newPosition_lt_iff hb ha
  have hle := newPosition_le_iff ha hb
  have heq : newPosition sources events a.2 = newPosition sources events b.2 ↔ a.2 = b.2 := by omega
  have hsequences : a.1.timestamp = b.1.timestamp →
      (∃ s t, a.1.sequence = some s ∧ b.1.sequence = some t) ∨ a.1.sequence = none ∧ b.1.sequence = none := by
    intro htime
    cases has : a.1.sequence with
    | none => exact .inr ⟨rfl, (halike htime).mp has⟩
    | some s =>
      cases hbs : b.1.sequence with
      | none =>
        have hnone := (halike htime).mpr hbs
        rw [has] at hnone
        cases hnone
      | some t => exact .inl ⟨s, t, rfl, rfl⟩
  cases order with
  | asc =>
    simp only [sortKey, Prod.Lex.toLex_le_toLex, reposition]
    refine or_congr Iff.rfl (and_congr_right fun htime => ?_)
    rcases hsequences htime with ⟨s, t, hs, ht⟩ | ⟨hs, ht⟩
    · simp only [hs, ht, Option.getD_some, Nat.cast_le, hle]
    · simp only [hs, ht, Option.getD_none, Nat.cast_lt, Nat.cast_inj, Nat.cast_le, hlt, heq, hle]
  | desc =>
    simp only [sortKey, Prod.Lex.toLex_le_toLex, reposition, neg_lt_neg_iff, neg_inj]
    refine or_congr Iff.rfl (and_congr_right fun htime => ?_)
    rcases hsequences htime with ⟨s, t, hs, ht⟩ | ⟨hs, ht⟩
    · simp only [hs, ht, Option.getD_some, Nat.cast_le, hle]
    · simp only [hs, ht, Option.getD_none, Nat.cast_lt, Nat.cast_inj, Nat.cast_le, hgt, heq, hle]

/-- An event with a sequence and one without keep their order just when the
sequence is on the same side of both positions. -/
theorem sameOrder_iff_comesBefore {s : ν}
    (ha : a ∈ selectedPlaces sources events) (hb : b ∈ selectedPlaces sources events)
    (htime : a.1.timestamp = b.1.timestamp) (has : a.1.sequence = some s) (hbs : b.1.sequence = none) :
    (sortKey order (reposition sources events a) ≤ sortKey order (reposition sources events b) ↔
        sortKey order a ≤ sortKey order b) ↔
      (ComesBefore order s a.2 b.2 (newPosition sources events b.2) ↔ ComesBefore order s a.2 b.2 b.2) := by
  have hne : a.2 ≠ b.2 := by
    intro heq
    have hevents := (mem_selectedPlaces.mp ha).1
    rw [heq, (mem_selectedPlaces.mp hb).1, Option.some.injEq] at hevents
    rw [hevents, has] at hbs
    cases hbs
  have hlt : a.2 ≤ b.2 ↔ a.2 < b.2 := ⟨fun h => by omega, le_of_lt⟩
  have hnew : sortKey order (reposition sources events a) ≤ sortKey order (reposition sources events b) ↔
      ComesBefore order s a.2 b.2 (newPosition sources events b.2) :=
    sortKey_le_iff_comesBefore htime has hbs ((newPosition_le_iff ha hb).trans hlt)
  have hold : sortKey order a ≤ sortKey order b ↔ ComesBefore order s a.2 b.2 b.2 :=
    sortKey_le_iff_comesBefore htime has hbs hlt
  rw [hnew, hold]

/-- The events that are selected are sorted alike by both positions just when
sequences are apart. -/
theorem sortByKey_reposition_iff (order : StreamOrder) :
    sortByKey (fun w => sortKey order (reposition sources events w)) (selectedPlaces sources events) =
        sortByKey (sortKey order) (selectedPlaces sources events) ↔ SequencesApart order sources events := by
  have hplaces : Apart (sortKey (ν := ν) order) (selectedPlaces sources events) :=
    apart_of_places order fun w hw => (mem_selectedPlaces.mp hw).1
  have hfiltered : Apart (sortKey (ν := ν) order) (withPosition (events.filter (isSelected sources))) :=
    apart_of_places order fun w hw => List.mem_zipIdx_iff_getElem?.mp hw
  rw [withPosition_filter] at hfiltered
  have hpositions : Apart (fun w => sortKey (ν := ν) order (reposition sources events w))
      (selectedPlaces sources events) := fun a ha b hb h =>
    reposition_inj ha hb (hfiltered _ (List.mem_map_of_mem ha) _ (List.mem_map_of_mem hb) h)
  rw [sortByKey_eq_iff hpositions hplaces]
  constructor
  · intro h a ha b hb htime s has hbs
    exact (sameOrder_iff_comesBefore ha hb htime has hbs).mp (h a ha b hb)
  · intro h a ha b hb
    by_cases halike : a.1.timestamp = b.1.timestamp → (a.1.sequence = none ↔ b.1.sequence = none)
    · exact sameOrder_of_alike ha hb halike
    · obtain ⟨htime, hunlike⟩ := Classical.not_imp.mp halike
      cases has : a.1.sequence with
      | some s =>
        cases hbs : b.1.sequence with
        | some t => exact absurd (iff_of_false (by rw [has]; exact Option.some_ne_none s)
            (by rw [hbs]; exact Option.some_ne_none t)) hunlike
        | none => exact (sameOrder_iff_comesBefore ha hb htime has hbs).mpr (h a ha b hb htime s has hbs)
      | none =>
        cases hbs : b.1.sequence with
        | none => exact absurd (iff_of_true has hbs) hunlike
        | some t =>
          have hne : b ≠ a := by
            rintro rfl
            rw [has] at hbs
            cases hbs
          have hback := (sameOrder_iff_comesBefore hb ha htime.symm hbs has).mpr (h b hb a ha htime.symm t hbs has)
          exact sameOrder_symm (f := fun w => sortKey order (reposition sources events w)) (g := sortKey order)
            (fun heq => hne (hpositions b hb a ha heq)) (fun heq => hne (hplaces b hb a ha heq)) hback

end Streams

/-! ## The stream of some sources -/

section Aggregates

variable [CommRing ν] [LinearOrder ν] [EmptyCollection δ] [NumberFormat ν]

omit [CommRing ν] [LinearOrder ν] [EmptyCollection δ] [NumberFormat ν] in
/-- An event of the stream without its numbers. -/
def LifecycleEvent.unnumbered (event : LifecycleEvent ν δ) : LifecycleEvent ν δ := { event with id := "", index := 0 }

omit [CommRing ν] [NumberFormat ν] [EmptyCollection δ] in
/-- The order that is asked for. -/
def InTimeOrder (order : StreamOrder) (a b : LifecycleEvent ν δ) : Prop :=
  match order with
  | .asc => a.timestamp ≤ b.timestamp
  | .desc => b.timestamp ≤ a.timestamp

/-- The stream of some sources: the events that are selected, by their time, as
the whole stream has them. -/
structure Aggregates (idCounter : Nat) (rawEvents : RawEvents ν δ) (order : Option StreamOrder)
    (sources : List LifecycleEventSource) : Prop where
  perm : ((aggregateLifecycleEvents idCounter rawEvents ⟨order, some sources⟩).map LifecycleEvent.unnumbered).Perm
    ((selectEvents (some sources) rawEvents.events).map lifecycleEventOf)
  ordered : (aggregateLifecycleEvents idCounter rawEvents ⟨order, some sources⟩).Pairwise
    (InTimeOrder (order.getD .asc))
  restricts : (aggregateLifecycleEvents idCounter rawEvents ⟨order, some sources⟩).map LifecycleEvent.unnumbered =
    ((aggregateLifecycleEvents idCounter rawEvents ⟨order, none⟩).filter fun event =>
      event.source ∈ sources).map LifecycleEvent.unnumbered
  /-- So it is with the events themselves, which may be shown alike. -/
  places : sortEvents (order.getD .asc) (withPosition (selectEvents (some sources) rawEvents.events)) =
    ((sortEvents (order.getD .asc) (withPosition rawEvents.events)).filter fun w => isSelected sources w.1).map
      (reposition sources rawEvents.events)

theorem unnumbered_aggregate (idCounter : Nat) (rawEvents : RawEvents ν δ) (options : AggregateLifecycleEventsOptions) :
    (aggregateLifecycleEvents idCounter rawEvents options).map LifecycleEvent.unnumbered =
      (sortEvents (options.order.getD .asc) (withPosition (selectEvents options.sources rawEvents.events))).map
        fun w => lifecycleEventOf w.1 := by
  rw [aggregateLifecycleEvents]
  refine List.ext_getElem (by simp) fun i h₁ h₂ => ?_
  simp [LifecycleEvent.unnumbered, lifecycleEventOf]

variable [IsStrictOrderedRing ν]

omit [NumberFormat ν] in
theorem timestamp_le_of_sortKey {order : StreamOrder} {a b : Positioned ν δ} (h : sortKey order a ≤ sortKey order b) :
    InTimeOrder order (lifecycleEventOf a.1) (lifecycleEventOf b.1) := by
  cases order with
  | asc =>
    rw [sortKey, sortKey, Prod.Lex.toLex_le_toLex] at h
    exact h.elim le_of_lt fun h => le_of_eq h.1
  | desc =>
    rw [sortKey, sortKey, Prod.Lex.toLex_le_toLex] at h
    exact neg_le_neg_iff.mp (h.elim le_of_lt fun h => le_of_eq h.1)

/-- The stream has the events that are selected, in the order of their times. -/
theorem aggregate_perm_ordered (idCounter : Nat) (rawEvents : RawEvents ν δ) (options : AggregateLifecycleEventsOptions) :
    ((aggregateLifecycleEvents idCounter rawEvents options).map LifecycleEvent.unnumbered).Perm
        ((selectEvents options.sources rawEvents.events).map lifecycleEventOf) ∧
      (aggregateLifecycleEvents idCounter rawEvents options).Pairwise (InTimeOrder (options.order.getD .asc)) := by
  have hstream := unnumbered_aggregate idCounter rawEvents options
  constructor
  · have hfst : (withPosition (selectEvents options.sources rawEvents.events)).map
        (fun w => lifecycleEventOf w.1) = (selectEvents options.sources rawEvents.events).map lifecycleEventOf := by
      have hevents := List.zipIdx_map_fst 0 (selectEvents options.sources rawEvents.events)
      conv_rhs => rw [← hevents, List.map_map]
      rfl
    rw [hstream, sortEvents_eq, ← hfst]
    exact (sortByKey_perm _ _).map _
  · have hpairwise : ((aggregateLifecycleEvents idCounter rawEvents options).map LifecycleEvent.unnumbered).Pairwise
        (InTimeOrder (options.order.getD .asc)) := by
      rw [hstream, sortEvents_eq, List.pairwise_map]
      exact (sortByKey_sorted _ _).imp timestamp_le_of_sortKey
    have hevents := List.pairwise_map.mp hpairwise
    exact hevents

/-- The stream of some sources is the part of the whole stream that they have
just when sequences are apart. -/
theorem aggregates_iff (idCounter : Nat) (rawEvents : RawEvents ν δ) (order : Option StreamOrder)
    (sources : List LifecycleEventSource) : Aggregates idCounter rawEvents order sources ↔
      SequencesApart (order.getD .asc) sources rawEvents.events := by
  obtain ⟨hperm, hordered⟩ := aggregate_perm_ordered idCounter rawEvents ⟨order, some sources⟩
  have hplaces : sortEvents (order.getD .asc) (withPosition (selectEvents (some sources) rawEvents.events)) =
      ((sortEvents (order.getD .asc) (withPosition rawEvents.events)).filter fun w => isSelected sources w.1).map
        (reposition sources rawEvents.events) ↔ SequencesApart (order.getD .asc) sources rawEvents.events := by
    have hall : Apart (sortKey (ν := ν) (order.getD .asc)) (withPosition rawEvents.events) :=
      apart_of_places _ fun w hw => List.mem_zipIdx_iff_getElem?.mp hw
    have hselect : withPosition (selectEvents (some sources) rawEvents.events) =
        (selectedPlaces sources rawEvents.events).map (reposition sources rawEvents.events) := withPosition_filter
    rw [← sortByKey_reposition_iff, hselect, sortEvents_eq, sortEvents_eq, map_sortByKey, filter_sortByKey hall]
    refine ⟨fun h => eq_of_map_eq (fun a ha b hb => ?_) h, congrArg _⟩
    exact reposition_inj ((sortByKey_perm _ _).mem_iff.mp ha) ((sortByKey_perm _ _).mem_iff.mp hb)
  refine ⟨fun h => hplaces.mp h.places, fun h => ⟨hperm, hordered, ?_, hplaces.mpr h⟩⟩
  have hwhole : ((aggregateLifecycleEvents idCounter rawEvents ⟨order, none⟩).filter fun event =>
      event.source ∈ sources).map LifecycleEvent.unnumbered =
      ((aggregateLifecycleEvents idCounter rawEvents ⟨order, none⟩).map LifecycleEvent.unnumbered).filter fun event =>
        event.source ∈ sources := by
    rw [List.filter_map]
    rfl
  rw [hwhole, unnumbered_aggregate, unnumbered_aggregate, hplaces.mpr h, List.filter_map, List.map_map]
  rfl

end Aggregates

/-- Two events of one time that have sequences, and one of another source. -/
def sequencedEvents : RawEvents Int (List Unit) :=
  .grouped [[{ source := .wallet, type := "signature_requested", timestamp := 750, sequence := some 1 }],
    [{ source := .contract, type := "payment_executed", timestamp := 750, sequence := some 0 },
      { source := .treasury, type := "funds_deposited", timestamp := 500, sequence := some 7 }]]

theorem sequencedEvents_aggregated : Aggregates 0 sequencedEvents none [.contract, .wallet] := by
  refine (aggregates_iff 0 sequencedEvents none [.contract, .wallet]).mpr fun a _ b hb _ s _ hnone => ?_
  have hall : ∀ event ∈ sequencedEvents.events, event.sequence ≠ none := by decide
  exact absurd hnone (hall b.1 (List.mem_of_getElem? (mem_selectedPlaces.mp hb).1))

/-- Three events of one time, of which the last has a sequence. -/
def mixedEvents : RawEvents Int (List Unit) :=
  .flat [{ source := .treasury, type := "funds_deposited", timestamp := 1000 },
    { source := .payroll, type := "cycle_started", timestamp := 1000 },
    { source := .contract, type := "payment_executed", timestamp := 1000, sequence := some 0 }]

/-- Without the event of the treasury, the other two change places. -/
theorem mixedEvents_change_places : ¬ Aggregates 0 mixedEvents none [.payroll, .contract] := by
  intro h
  have htypes := congrArg (List.map LifecycleEvent.type) h.restricts
  revert htypes
  decide

end ZkPayroll.Lifecycle
