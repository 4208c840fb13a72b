import ZkPayroll.Framework.Transition
import ZkPayroll.Indexer.ProcessedEvents

/-!
# Events that are processed at the same time

Calls of `processEvent` on one processor, interleaved at their awaits. A call
alone does what `processEvent` does (`alone_processEvent`). Others may record
the event of a call after it asked the detector, or save a later cursor after it
loaded one. In the runs in which none does, and no position is `NaN`, an event
is reported once as processed and the cursor is not behind that of any
(`processed_once`).
-/

namespace ZkPayroll.Indexer

open Framework ZkPayroll.Core

variable {ν : Type} [LinearOrder ν]

/-! ## Calls -/

/-- Where a call of `processEvent` stands: at one of its awaits, or at its end. -/
inductive EventCall (ν : Type) where
  | detecting (event : EventData ν)
  | loading (event : EventData ν)
  | notifying (event : EventData ν)
  | recording (event : EventData ν)
  | saving (event : EventData ν)
  | returned (event : EventData ν) (result : EventProcessingResult)
  deriving DecidableEq

/-- What a call does when its await is settled, up to the next one. The time
that it writes, with the record or with the cursor, is `now`. -/
def EventCall.settle (toISOString : Int → String) (options : EventProcessorOptions) (s : EventStores ν)
    (settled : Settled) (now : Int) : EventCall ν → EventStores ν × EventCall ν
  | .detecting event =>
    match settled with
    | .rejected e _ => (s, .returned event (caughtResult e))
    | .fulfilled =>
      let replayResult := s.detector.detectReplay toISOString event.id event.batchRoot
      if replayResult.isReplayed then (s, .returned event (failedResult replayResult.reason true))
      else (s, .loading event)
  | .loading event =>
    match settled with
    | .rejected e _ => (s, .returned event (caughtResult e))
    | .fulfilled =>
      if isCursorCorrupted s.cursor (createCursorState event) then
        if options.onCorruptionDetected then (s, .notifying event) else (s, .returned event corruptedResult)
      else (s, .recording event)
  | .notifying event =>
    match settled with
    | .rejected e _ => (s, .returned event (caughtResult e))
    | .fulfilled => (s, .returned event corruptedResult)
  | .recording event =>
    match settled with
    | .rejected e tookEffect => (if tookEffect then s.recordEvent event now else s, .returned event (caughtResult e))
    | .fulfilled => (s.recordEvent event now, .saving event)
  | .saving event =>
    match settled with
    | .rejected e tookEffect => (if tookEffect then s.saveCursor event now else s, .returned event (caughtResult e))
    | .fulfilled => (s.saveCursor event now, .returned event successResult)
  | .returned event result => (s, .returned event result)

/-- Calls start with any event; a turn settles the await of a call, where the
condition `ok` holds. -/
def eventTurns (toISOString : Int → String) (options : EventProcessorOptions)
    (ok : EventStores ν → EventCall ν → Settled → Prop) : Turns (EventStores ν) (EventCall ν) where
  start _ call := ∃ event, call = .detecting event
  turn s call s' call' := ∃ settled now, ok s call settled ∧
    call.settle toISOString options s settled now = (s', call')

variable {toISOString : Int → String} {options : EventProcessorOptions} {s : EventStores ν} {event : EventData ν}
  {awaits : Awaits}

/-- A turn of a call that nothing else is asked of. -/
theorem alone_settle {s' t : EventStores ν} {call call' c : EventCall ν} (settled : Settled) (now : Int)
    (h : call.settle toISOString options s settled now = (s', call'))
    (hrest : (eventTurns toISOString options fun _ _ _ => True).Alone s' call' t c) :
    (eventTurns toISOString options fun _ _ _ => True).Alone s call t c :=
  .turn ⟨settled, now, trivial, h⟩ hrest

theorem settle_detecting (hnew : ¬s.HasRecord event) (now : Int) :
    (EventCall.detecting event).settle toISOString options s .fulfilled now = (s, .loading event) := by
  simp only [EventCall.settle, detectReplay_of_not_hasRecord hnew, Bool.false_eq_true, if_false]

theorem settle_loading (hcursor : isCursorCorrupted s.cursor (createCursorState event) = false) (now : Int) :
    (EventCall.loading event).settle toISOString options s .fulfilled now = (s, .recording event) := by
  simp only [EventCall.settle, hcursor, Bool.false_eq_true, if_false]

theorem settle_loading_notifying (hcursor : isCursorCorrupted s.cursor (createCursorState event) = true)
    (hoption : options.onCorruptionDetected = true) (now : Int) :
    (EventCall.loading event).settle toISOString options s .fulfilled now = (s, .notifying event) := by
  simp only [EventCall.settle, hcursor, hoption, if_true]

variable {s' : EventStores ν}
variable {result : EventProcessingResult}

/-- A call that is not interleaved with others does what `processEvent` does. -/
theorem alone_processEvent (h : processEvent toISOString options event awaits s = .ok result s') :
    (eventTurns toISOString options fun _ _ _ => True).Alone s (.detecting event) s' (.returned event result) := by
  by_cases hproceeds : Proceeds s event awaits
  · rw [processEvent_of_proceeds toISOString options hproceeds] at h
    refine alone_settle .fulfilled 0 (settle_detecting hproceeds.isNew 0)
      (alone_settle .fulfilled 0 (settle_loading hproceeds.inOrder 0) ?_)
    cases hrecord : awaits.record with
    | rejected e tookEffect =>
      rw [hrecord] at h
      obtain ⟨rfl, rfl⟩ := EStateM.Result.ok.inj h
      exact alone_settle (.rejected e tookEffect) awaits.recordedAt rfl .refl
    | fulfilled =>
      rw [hrecord] at h
      refine alone_settle .fulfilled awaits.recordedAt rfl ?_
      cases hsave : awaits.save with
      | rejected e tookEffect =>
        rw [hsave] at h
        obtain ⟨rfl, rfl⟩ := EStateM.Result.ok.inj h
        exact alone_settle (.rejected e tookEffect) awaits.capturedAt rfl .refl
      | fulfilled =>
        rw [hsave] at h
        obtain ⟨rfl, rfl⟩ := EStateM.Result.ok.inj h
        exact alone_settle .fulfilled awaits.capturedAt rfl .refl
  · obtain ⟨ending, hstops, heq⟩ := processEvent_of_not_proceeds toISOString options hproceeds
    rw [heq] at h
    obtain ⟨rfl, rfl⟩ := EStateM.Result.ok.inj h
    cases hstops with
    | @detectRejected e tookEffect h => exact alone_settle (.rejected e tookEffect) 0 rfl .refl
    | duplicate _ hrecord =>
      refine alone_settle .fulfilled 0 ?_ .refl
      simp only [EventCall.settle, isReplayed_of_hasRecord hrecord, if_true, resultOf]
    | @loadRejected e tookEffect _ hnew h =>
      exact alone_settle .fulfilled 0 (settle_detecting hnew 0)
        (alone_settle (.rejected e tookEffect) 0 rfl .refl)
    | corrupted _ hnew _ hcursor _ =>
      refine alone_settle .fulfilled 0 (settle_detecting hnew 0) ?_
      cases hoption : options.onCorruptionDetected with
      | false =>
        refine alone_settle .fulfilled 0 ?_ .refl
        simp only [EventCall.settle, hcursor, hoption, if_true, Bool.false_eq_true, if_false, resultOf]
      | true =>
        exact alone_settle .fulfilled 0 (settle_loading_notifying hcursor hoption 0)
          (alone_settle .fulfilled 0 rfl .refl)
    | @notifyRejected e tookEffect _ hnew _ hcursor hoption _ =>
      exact alone_settle .fulfilled 0 (settle_detecting hnew 0)
        (alone_settle .fulfilled 0 (settle_loading_notifying hcursor hoption 0)
          (alone_settle (.rejected e tookEffect) 0 rfl .refl))

/-! ## Turns -/

/-- The event that a call reported as newly processed. -/
def EventCall.processed : EventCall ν → Option (EventData ν)
  | .returned event result => if result.success then some event else none
  | _ => none

/-- The event that a call has recorded and has not failed to save. -/
def EventCall.claimed : EventCall ν → Option (EventData ν)
  | .saving event => some event
  | call => call.processed

/-- What a call has checked is still so when it changes the stores. -/
def ChecksHold (s : EventStores ν) (call : EventCall ν) (settled : Settled) : Prop :=
  match call, settled with
  | .recording event, .fulfilled => ¬s.HasRecord event
  | .saving event, .fulfilled | .saving event, .rejected _ true =>
    isCursorCorrupted s.cursor (createCursorState event) = false ∧ (createCursorState event).Comparable
  | _, _ => True

/-- What a turn of a call can do. -/
inductive TurnEffect (s : EventStores ν) : EventCall ν → EventStores ν → EventCall ν → Prop
  | idle {call : EventCall ν} : TurnEffect s call s call
  | unclaimed {call call' : EventCall ν} (h : call'.claimed = none) : TurnEffect s call s call'
  | recorded {event : EventData ν} {now : Int} (hnew : ¬s.HasRecord event) :
      TurnEffect s (.recording event) (s.recordEvent event now) (.saving event)
  | recordedLate {event : EventData ν} {now : Int} {e : SdkError} :
      TurnEffect s (.recording event) (s.recordEvent event now) (.returned event (caughtResult e))
  | saved {event : EventData ν} {now : Int} {result : EventProcessingResult}
      (hcursor : isCursorCorrupted s.cursor (createCursorState event) = false)
      (hnumbers : (createCursorState event).Comparable) :
      TurnEffect s (.saving event) (s.saveCursor event now) (.returned event result)

/-- A call that asks the detector claims nothing. -/
theorem unclaimed_of_detecting {settled : Settled} {now : Int} {call' : EventCall ν}
    (h : (EventCall.detecting event).settle toISOString options s settled now = (s', call')) :
    s' = s ∧ call'.claimed = none := by
  cases settled with
  | rejected e tookEffect =>
    cases h
    exact ⟨rfl, rfl⟩
  | fulfilled =>
    simp only [EventCall.settle] at h
    split at h
    · cases h
      exact ⟨rfl, rfl⟩
    · cases h
      exact ⟨rfl, rfl⟩

/-- Nor does one that loads the cursor. -/
theorem unclaimed_of_loading {settled : Settled} {now : Int} {call' : EventCall ν}
    (h : (EventCall.loading event).settle toISOString options s settled now = (s', call')) :
    s' = s ∧ call'.claimed = none := by
  cases settled with
  | rejected e tookEffect =>
    cases h
    exact ⟨rfl, rfl⟩
  | fulfilled =>
    simp only [EventCall.settle] at h
    split at h
    · split at h
      · cases h
        exact ⟨rfl, rfl⟩
      · cases h
        exact ⟨rfl, rfl⟩
    · cases h
      exact ⟨rfl, rfl⟩

variable {call call' : EventCall ν}

theorem turn_effect (h : (eventTurns toISOString options ChecksHold).turn s call s' call')
    : TurnEffect s call s' call' := by
  obtain ⟨settled, now, hok, hsettle⟩ := h
  cases call with
  | detecting event =>
    obtain ⟨rfl, hnone⟩ := unclaimed_of_detecting hsettle
    exact .unclaimed hnone
  | loading event =>
    obtain ⟨rfl, hnone⟩ := unclaimed_of_loading hsettle
    exact .unclaimed hnone
  | notifying event =>
    cases settled with
    | rejected e tookEffect | fulfilled =>
      cases hsettle
      exact .unclaimed rfl
  | recording event =>
    match settled, hok with
    | .fulfilled, hnew =>
      cases hsettle
      exact .recorded hnew
    | .rejected e false, _ =>
      cases hsettle
      exact .unclaimed rfl
    | .rejected e true, _ =>
      cases hsettle
      exact .recordedLate
  | saving event =>
    match settled, hok with
    | .fulfilled, ⟨hcursor, hnumbers⟩ | .rejected e true, ⟨hcursor, hnumbers⟩ =>
      cases hsettle
      exact .saved hcursor hnumbers
    | .rejected e false, _ =>
      cases hsettle
      exact .unclaimed rfl
  | returned event result =>
    cases hsettle
    exact .idle

/-! ## Assertions -/

/-- The positions of the stored cursor are numbers. -/
def EventStores.NumberedCursor (s : EventStores ν) : Prop := ∀ c ∈ s.cursor, c.state.Comparable

omit [LinearOrder ν] in
theorem numberedCursor_saveCursor {now : Int} (h : (createCursorState event).Comparable) :
    (s.saveCursor event now).NumberedCursor := by
  intro c hc
  obtain rfl := Option.some.inj hc
  exact h

/-- What is so of the stores: `initial` is the cursor of the start. -/
structure CursorKept (initial : Option (EventCursor ν)) (s : EventStores ν) : Prop where
  notBehind : NotBehind initial s.cursor
  moved : s.cursor = initial ∨ s.NumberedCursor

/-- What is so of the event of a call. -/
structure EventKept (s : EventStores ν) (call : EventCall ν) : Prop where
  hasRecord : ∀ event ∈ call.claimed, s.HasRecord event
  notBehind : ∀ event ∈ call.processed, ∀ capturedAt, NotBehind (some (cursorOf event capturedAt)) s.cursor
  numbered : ∀ event ∈ call.processed, s.NumberedCursor

/-- Two calls have claimed different events. -/
def ClaimsApart (call call' : EventCall ν) : Prop :=
  ∀ event ∈ call.claimed, ∀ event' ∈ call'.claimed,
    createCompositeKey event.id event.batchRoot ≠ createCompositeKey event'.id event'.batchRoot

variable {call : EventCall ν}

omit [LinearOrder ν] in
theorem claimed_of_processed (h : event ∈ call.processed) : event ∈ call.claimed := by
  cases call with
  | returned => exact h
  | _ => cases h

theorem EventKept.of_unclaimed (h : call.claimed = none) : EventKept s call := by
  have hnone (event : EventData ν) (hevent : event ∈ call.claimed) : False := by
    rw [h] at hevent
    cases hevent
  exact ⟨fun event he => (hnone event he).elim, fun event he => (hnone event (claimed_of_processed he)).elim,
    fun event he => (hnone event (claimed_of_processed he)).elim⟩

/-- A record that is made takes nothing from what is so of a call. -/
theorem EventKept.record (h : EventKept s call) (now : Int) :
    EventKept (s.recordEvent event now) call where
  hasRecord e he := hasRecord_recordEvent.mpr (.inr (h.hasRecord e he))
  notBehind := h.notBehind
  numbered := h.numbered

/-- Nor does a cursor that is not behind the one that was stored. -/
theorem EventKept.save (h : EventKept s call) (now : Int)
    (hcursor : isCursorCorrupted s.cursor (createCursorState event) = false)
    (hnumbers : (createCursorState event).Comparable) : EventKept (s.saveCursor event now) call where
  hasRecord := h.hasRecord
  notBehind e he capturedAt := (h.notBehind e he capturedAt).trans (notBehind_cursorOf hcursor) (h.numbered e he)
  numbered _ _ := numberedCursor_saveCursor hnumbers

variable {initial : Option (EventCursor ν)}

theorem CursorKept.save (h : CursorKept initial s) (now : Int)
    (hcursor : isCursorCorrupted s.cursor (createCursorState event) = false)
    (hnumbers : (createCursorState event).Comparable) : CursorKept initial (s.saveCursor event now) where
  notBehind := by
    have hsaved : NotBehind s.cursor (s.saveCursor event now).cursor := notBehind_cursorOf hcursor
    rcases h.moved with hstart | hnumbered
    · rwa [hstart] at hsaved
    · exact h.notBehind.trans hsaved hnumbered
  moved := .inr (numberedCursor_saveCursor hnumbers)

omit [LinearOrder ν] in
/-- A call that has come to its end claims the event that it was saving, or
none. -/
theorem mem_claimed_returned {e : EventData ν}
    (h : e ∈ (EventCall.returned event result).claimed) : e = event := by
  change (if result.success then some event else none) = some e at h
  split at h
  · exact (Option.some.inj h).symm
  · cases h

theorem notBehind_saveCursor (now capturedAt : Int) :
    NotBehind (some (cursorOf event capturedAt)) (s.saveCursor event now).cursor := by
  rintro c hc
  obtain rfl := Option.some.inj hc
  refine ⟨_, rfl, ?_⟩
  rw [isCursorCorrupted_some]
  exact JsNumber.lexLess_self _

theorem EventKept.turn (h : EventKept s call)
    (ht : TurnEffect s call s' call') : EventKept s' call' := by
  cases ht with
  | idle => exact h
  | unclaimed hnone => exact .of_unclaimed hnone
  | recorded hnew =>
    refine ⟨fun e he => ?_, fun _ h => absurd h (Option.not_mem_none _), fun _ h => absurd h (Option.not_mem_none _)⟩
    obtain rfl := Option.some.inj he
    exact hasRecord_recordEvent.mpr (.inl rfl)
  | recordedLate => exact .of_unclaimed rfl
  | saved hcursor hnumbers =>
    refine ⟨fun e he => ?_, fun e he capturedAt => ?_, fun e he => numberedCursor_saveCursor hnumbers⟩
    · obtain rfl := mem_claimed_returned he
      exact h.hasRecord e rfl
    · obtain rfl := mem_claimed_returned (claimed_of_processed he)
      exact notBehind_saveCursor _ capturedAt

theorem EventKept.turn_other {call call' other : EventCall ν} (h : EventKept s other)
    (ht : TurnEffect s call s' call') : EventKept s' other := by
  cases ht with
  | idle | unclaimed => exact h
  | recorded | recordedLate => exact h.record _
  | saved hcursor hnumbers => exact h.save _ hcursor hnumbers

theorem CursorKept.turn (h : CursorKept initial s) (ht : TurnEffect s call s' call') : CursorKept initial s' := by
  cases ht with
  | idle | unclaimed => exact h
  | recorded | recordedLate => exact ⟨h.notBehind, h.moved⟩
  | saved hcursor hnumbers => exact h.save _ hcursor hnumbers

/-- A call that claims an event in its turn finds no record of it, and others
have records of what they claim. -/
theorem ClaimsApart.turn {call call' other : EventCall ν} (h : ClaimsApart call other)
    (hother : EventKept s other) (ht : TurnEffect s call s' call') : ClaimsApart call' other := by
  cases ht with
  | idle => exact h
  | unclaimed hnone =>
    intro e he
    rw [hnone] at he
    cases he
  | recorded hnew =>
    intro e he e' he' hkey
    obtain rfl := Option.some.inj he
    have hrecord := hother.hasRecord e' he'
    rw [EventStores.HasRecord, ← hkey] at hrecord
    exact hnew hrecord
  | recordedLate =>
    intro e he
    cases he
  | saved =>
    intro e he
    obtain rfl := mem_claimed_returned he
    exact h e rfl

/-- What holds of the stores and of each call in a run. -/
def eventOutline (toISOString : Int → String) (options : EventProcessorOptions) (initial : Option (EventCursor ν)) :
    Outline (eventTurns toISOString options (ChecksHold (ν := ν))) where
  shared := CursorKept initial
  own := EventKept
  apart := ClaimsApart
  apart_symm h e he e' he' := (h e' he' e he).symm
  start_own _ hs := by
    obtain ⟨event, rfl⟩ := hs
    exact .of_unclaimed rfl
  start_apart hs := by
    obtain ⟨event, rfl⟩ := hs
    exact fun _ h => absurd h (Option.not_mem_none _)
  turn_shared hs _ ht := hs.turn (turn_effect ht)
  turn_own _ hown ht := hown.turn (turn_effect ht)
  turn_other _ _ hother ht := hother.turn_other (turn_effect ht)
  turn_apart _ hother hapart ht := hapart.turn hother (turn_effect ht)

/-! ## Runs -/

/-- Calls start over any stores, with the cursor `initial`, and take turns that
all meet the condition `ok`. -/
abbrev ReachableEvents (toISOString : Int → String) (options : EventProcessorOptions)
    (ok : EventStores ν → EventCall ν → Settled → Prop) (initial : Option (EventCursor ν)) :
    Interleaved (EventStores ν) (EventCall ν) → Prop :=
  Reachable (fun p => p.shared.cursor = initial ∧ p.calls = []) (eventTurns toISOString options ok).Step

/-- An event is reported as processed by one call at most, and the cursor is
neither behind the first one nor behind that of an event that was. -/
structure ProcessedOnce (initial : Option (EventCursor ν)) (p : Interleaved (EventStores ν) (EventCall ν)) :
    Prop where
  once : ∀ (i j : Nat) (c d : EventCall ν), p.calls[i]? = some c → p.calls[j]? = some d →
    ∀ event ∈ c.processed, ∀ event' ∈ d.processed, event.identity = event'.identity → i = j
  notBehindInitial : NotBehind initial p.shared.cursor
  notBehindEvent : ∀ (i : Nat) (c : EventCall ν), p.calls[i]? = some c → ∀ event ∈ c.processed, ∀ capturedAt,
    NotBehind (some (cursorOf event capturedAt)) p.shared.cursor

/-- In a run in which nothing that a call has checked is changed by others
before the call changes the stores, events are processed once. -/
theorem processed_once {initial : Option (EventCursor ν)} {p : Interleaved (EventStores ν) (EventCall ν)}
    (h : ReachableEvents toISOString options ChecksHold initial p) : ProcessedOnce initial p := by
  have hholds : (eventOutline toISOString options initial).Holds p := by
    refine Outline.invariant (fun p hp => ?_) h
    obtain ⟨rfl, hcalls⟩ := hp
    refine ⟨⟨.refl _, .inl rfl⟩, fun i c hc => ?_, fun i j c d _ hc _ => ?_⟩
    · rw [hcalls] at hc
      cases hc
    · rw [hcalls] at hc
      cases hc
  refine ⟨fun i j c d hi hj event hc event' hd hidentity => ?_, hholds.shared.notBehind,
    fun i c hi => (hholds.own i c hi).notBehind⟩
  by_contra hne
  have hkeys := hholds.apart i j c d hne hi hj event (claimed_of_processed hc) event' (claimed_of_processed hd)
  obtain ⟨hid, hroot⟩ := Prod.mk.inj hidentity
  exact hkeys (by rw [hid, hroot])

/-! ## Two calls -/

/-- Stores and two calls. -/
def twoEvents (s : EventStores ν) (c d : EventCall ν) : Interleaved (EventStores ν) (EventCall ν) where
  shared := s
  calls := [c, d]

section Two

variable {ok : EventStores ν → EventCall ν → Settled → Prop} {t t' : EventStores ν} {c c' d : EventCall ν}

theorem twoEvents_started (first second : EventData ν) :
    ReachableEvents toISOString options ok none (twoEvents {} (.detecting first) (.detecting second)) := by
  have hstart : ReachableEvents toISOString options ok none { shared := {}, calls := [] } := .start ⟨rfl, rfl⟩
  exact (hstart.next (.start ⟨first, rfl⟩)).next (.start ⟨second, rfl⟩)

theorem twoEvents_first (h : ReachableEvents toISOString options ok none (twoEvents t c d)) (hok : ok t c .fulfilled)
    (hsettle : c.settle toISOString options t .fulfilled 0 = (t', c')) :
    ReachableEvents toISOString options ok none (twoEvents t' c' d) :=
  Turns.reachable_first h ⟨.fulfilled, 0, hok, hsettle⟩

theorem twoEvents_second (h : ReachableEvents toISOString options ok none (twoEvents t d c))
    (hok : ok t c .fulfilled) (hsettle : c.settle toISOString options t .fulfilled 0 = (t', c')) :
    ReachableEvents toISOString options ok none (twoEvents t' d c') :=
  Turns.reachable_second h ⟨.fulfilled, 0, hok, hsettle⟩

end Two

def processedEvent (event : EventData ν) : EventCall ν := .returned event successResult

/-- The stores after two events that were recorded and saved one after the
other. -/
def storesOfBoth (first second : EventData ν) : EventStores ν :=
  (((({} : EventStores ν).recordEvent first 0).saveCursor first 0).recordEvent second 0).saveCursor second 0

def firstEvent : EventData Int := eventAt "evt-1" "root-1" 7

def laterEvent : EventData Int := eventAt "evt-2" "root-2" 8

/-- A later event is detected before the first one is recorded. -/
theorem later_event_processed :
    ProcessedOnce none
      (twoEvents (storesOfBoth firstEvent laterEvent) (processedEvent firstEvent) (processedEvent laterEvent)) := by
  have hstarted : ReachableEvents toString {} ChecksHold none _ := twoEvents_started firstEvent laterEvent
  have hfirst := twoEvents_first (twoEvents_first hstarted trivial rfl) trivial rfl
  have hlater := twoEvents_second (twoEvents_second hfirst trivial rfl) trivial rfl
  have hnew : ¬({} : EventStores Int).HasRecord firstEvent := by decide
  have hrecorded := twoEvents_first hlater hnew rfl
  have hsaved := twoEvents_first hrecorded ⟨rfl, comparable_eventAt _ _ _⟩ rfl
  have hother : ¬((({} : EventStores Int).recordEvent firstEvent 0).saveCursor firstEvent 0).HasRecord laterEvent := by
    decide
  have hboth := twoEvents_second hsaved hother rfl
  exact processed_once (twoEvents_second hboth ⟨rfl, comparable_eventAt _ _ _⟩ rfl)

/-- Two calls on a new processor process any two events, when both ask the
detector and load the cursor before one of them records its event. -/
theorem both_processed (toISOString : Int → String) (options : EventProcessorOptions) (first second : EventData ν) :
    ReachableEvents toISOString options (fun _ _ _ => True) none
      (twoEvents (storesOfBoth first second) (processedEvent first) (processedEvent second)) := by
  have hstarted : ReachableEvents toISOString options (fun _ _ _ => True) none _ := twoEvents_started first second
  have hfirst := twoEvents_first (twoEvents_first hstarted trivial rfl) trivial rfl
  have hsecond := twoEvents_second (twoEvents_second hfirst trivial rfl) trivial rfl
  have hsaved := twoEvents_first (twoEvents_first hsecond trivial rfl) trivial rfl
  exact twoEvents_second (twoEvents_second hsaved trivial rfl) trivial rfl

/-- The second event is then saved over the cursor of one that comes after it. -/
theorem not_processedOnce_of_behind {first second : EventData ν}
    (h : isCursorCorrupted (some (cursorOf first 0)) (createCursorState second) = true) :
    ¬ProcessedOnce none (twoEvents (storesOfBoth first second) (processedEvent first) (processedEvent second)) := by
  intro honce
  obtain ⟨c, hc, hnot⟩ := honce.notBehindEvent 0 _ rfl first rfl 0 _ rfl
  obtain rfl := Option.some.inj hc
  exact Bool.false_ne_true (hnot.symm.trans h)

/-- One event is processed by both calls, and the cursor of a later event is
overwritten with that of an earlier one. -/
theorem checks_out_of_date :
    (ReachableEvents toString {} (fun _ _ _ => True) none
        (twoEvents (storesOfBoth firstEvent firstEvent) (processedEvent firstEvent) (processedEvent firstEvent)) ∧
      ¬ProcessedOnce none
        (twoEvents (storesOfBoth firstEvent firstEvent) (processedEvent firstEvent) (processedEvent firstEvent))) ∧
    ReachableEvents toString {} (fun _ _ _ => True) none
        (twoEvents (storesOfBoth laterEvent firstEvent) (processedEvent laterEvent) (processedEvent firstEvent)) ∧
      ¬ProcessedOnce none
        (twoEvents (storesOfBoth laterEvent firstEvent) (processedEvent laterEvent) (processedEvent firstEvent)) := by
  refine ⟨⟨both_processed _ _ _ _, fun h => ?_⟩, both_processed _ _ _ _, not_processedOnce_of_behind rfl⟩
  have hsame := h.once 0 1 _ _ rfl rfl firstEvent rfl firstEvent rfl rfl
  cases hsame

end ZkPayroll.Indexer
