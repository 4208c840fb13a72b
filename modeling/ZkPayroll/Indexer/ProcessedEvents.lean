import ZkPayroll.Framework.Transition
import ZkPayroll.Indexer.IdempotentEventProcessor

/-!
# Events that are processed one after the other

A call that fails after it recorded its event, or while it does, leaves the
record behind, and the event is taken for a duplicate when it is processed
again (`failsCleanly_iff`). Over stores that do not fail, a processor reports
each event once as newly processed, a duplicate when it was processed before,
and does not move the cursor back, in the runs in which no two events share a
key and no position that is saved is `NaN` (`reports_faithfully`).
-/

namespace ZkPayroll.Indexer

open Framework ZkPayroll.Core

variable {ν : Type} [LinearOrder ν] {toISOString : Int → String} {options : EventProcessorOptions}
  {s : EventStores ν} {event : EventData ν} {awaits again : Awaits}

/-! ## Calls that fail -/

/-- The awaits of a call that meets no fault. -/
structure Awaits.FaultFree (awaits : Awaits) : Prop where
  detect : awaits.detect = .fulfilled
  load : awaits.load = .fulfilled
  notify : awaits.notify = .fulfilled
  record : awaits.record = .fulfilled
  save : awaits.save = .fulfilled

/-- The detector takes the record of an event whose call then fails. -/
def Awaits.LeavesRecord (awaits : Awaits) : Prop :=
  match awaits.record, awaits.save with
  | .rejected _ tookEffect, _ => tookEffect = true
  | .fulfilled, .rejected _ _ => True
  | .fulfilled, .fulfilled => False

/-- A call that does not succeed leaves the stores as they are. If the event is
new and in order, processing it again without a fault succeeds and advances the
cursor. -/
def FailsCleanly (toISOString : Int → String) (options : EventProcessorOptions) (s : EventStores ν)
    (event : EventData ν) (awaits : Awaits) : Prop :=
  ∀ result s', processEvent toISOString options event awaits s = .ok result s' → result.success = false →
    s' = s ∧ ∀ again : Awaits, again.FaultFree → Proceeds s event again →
      ∃ s'', processEvent toISOString options event again s' = .ok successResult s'' ∧
        s''.cursor = some (cursorOf event again.capturedAt)

theorem processEvent_of_faultFree (hfree : again.FaultFree) (h : Proceeds s event again) :
    processEvent toISOString options event again s =
      .ok successResult ((s.recordEvent event again.recordedAt).saveCursor event again.capturedAt) := by
  rw [processEvent_of_proceeds toISOString options h, hfree.record, hfree.save]

omit [LinearOrder ν] in
/-- An event that is not recorded changes the stores when it is. -/
theorem recordEvent_ne (hnew : ¬s.HasRecord event) {s' : EventStores ν} {now : Int}
    (h : s'.detector = (s.recordEvent event now).detector) : s' ≠ s := by
  rintro rfl
  have hrecord : (s'.recordEvent event now).HasRecord event := hasRecord_recordEvent.mpr (.inl rfl)
  rw [EventStores.HasRecord, ← h] at hrecord
  exact hnew hrecord

/-- A call that leaves a record behind fails, and changes the stores. -/
theorem processEvent_of_leavesRecord (h : Proceeds s event awaits) (hleaves : awaits.LeavesRecord) :
    ∃ e s', processEvent toISOString options event awaits s = .ok (caughtResult e) s' ∧ s' ≠ s := by
  have hprocess := processEvent_of_proceeds toISOString options h
  unfold Awaits.LeavesRecord at hleaves
  cases hrecord : awaits.record with
  | rejected e tookEffect =>
    rw [hrecord] at hprocess hleaves
    rw [hprocess]
    exact ⟨e, _, rfl, recordEvent_ne h.isNew (by rw [if_pos hleaves])⟩
  | fulfilled =>
    rw [hrecord] at hprocess hleaves
    cases hsave : awaits.save with
    | rejected e tookEffect =>
      rw [hsave] at hprocess
      rw [hprocess]
      exact ⟨e, _, rfl, recordEvent_ne h.isNew (by cases tookEffect <;> rfl)⟩
    | fulfilled =>
      rw [hsave] at hleaves
      exact absurd hleaves id

/-- A call that leaves no record behind succeeds, or does not change the
stores. -/
theorem eq_of_not_leavesRecord {result : EventProcessingResult} {s' : EventStores ν}
    (hprocess : processEvent toISOString options event awaits s = .ok result s') (hfailed : result.success = false)
    (hnot : ¬(Proceeds s event awaits ∧ awaits.LeavesRecord)) : s' = s := by
  by_cases h : Proceeds s event awaits
  · rw [processEvent_of_proceeds toISOString options h] at hprocess
    have hleaves : ¬awaits.LeavesRecord := fun hleaves => hnot ⟨h, hleaves⟩
    unfold Awaits.LeavesRecord at hleaves
    cases hrecord : awaits.record with
    | rejected e tookEffect =>
      rw [hrecord] at hprocess hleaves
      obtain ⟨-, rfl⟩ := EStateM.Result.ok.inj hprocess
      exact if_neg hleaves
    | fulfilled =>
      rw [hrecord] at hprocess hleaves
      cases hsave : awaits.save with
      | rejected e tookEffect =>
        rw [hsave] at hleaves
        exact absurd trivial hleaves
      | fulfilled =>
        rw [hsave] at hprocess
        obtain ⟨rfl, -⟩ := EStateM.Result.ok.inj hprocess
        cases hfailed
  · obtain ⟨ending, -, heq⟩ := processEvent_of_not_proceeds toISOString options h
    rw [heq] at hprocess
    exact (EStateM.Result.ok.inj hprocess).2.symm

/-- A call fails cleanly unless it leaves a record behind. -/
theorem failsCleanly_iff (toISOString : Int → String) (options : EventProcessorOptions) (s : EventStores ν)
    (event : EventData ν) (awaits : Awaits) :
    FailsCleanly toISOString options s event awaits ↔ ¬(Proceeds s event awaits ∧ awaits.LeavesRecord) := by
  constructor
  · rintro hclean ⟨h, hleaves⟩
    obtain ⟨e, s', hprocess, hne⟩ := processEvent_of_leavesRecord h hleaves
    exact hne (hclean _ _ hprocess rfl).1
  · intro hnot result s' hprocess hfailed
    obtain rfl := eq_of_not_leavesRecord hprocess hfailed hnot
    exact ⟨rfl, fun again hfree h => ⟨_, processEvent_of_faultFree hfree h, rfl⟩⟩

def eventAt (id batchRoot : String) (ledgerSequence : Int) : EventData Int where
  id := id
  batchRoot := batchRoot
  ledgerSequence := .finite ledgerSequence
  transactionPosition := .finite 0
  operationPosition := .finite 0
  eventPosition := .finite 0

/-- The cursor store rejects the cursor of an event that was recorded. -/
def saveRejected : Awaits := { save := .rejected (genericError "Failed to save cursor") false }

/-- The event is then reported as a duplicate, and its cursor is never saved. -/
theorem event_lost :
    ∃ s' : EventStores Int, processEvent toString {} (eventAt "evt-1" "root-1" 7) saveRejected {} =
        .ok (failedResult (some "Failed to save cursor") false) s' ∧ s'.cursor = none ∧
      processEvent toString {} (eventAt "evt-1" "root-1" 7) {} s' =
        .ok (failedResult (some "Event evt-1 with batch root root-1 was already processed at 0") true) s' ∧
      ¬FailsCleanly toString {} {} (eventAt "evt-1" "root-1" 7) saveRejected := by
  refine ⟨_, rfl, rfl, rfl, fun h => ?_⟩
  have hstores := (h _ _ rfl rfl).1
  revert hstores
  decide

/-! ## Sequences of calls -/

/-- What was reported of an event. -/
structure EventReport (ν : Type) where
  event : EventData ν
  result : EventProcessingResult

/-- What an event is known by. -/
def EventData.identity (event : EventData ν) : String × String := (event.id, event.batchRoot)

/-- The stores, the reports of the calls so far and the cursors that were stored
before them, the latest first. -/
structure Chronicle (ν : Type) where
  stores : EventStores ν := {}
  reports : List (EventReport ν) := []
  cursors : List (Option (EventCursor ν)) := []

/-- The stores of a processor do not fail; its callback may. -/
structure Awaits.Reliable (awaits : Awaits) : Prop where
  detect : awaits.detect = .fulfilled
  load : awaits.load = .fulfilled
  record : awaits.record = .fulfilled
  save : awaits.save = .fulfilled

/-- An event is processed, and what is reported recorded. -/
def Chronicle.process (toISOString : Int → String) (options : EventProcessorOptions) (l : Chronicle ν)
    (event : EventData ν) (awaits : Awaits) : Chronicle ν :=
  match processEvent toISOString options event awaits l.stores with
  | .ok result stores =>
    { stores := stores
      reports := { event := event, result := result } :: l.reports
      cursors := l.stores.cursor :: l.cursors }
  | .error _ _ => l

/-- A new detector, over any stored cursor. -/
def Chronicle.Initial (l : Chronicle ν) : Prop := l.stores.detector = {} ∧ l.reports = [] ∧ l.cursors = []

/-- Sequences of calls that all meet the condition `ok`. -/
abbrev ReachableChronicle (toISOString : Int → String) (options : EventProcessorOptions)
    (ok : Chronicle ν → EventData ν → Prop) : Chronicle ν → Prop :=
  Reachable Chronicle.Initial fun l l' =>
    ∃ event awaits, awaits.Reliable ∧ ok l event ∧ l' = l.process toISOString options event awaits

/-- The event was reported as newly processed. -/
def EventReport.IsNew (report : EventReport ν) : Prop := report.result.success = true

/-- What the reports are to say. -/
structure ReportsFaithfully (l : Chronicle ν) : Prop where
  newlyOnce : l.reports.Pairwise fun later earlier =>
    later.IsNew → earlier.IsNew → later.event.identity ≠ earlier.event.identity
  duplicates : ∀ report earlier, report :: earlier <:+ l.reports →
    (report.result.replayDetected = true ↔ ∃ q ∈ earlier, q.IsNew ∧ q.event.identity = report.event.identity)
  cursorForward : (l.stores.cursor :: l.cursors).Pairwise fun later earlier => NotBehind earlier later

/-- A record with the key of the event is a record of the event, and the
positions of the event are numbers if it is going to be saved. -/
structure Distinguished (l : Chronicle ν) (event : EventData ν) : Prop where
  record : ∀ record ∈ l.stores.detector.records.lookup (createCompositeKey event.id event.batchRoot),
    (record.eventId, record.batchRoot) = event.identity
  comparable : ¬l.stores.HasRecord event → isCursorCorrupted l.stores.cursor (createCursorState event) = false →
    (createCursorState event).Comparable

/-- What every call of a sequence keeps. -/
structure ChronicleInvariant (l : Chronicle ν) : Prop extends ReportsFaithfully l where
  recorded : ∀ key record, l.stores.detector.records.lookup key = some record →
    ∃ q ∈ l.reports, q.IsNew ∧ q.event.identity = (record.eventId, record.batchRoot)
  hasRecord : ∀ q ∈ l.reports, q.IsNew → l.stores.HasRecord q.event
  /-- The stored cursor is that of the start, or that of an event. -/
  cursorMoved : (∀ c ∈ l.cursors, c = l.stores.cursor) ∨ ∀ c ∈ l.stores.cursor, c.state.Comparable

section Invariant

variable {l : Chronicle ν}

theorem chronicleInvariant_initial (h : l.Initial) : ChronicleInvariant l := by
  obtain ⟨hdetector, hreports, hcursors⟩ := h
  refine ⟨⟨?_, ?_, ?_⟩, ?_, ?_, ?_⟩
  · rw [hreports]
    exact List.Pairwise.nil
  · rw [hreports]
    intro report earlier h
    cases List.suffix_nil.mp h
  · rw [hcursors]
    exact List.pairwise_singleton _ _
  · rw [hdetector]
    intro key record h
    cases h
  · rw [hreports]
    intro q hq
    cases hq
  · rw [hcursors]
    exact .inl fun c hc => nomatch hc

omit [LinearOrder ν] in
/-- The same event has the same key. -/
theorem hasRecord_congr {e e' : EventData ν} (h : e.identity = e'.identity) (hr : s.HasRecord e) : s.HasRecord e' := by
  obtain ⟨hid, hroot⟩ := Prod.mk.inj h
  rwa [EventStores.HasRecord, hid, hroot] at hr

/-- A call does not report what was processed before as new. -/
theorem ChronicleInvariant.not_reported (h : ChronicleInvariant l) (hnew : ¬l.stores.HasRecord event) :
    ∀ q ∈ l.reports, q.IsNew → q.event.identity ≠ event.identity :=
  fun q hq hqnew heq => hnew (hasRecord_congr heq (h.hasRecord q hq hqnew))

theorem ChronicleInvariant.recorded_iff (h : ChronicleInvariant l) (hok : Distinguished l event) :
    l.stores.HasRecord event ↔ ∃ q ∈ l.reports, q.IsNew ∧ q.event.identity = event.identity := by
  constructor
  · intro hrecord
    obtain ⟨record, hlookup⟩ := Option.isSome_iff_exists.mp hrecord
    obtain ⟨q, hq, hnew, hidentity⟩ := h.recorded _ record hlookup
    exact ⟨q, hq, hnew, hidentity.trans (hok.record record hlookup)⟩
  · rintro ⟨q, hq, hnew, hidentity⟩
    exact hasRecord_congr hidentity (h.hasRecord q hq hnew)

omit [LinearOrder ν] in
/-- Duplicates stay right with one more report that is. -/
theorem duplicates_cons {report : EventReport ν} {reports : List (EventReport ν)}
    (hreport : report.result.replayDetected = true ↔
      ∃ q ∈ reports, q.IsNew ∧ q.event.identity = report.event.identity)
    (h : ∀ r earlier, r :: earlier <:+ reports →
      (r.result.replayDetected = true ↔ ∃ q ∈ earlier, q.IsNew ∧ q.event.identity = r.event.identity)) :
    ∀ r earlier, r :: earlier <:+ report :: reports →
      (r.result.replayDetected = true ↔ ∃ q ∈ earlier, q.IsNew ∧ q.event.identity = r.event.identity) := by
  intro r earlier hsuffix
  rcases List.suffix_cons_iff.mp hsuffix with heq | hsuffix
  · obtain ⟨rfl, rfl⟩ := List.cons.inj heq
    exact hreport
  · exact h r earlier hsuffix

/-- A call that stops reports a duplicate if there was one. -/
theorem ChronicleInvariant.stop (h : ChronicleInvariant l) (hok : Distinguished l event)
    {result : EventProcessingResult} (hsuccess : result.success = false)
    (hreplay : result.replayDetected = true ↔ l.stores.HasRecord event) :
    ChronicleInvariant { l with reports := { event := event, result := result } :: l.reports
                                cursors := l.stores.cursor :: l.cursors } where
  newlyOnce := by
    refine List.Pairwise.cons (fun q hq hnew => ?_) h.newlyOnce
    rw [EventReport.IsNew, hsuccess] at hnew
    cases hnew
  duplicates := duplicates_cons (hreplay.trans (h.recorded_iff hok)) h.duplicates
  cursorForward := by
    refine List.Pairwise.cons (fun c hc => ?_) h.cursorForward
    rcases List.mem_cons.mp hc with rfl | hc
    · exact NotBehind.refl _
    · exact (List.pairwise_cons.mp h.cursorForward).1 c hc
  recorded key record hlookup := by
    obtain ⟨q, hq, hnew⟩ := h.recorded key record hlookup
    exact ⟨q, List.mem_cons_of_mem _ hq, hnew⟩
  hasRecord q hq hnew := by
    rcases List.mem_cons.mp hq with rfl | hq
    · rw [EventReport.IsNew, hsuccess] at hnew
      cases hnew
    · exact h.hasRecord q hq hnew
  cursorMoved := by
    rcases h.cursorMoved with hstart | hevent
    · refine .inl fun c hc => ?_
      rcases List.mem_cons.mp hc with rfl | hc
      · rfl
      · exact hstart c hc
    · exact .inr hevent

/-- A call that succeeds records an event that is new. -/
theorem ChronicleInvariant.succeed (h : ChronicleInvariant l) (hok : Distinguished l event)
    (hproceeds : Proceeds l.stores event awaits) :
    ChronicleInvariant
      { stores := (l.stores.recordEvent event awaits.recordedAt).saveCursor event awaits.capturedAt
        reports := { event := event, result := successResult } :: l.reports
        cursors := l.stores.cursor :: l.cursors } where
  newlyOnce := List.Pairwise.cons (fun q hq _ hnew => (h.not_reported hproceeds.isNew q hq hnew).symm) h.newlyOnce
  duplicates := by
    refine duplicates_cons (iff_of_false nofun ?_) h.duplicates
    rintro ⟨q, hq, hnew, hidentity⟩
    exact h.not_reported hproceeds.isNew q hq hnew hidentity
  cursorForward := by
    have hsaved : NotBehind l.stores.cursor (some (cursorOf event awaits.capturedAt)) :=
      notBehind_cursorOf hproceeds.inOrder
    refine List.Pairwise.cons (fun c hc => ?_) h.cursorForward
    rcases List.mem_cons.mp hc with rfl | hc
    · exact hsaved
    · rcases h.cursorMoved with hstart | hevent
      · rw [hstart c hc]
        exact hsaved
      · exact ((List.pairwise_cons.mp h.cursorForward).1 c hc).trans hsaved hevent
  recorded key record hlookup := by
    change (setKey _ _ l.stores.detector.records).lookup key = some record at hlookup
    rw [lookup_setKey] at hlookup
    split at hlookup
    · obtain rfl := Option.some.inj hlookup
      exact ⟨_, List.mem_cons_self, rfl, rfl⟩
    · obtain ⟨q, hq, hnew⟩ := h.recorded key record hlookup
      exact ⟨q, List.mem_cons_of_mem _ hq, hnew⟩
  hasRecord q hq hnew := by
    refine hasRecord_recordEvent.mpr ?_
    rcases List.mem_cons.mp hq with rfl | hq
    · exact .inl rfl
    · exact .inr (h.hasRecord q hq hnew)
  cursorMoved := .inr fun c hc => by
    obtain rfl := Option.some.inj hc
    exact hok.comparable hproceeds.isNew hproceeds.inOrder

theorem ChronicleInvariant.process (h : ChronicleInvariant l) (hreliable : awaits.Reliable)
    (hok : Distinguished l event) : ChronicleInvariant (l.process toISOString options event awaits) := by
  rw [Chronicle.process]
  by_cases hproceeds : Proceeds l.stores event awaits
  · rw [processEvent_of_proceeds toISOString options hproceeds, hreliable.record, hreliable.save]
    exact h.succeed hok hproceeds
  · obtain ⟨ending, hstops, heq⟩ := processEvent_of_not_proceeds toISOString options hproceeds
    obtain ⟨hsuccess, hreplay⟩ := hstops.result
    rw [heq]
    exact h.stop hok hsuccess (hreplay hreliable.detect)

end Invariant

/-- In a sequence of calls in which no event has the key of another and no
position that is saved is `NaN`, the reports are right and the cursor does not
move back. -/
theorem reports_faithfully {l : Chronicle ν} (h : ReachableChronicle toISOString options Distinguished l) :
    ReportsFaithfully l := by
  have hinv : ChronicleInvariant l := by
    refine Reachable.invariant (I := ChronicleInvariant) (fun _ hl => chronicleInvariant_initial hl) (fun l l' hl hs => ?_) h
    obtain ⟨event, awaits, hreliable, hok, rfl⟩ := hs
    exact hl.process hreliable hok
  exact hinv.toReportsFaithfully

/-- The chronicle of two calls over new stores that do not fail. -/
def twoCalls (first second : EventData Int) : Chronicle Int :=
  (({} : Chronicle Int).process toString {} first {}).process toString {} second {}

theorem twoCalls_reachable {ok : Chronicle Int → EventData Int → Prop} {first second : EventData Int}
    (hfirst : ok {} first) (hsecond : ok (({} : Chronicle Int).process toString {} first {}) second) :
    ReachableChronicle toString {} ok (twoCalls first second) := by
  have hreliable : ({} : Awaits).Reliable := ⟨rfl, rfl, rfl, rfl⟩
  have hstart : ReachableChronicle toString {} ok {} := .start ⟨rfl, rfl, rfl⟩
  exact (hstart.next ⟨first, {}, hreliable, hfirst, rfl⟩).next ⟨second, {}, hreliable, hsecond, rfl⟩

theorem comparable_eventAt (id batchRoot : String) (ledgerSequence : Int) :
    (createCursorState (eventAt id batchRoot ledgerSequence)).Comparable := by
  intro n hn
  simp only [EventCursorState.positions, createCursorState, eventAt, List.mem_cons, List.not_mem_nil, or_false] at hn
  rcases hn with rfl | rfl | rfl | rfl <;> rfl

/-- An event that comes twice. -/
theorem same_event_twice :
    ReportsFaithfully (twoCalls (eventAt "evt-1" "root-1" 7) (eventAt "evt-1" "root-1" 7)) := by
  have hnumbers := comparable_eventAt "evt-1" "root-1" 7
  refine reports_faithfully (twoCalls_reachable ⟨nofun, fun _ _ => hnumbers⟩ ⟨?_, fun _ _ => hnumbers⟩)
  intro record hrecord
  obtain rfl := Option.some.inj hrecord
  rfl

/-- Two events have one key, so the second is reported as a duplicate. -/
theorem other_event_duplicate :
    ReachableChronicle toString {} (fun _ _ => True) (twoCalls (eventAt "a:b" "c" 7) (eventAt "a" "b:c" 8)) ∧
      ¬ReportsFaithfully (twoCalls (eventAt "a:b" "c" 7) (eventAt "a" "b:c" 8)) := by
  refine ⟨twoCalls_reachable trivial trivial, fun h => ?_⟩
  obtain ⟨q, hq, -, hidentity⟩ := (h.duplicates _ _ (List.suffix_refl _)).mp rfl
  obtain rfl := List.mem_singleton.mp hq
  revert hidentity
  decide

end ZkPayroll.Indexer
