import ZkPayroll.Core.Errors
import ZkPayroll.Framework.Guards
import ZkPayroll.Framework.JsArithmetic
import ZkPayroll.Framework.Maps

/-!
# The idempotent event processor

`IdempotentEventProcessor.processEvent` of `indexer/IdempotentEventProcessor.ts`
over the detector of `indexer/InMemoryReplayDetector.ts` and a store of one
cursor. What each await of a call comes to is an argument (`Awaits`): it may
reject, before or after it took effect. A call that gets as far as recording
its event (`Proceeds`) changes the stores (`processEvent_of_proceeds`); no
other does (`processEvent_of_not_proceeds`).
-/

namespace ZkPayroll.Indexer

open Framework ZkPayroll.Core

variable {ν : Type}

/-! ## Data -/

structure EventCursorState (ν : Type) where
  ledgerSequence : JsNumber ν
  transactionPosition : JsNumber ν
  operationPosition : JsNumber ν
  eventPosition : JsNumber ν
  deriving DecidableEq

structure EventCursor (ν : Type) where
  state : EventCursorState ν
  lastEventId : String
  lastBatchRoot : String
  capturedAt : Int
  isCorrupted : Bool
  deriving DecidableEq

/-- Nothing reads `payload`. -/
structure EventData (ν : Type) where
  id : String
  batchRoot : String
  ledgerSequence : JsNumber ν
  transactionPosition : JsNumber ν
  operationPosition : JsNumber ν
  eventPosition : JsNumber ν
  deriving DecidableEq

structure EventProcessingResult where
  success : Bool
  error : Option String := none
  replayDetected : Bool
  cursorAdvanced : Bool
  deriving DecidableEq

structure ReplayDetectionResult where
  isReplayed : Bool
  duplicateEventId : Option String := none
  duplicateBatchRoot : Option String := none
  reason : Option String := none
  deriving DecidableEq

structure ReplayRecord where
  eventId : String
  batchRoot : String
  recordedAt : Int
  deriving DecidableEq

/-! ## The replay detector -/

structure InMemoryReplayDetector where
  records : List (String × ReplayRecord) := []
  keyIndex : List (String × String) := []
  deriving DecidableEq

def createCompositeKey (eventId batchRoot : String) : String := eventId ++ ":" ++ batchRoot

namespace InMemoryReplayDetector

variable (d : InMemoryReplayDetector)

/-- `toISOString` writes a time. -/
def detectReplay (toISOString : Int → String) (eventId batchRoot : String) : ReplayDetectionResult :=
  match d.records.lookup (createCompositeKey eventId batchRoot) with
  | some record =>
    { isReplayed := true
      duplicateEventId := some record.eventId
      duplicateBatchRoot := some record.batchRoot
      reason := some ("Event " ++ eventId ++ " with batch root " ++ batchRoot ++ " was already processed at " ++
        toISOString record.recordedAt) }
  | none => { isReplayed := false }

def recordEvent (now : Int) (eventId batchRoot : String) : InMemoryReplayDetector :=
  let compositeKey := createCompositeKey eventId batchRoot
  { records := setKey compositeKey { eventId := eventId, batchRoot := batchRoot, recordedAt := now } d.records
    keyIndex := setKey eventId compositeKey d.keyIndex }

end InMemoryReplayDetector

/-! ## The cursor -/

def createCursorState (event : EventData ν) : EventCursorState ν where
  ledgerSequence := event.ledgerSequence
  transactionPosition := event.transactionPosition
  operationPosition := event.operationPosition
  eventPosition := event.eventPosition

section Cursor

variable [LinearOrder ν]

open JsNumber in
def isCursorCorrupted (previousCursor : Option (EventCursor ν)) (newState : EventCursorState ν) : Bool :=
  match previousCursor with
  | none => false
  | some previousCursor =>
    if lt newState.ledgerSequence previousCursor.state.ledgerSequence then true
    else if eq newState.ledgerSequence previousCursor.state.ledgerSequence &&
        lt newState.transactionPosition previousCursor.state.transactionPosition then true
    else if eq newState.ledgerSequence previousCursor.state.ledgerSequence &&
        eq newState.transactionPosition previousCursor.state.transactionPosition &&
        lt newState.operationPosition previousCursor.state.operationPosition then true
    else if eq newState.ledgerSequence previousCursor.state.ledgerSequence &&
        eq newState.transactionPosition previousCursor.state.transactionPosition &&
        eq newState.operationPosition previousCursor.state.operationPosition &&
        lt newState.eventPosition previousCursor.state.eventPosition then true
    else false

end Cursor

/-! ## Awaits -/

/-- What an await comes to. -/
inductive Settled where
  | fulfilled
  | rejected (e : SdkError) (tookEffect : Bool)
  deriving DecidableEq

/-- What the awaits of a call come to, and the times that it reads. -/
structure Awaits where
  detect : Settled := .fulfilled
  load : Settled := .fulfilled
  notify : Settled := .fulfilled
  record : Settled := .fulfilled
  save : Settled := .fulfilled
  recordedAt : Int := 0
  capturedAt : Int := 0

/-- `await` of a call that reads the stores. -/
def awaitRead {σ α : Type} (settled : Settled) (f : σ → α) : Method SdkError σ α :=
  match settled with
  | .fulfilled => do return f (← get)
  | .rejected e _ => throw e

/-- `await` of a call that changes the stores. -/
def awaitUpdate {σ : Type} (settled : Settled) (f : σ → σ) : Method SdkError σ Unit :=
  match settled with
  | .fulfilled => modify f
  | .rejected e tookEffect => do
    if tookEffect then modify f
    throw e

/-! ## Processing -/

structure EventStores (ν : Type) where
  detector : InMemoryReplayDetector := {}
  cursor : Option (EventCursor ν) := none
  deriving DecidableEq

/-- The options of a processor: whether it has an `onCorruptionDetected`. -/
structure EventProcessorOptions where
  onCorruptionDetected : Bool := false

def failedResult (error : Option String) (replayDetected : Bool) : EventProcessingResult where
  success := false
  error := error
  replayDetected := replayDetected
  cursorAdvanced := false

def corruptedResult : EventProcessingResult := failedResult (some "Cursor corruption detected") false

def successResult : EventProcessingResult where
  success := true
  replayDetected := false
  cursorAdvanced := true

/-- What the handler of `processEvent` makes of a thrown value. -/
def caughtResult (error : SdkError) : EventProcessingResult :=
  failedResult (some (if error.kind = .notAnError then "Unknown error" else error.message)) false

/-- The cursor that is saved for an event. -/
def cursorOf (event : EventData ν) (capturedAt : Int) : EventCursor ν where
  state := createCursorState event
  lastEventId := event.id
  lastBatchRoot := event.batchRoot
  capturedAt := capturedAt
  isCorrupted := false

def EventStores.recordEvent (s : EventStores ν) (event : EventData ν) (now : Int) : EventStores ν :=
  { s with detector := s.detector.recordEvent now event.id event.batchRoot }

def EventStores.saveCursor (s : EventStores ν) (event : EventData ν) (capturedAt : Int) : EventStores ν :=
  { s with cursor := some (cursorOf event capturedAt) }

section Processing

variable [LinearOrder ν] (toISOString : Int → String) (options : EventProcessorOptions)

/-- The last two awaits of `processEvent`. -/
def recordAndSave (event : EventData ν) (awaits : Awaits) :
    Method SdkError (EventStores ν) EventProcessingResult := do
  awaitUpdate awaits.record fun s => s.recordEvent event awaits.recordedAt
  awaitUpdate awaits.save fun s => s.saveCursor event awaits.capturedAt
  return successResult

/-- The `try` block of `processEvent`. -/
def tryProcess (event : EventData ν) (awaits : Awaits) :
    Method SdkError (EventStores ν) EventProcessingResult := do
  let replayResult ← awaitRead awaits.detect fun s =>
    s.detector.detectReplay toISOString event.id event.batchRoot
  if replayResult.isReplayed then return failedResult replayResult.reason true
  let cursor ← awaitRead awaits.load EventStores.cursor
  if isCursorCorrupted cursor (createCursorState event) then
    if options.onCorruptionDetected then awaitUpdate awaits.notify id
    return corruptedResult
  recordAndSave event awaits

def processEvent (event : EventData ν) (awaits : Awaits) : Method SdkError (EventStores ν) EventProcessingResult :=
  tryCatch (tryProcess toISOString options event awaits) fun error => return caughtResult error

/-! ## What a call does -/

/-- The detector has a record for the key of the event. -/
def EventStores.HasRecord (s : EventStores ν) (event : EventData ν) : Prop :=
  (s.detector.records.lookup (createCompositeKey event.id event.batchRoot)).isSome = true

instance (s : EventStores ν) (event : EventData ν) : Decidable (s.HasRecord event) :=
  inferInstanceAs (Decidable (_ = true))

/-- The call gets as far as recording its event. -/
structure Proceeds (s : EventStores ν) (event : EventData ν) (awaits : Awaits) : Prop where
  detect : awaits.detect = .fulfilled
  isNew : ¬s.HasRecord event
  load : awaits.load = .fulfilled
  inOrder : isCursorCorrupted s.cursor (createCursorState event) = false

variable {toISOString options} {s : EventStores ν} {event : EventData ν} {awaits : Awaits}

theorem awaitUpdate_rejected {σ : Type} (e : SdkError) (tookEffect : Bool) (f : σ → σ) (s : σ) :
    awaitUpdate (.rejected e tookEffect) f s = .error e (if tookEffect = true then f s else s) := by
  cases tookEffect <;> rfl

omit [LinearOrder ν] in
theorem detectReplay_of_not_hasRecord (h : ¬s.HasRecord event) :
    s.detector.detectReplay toISOString event.id event.batchRoot = { isReplayed := false } := by
  have hnone : s.detector.records.lookup (createCompositeKey event.id event.batchRoot) = none := by
    rwa [EventStores.HasRecord, Bool.not_eq_true, Option.isSome_eq_false_iff, Option.isNone_iff_eq_none] at h
  rw [InMemoryReplayDetector.detectReplay, hnone]

omit [LinearOrder ν] in
theorem isReplayed_of_hasRecord (h : s.HasRecord event) :
    (s.detector.detectReplay toISOString event.id event.batchRoot).isReplayed = true := by
  obtain ⟨record, hrecord⟩ := Option.isSome_iff_exists.mp h
  rw [InMemoryReplayDetector.detectReplay, hrecord]

omit [LinearOrder ν] in
theorem recordAndSave_eq :
    recordAndSave event awaits s =
      match awaits.record, awaits.save with
      | .rejected e tookEffect, _ =>
        .error e (if tookEffect = true then s.recordEvent event awaits.recordedAt else s)
      | .fulfilled, .rejected e tookEffect =>
        .error e
          (if tookEffect = true then (s.recordEvent event awaits.recordedAt).saveCursor event awaits.capturedAt
            else s.recordEvent event awaits.recordedAt)
      | .fulfilled, .fulfilled =>
        .ok successResult ((s.recordEvent event awaits.recordedAt).saveCursor event awaits.capturedAt) := by
  rw [recordAndSave]
  cases awaits.record with
  | rejected e tookEffect => exact Method.bind_of_error (awaitUpdate_rejected e tookEffect _ s)
  | fulfilled =>
    have hrecord : awaitUpdate .fulfilled (fun s : EventStores ν => s.recordEvent event awaits.recordedAt) s =
        .ok () (s.recordEvent event awaits.recordedAt) := rfl
    rw [Method.bind_of_ok hrecord]
    cases awaits.save with
    | rejected e tookEffect => exact Method.bind_of_error (awaitUpdate_rejected e tookEffect _ _)
    | fulfilled => rfl

theorem awaitRead_fulfilled {σ α : Type} (f : σ → α) (s : σ) : awaitRead .fulfilled f s = .ok (f s) s := rfl

theorem awaitRead_rejected {σ α : Type} (e : SdkError) (tookEffect : Bool) (f : σ → α) (s : σ) :
    awaitRead (.rejected e tookEffect) f s = .error e s := rfl

theorem tryProcess_of_proceeds (h : Proceeds s event awaits) :
    tryProcess toISOString options event awaits s = recordAndSave event awaits s := by
  rw [tryProcess, h.detect, h.load, Method.bind_of_ok (awaitRead_fulfilled _ s), detectReplay_of_not_hasRecord h.isNew]
  simp only [Bool.false_eq_true, if_false]
  rw [Method.bind_of_ok (awaitRead_fulfilled _ s), h.inOrder]
  rfl

/-- How a call ends that does not get as far as recording its event. -/
inductive Stops (toISOString : Int → String) (options : EventProcessorOptions) (s : EventStores ν)
    (event : EventData ν) (awaits : Awaits) : Except SdkError EventProcessingResult → Prop
  | detectRejected {e : SdkError} {tookEffect : Bool} (h : awaits.detect = .rejected e tookEffect) :
      Stops toISOString options s event awaits (.error e)
  | duplicate (hdetect : awaits.detect = .fulfilled) (hrecord : s.HasRecord event) :
      Stops toISOString options s event awaits
        (.ok (failedResult (s.detector.detectReplay toISOString event.id event.batchRoot).reason true))
  | loadRejected {e : SdkError} {tookEffect : Bool} (hdetect : awaits.detect = .fulfilled)
      (hnew : ¬s.HasRecord event) (h : awaits.load = .rejected e tookEffect) :
      Stops toISOString options s event awaits (.error e)
  | corrupted (hdetect : awaits.detect = .fulfilled) (hnew : ¬s.HasRecord event) (hload : awaits.load = .fulfilled)
      (hcursor : isCursorCorrupted s.cursor (createCursorState event) = true)
      (hnotify : options.onCorruptionDetected = true → awaits.notify = .fulfilled) :
      Stops toISOString options s event awaits (.ok corruptedResult)
  | notifyRejected {e : SdkError} {tookEffect : Bool} (hdetect : awaits.detect = .fulfilled)
      (hnew : ¬s.HasRecord event) (hload : awaits.load = .fulfilled)
      (hcursor : isCursorCorrupted s.cursor (createCursorState event) = true)
      (hoption : options.onCorruptionDetected = true) (h : awaits.notify = .rejected e tookEffect) :
      Stops toISOString options s event awaits (.error e)

/-- The `try` block leaves the stores as they are where it does not record the
event. -/
theorem tryProcess_of_not_proceeds (h : ¬Proceeds s event awaits) :
    ∃ ending, Stops toISOString options s event awaits ending ∧
      tryProcess toISOString options event awaits s =
        match ending with
        | .ok result => .ok result s
        | .error e => .error e s := by
  rw [tryProcess]
  cases hdetect : awaits.detect with
  | rejected e tookEffect =>
    exact ⟨.error e, .detectRejected hdetect, Method.bind_of_error (awaitRead_rejected e tookEffect _ s)⟩
  | fulfilled =>
    rw [Method.bind_of_ok (awaitRead_fulfilled _ s)]
    by_cases hrecord : s.HasRecord event
    · rw [isReplayed_of_hasRecord hrecord]
      exact ⟨_, .duplicate hdetect hrecord, rfl⟩
    · rw [detectReplay_of_not_hasRecord hrecord]
      simp only [Bool.false_eq_true, if_false]
      cases hload : awaits.load with
      | rejected e tookEffect =>
        exact ⟨.error e, .loadRejected hdetect hrecord hload,
          Method.bind_of_error (awaitRead_rejected e tookEffect _ s)⟩
      | fulfilled =>
        rw [Method.bind_of_ok (awaitRead_fulfilled _ s)]
        have hcursor : isCursorCorrupted s.cursor (createCursorState event) = true := by
          by_contra hnot
          exact h ⟨hdetect, hrecord, hload, by simpa using hnot⟩
        rw [if_pos hcursor]
        cases hoption : options.onCorruptionDetected with
        | false => exact ⟨_, .corrupted hdetect hrecord hload hcursor (by simp [hoption]), rfl⟩
        | true =>
          cases hnotify : awaits.notify with
          | fulfilled => exact ⟨_, .corrupted hdetect hrecord hload hcursor fun _ => hnotify, rfl⟩
          | rejected e tookEffect =>
            refine ⟨.error e, .notifyRejected hdetect hrecord hload hcursor hoption hnotify, ?_⟩
            cases tookEffect <;> rfl

/-- The result that `processEvent` makes of the end of its `try` block. -/
def resultOf : Except SdkError EventProcessingResult → EventProcessingResult
  | .ok result => result
  | .error e => caughtResult e

variable (toISOString options) in
theorem processEvent_of_not_proceeds (h : ¬Proceeds s event awaits) :
    ∃ ending, Stops toISOString options s event awaits ending ∧
      processEvent toISOString options event awaits s = .ok (resultOf ending) s := by
  obtain ⟨ending, hstops, htry⟩ := tryProcess_of_not_proceeds h
  refine ⟨ending, hstops, ?_⟩
  cases ending with
  | ok result => exact Method.tryCatch_of_ok htry
  | error e => exact Method.tryCatch_of_error htry

variable (toISOString options) in
/-- The stores and the result of a call that records its event. -/
theorem processEvent_of_proceeds (h : Proceeds s event awaits) :
    processEvent toISOString options event awaits s =
      match awaits.record, awaits.save with
      | .rejected e tookEffect, _ =>
        .ok (caughtResult e) (if tookEffect = true then s.recordEvent event awaits.recordedAt else s)
      | .fulfilled, .rejected e tookEffect =>
        .ok (caughtResult e)
          (if tookEffect = true then (s.recordEvent event awaits.recordedAt).saveCursor event awaits.capturedAt
            else s.recordEvent event awaits.recordedAt)
      | .fulfilled, .fulfilled =>
        .ok successResult ((s.recordEvent event awaits.recordedAt).saveCursor event awaits.capturedAt) := by
  have htry : tryProcess toISOString options event awaits s = _ := (tryProcess_of_proceeds h).trans recordAndSave_eq
  rw [processEvent]
  cases hrecord : awaits.record with
  | rejected e tookEffect =>
    rw [hrecord] at htry
    exact Method.tryCatch_of_error htry
  | fulfilled =>
    rw [hrecord] at htry
    cases hsave : awaits.save with
    | rejected e tookEffect =>
      rw [hsave] at htry
      exact Method.tryCatch_of_error htry
    | fulfilled =>
      rw [hsave] at htry
      exact Method.tryCatch_of_ok htry

/-- A call that stops has not succeeded, and reports a duplicate if the
detector has its key. -/
theorem Stops.result {ending : Except SdkError EventProcessingResult}
    (h : Stops toISOString options s event awaits ending) :
    (resultOf ending).success = false ∧
      (awaits.detect = .fulfilled → ((resultOf ending).replayDetected = true ↔ s.HasRecord event)) := by
  cases h with
  | detectRejected h => exact ⟨rfl, fun hdetect => by rw [h] at hdetect; cases hdetect⟩
  | duplicate _ hrecord => exact ⟨rfl, fun _ => iff_of_true rfl hrecord⟩
  | loadRejected _ hnew => exact ⟨rfl, fun _ => iff_of_false nofun hnew⟩
  | corrupted _ hnew => exact ⟨rfl, fun _ => iff_of_false nofun hnew⟩
  | notifyRejected _ hnew => exact ⟨rfl, fun _ => iff_of_false nofun hnew⟩

end Processing

/-! ## The stores -/

section Stores

variable {s : EventStores ν} {event : EventData ν}

theorem hasRecord_recordEvent {now : Int} {e : EventData ν} :
    (s.recordEvent event now).HasRecord e ↔
      createCompositeKey e.id e.batchRoot = createCompositeKey event.id event.batchRoot ∨ s.HasRecord e := by
  rw [EventStores.HasRecord, EventStores.recordEvent, InMemoryReplayDetector.recordEvent, lookup_setKey]
  split
  · rename_i h
    exact iff_of_true rfl (.inl h)
  · rename_i h
    exact (or_iff_right h).symm

/-- The numbers of a position, in the order in which they are compared. -/
def EventCursorState.positions (state : EventCursorState ν) : List (JsNumber ν) :=
  [state.ledgerSequence, state.transactionPosition, state.operationPosition, state.eventPosition]

variable [LinearOrder ν]

/-- A position is taken for corrupted when it comes before that of the cursor. -/
theorem isCursorCorrupted_some (cursor : EventCursor ν) (state : EventCursorState ν) :
    isCursorCorrupted (some cursor) state = JsNumber.lexLess state.positions cursor.state.positions := by
  simp only [isCursorCorrupted, JsNumber.lexLess, EventCursorState.positions]
  cases JsNumber.lt state.ledgerSequence cursor.state.ledgerSequence <;>
    cases JsNumber.eq state.ledgerSequence cursor.state.ledgerSequence <;>
    cases JsNumber.lt state.transactionPosition cursor.state.transactionPosition <;>
    cases JsNumber.eq state.transactionPosition cursor.state.transactionPosition <;> simp

/-- No number of the position is `NaN`. -/
def EventCursorState.Comparable (state : EventCursorState ν) : Prop := ∀ n ∈ state.positions, n.isNaN = false

/-- The later cursor is not behind the earlier one, in the order in which the
processor looks for corruption. -/
def NotBehind (earlier later : Option (EventCursor ν)) : Prop :=
  ∀ e ∈ earlier, ∃ l ∈ later, isCursorCorrupted (some e) l.state = false

theorem NotBehind.refl (cursor : Option (EventCursor ν)) : NotBehind cursor cursor := by
  intro e he
  refine ⟨e, he, ?_⟩
  rw [isCursorCorrupted_some, JsNumber.lexLess_self]

theorem notBehind_cursorOf {cursor : Option (EventCursor ν)} {capturedAt : Int}
    (h : isCursorCorrupted cursor (createCursorState event) = false) :
    NotBehind cursor (some (cursorOf event capturedAt)) := by
  rintro e he
  obtain rfl := Option.mem_def.mp he
  exact ⟨_, rfl, h⟩

theorem NotBehind.trans {a b c : Option (EventCursor ν)} (hab : NotBehind a b) (hbc : NotBehind b c)
    (hb : ∀ cursor ∈ b, cursor.state.Comparable) : NotBehind a c := by
  intro x hx
  obtain ⟨y, hy, hxy⟩ := hab x hx
  obtain ⟨z, hz, hyz⟩ := hbc y hy
  refine ⟨z, hz, ?_⟩
  rw [isCursorCorrupted_some] at hxy hyz ⊢
  have hlen (state state' : EventCursorState ν) : state.positions.length = state'.positions.length := rfl
  exact JsNumber.lexLess_eq_false_trans (hlen _ _) (hlen _ _) (hb y hy) hxy hyz

end Stores

end ZkPayroll.Indexer
