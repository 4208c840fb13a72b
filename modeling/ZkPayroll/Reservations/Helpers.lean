import ZkPayroll.Core.Errors
import ZkPayroll.Framework.Guards

/-!
# Funding reservations

The requests that `reservations/helpers.ts` makes from a reservation, and
`calculateReservationRemaining`. What is still reserved (`stillReserved`) is
what was reserved, less what the record says was released or used. The helpers
do not look at it: a request is compared with what was reserved, and what
remains is read from the first amount of the record that is not zero.
`conservesFunds_iff` says on which reservations and requests this makes no
difference.

`detectReservationIssues` looks for errors in the events of a reservation: two
that release or finalize it, or one of another kind after it has ended. It does
not look at the amounts, nor at how the history begins, so that it has no error
for some that are no lifecycle; where it has one, the reservation went on after
its end (`issues_of_history`).
-/

namespace ZkPayroll.Reservations

open Framework ZkPayroll.Core

inductive ReservationStatus where
  | reserved
  | released
  | finalized
  | expired
  | cancelled
  deriving DecidableEq, Repr

structure FundingReservation where
  reservationId : String
  reservedAmount : Int
  status : ReservationStatus
  usedAmount : Option Int := none
  releasedAmount : Option Int := none
  deriving DecidableEq, Repr

structure ReleaseReservationRequest where
  reservationId : String
  amount : Int
  reason : Option String
  deriving DecidableEq, Repr

/-- What came of the payments of a run. -/
structure ExecutionSummary where
  totalPayments : Int
  successfulPayments : Int
  failedPayments : Int
  deriving DecidableEq, Repr

structure FinalizeReservationRequest where
  reservationId : String
  usedAmount : Int
  executionSummary : Option ExecutionSummary
  deriving DecidableEq, Repr

def createPartialReleaseRequest (reservation : FundingReservation) (amountToRelease : Int)
    (reason : Option String) : Except SdkError ReleaseReservationRequest := do
  throwIf (amountToRelease > reservation.reservedAmount)
    (genericError s!"Cannot release {amountToRelease} stroops, only {reservation.reservedAmount} reserved")
  return { reservationId := reservation.reservationId, amount := amountToRelease, reason := reason }

def createFinalizeRequest (reservation : FundingReservation) (usedAmount : Int)
    (executionSummary : Option ExecutionSummary) : Except SdkError FinalizeReservationRequest := do
  throwIf (usedAmount > reservation.reservedAmount)
    (genericError s!"Cannot finalize with {usedAmount} stroops used, only {reservation.reservedAmount} reserved")
  return { reservationId := reservation.reservationId, usedAmount := usedAmount
           executionSummary := executionSummary }

/-- An amount that is neither missing nor `0n`. -/
def truthyAmount (amount : Option Int) : Option Int := amount.filter (· ≠ 0)

def calculateReservationRemaining (reservation : FundingReservation) : Int :=
  if reservation.status = .released ∨ reservation.status = .finalized then
    match truthyAmount reservation.releasedAmount with
    | some releasedAmount => releasedAmount
    | none =>
      match truthyAmount reservation.usedAmount with
      | some usedAmount => reservation.reservedAmount - usedAmount
      | none => 0
  else reservation.reservedAmount

/-! ## What is still reserved -/

namespace FundingReservation

variable (r : FundingReservation)

def released : Int := r.releasedAmount.getD 0

def used : Int := r.usedAmount.getD 0

/-- What is neither released nor used. -/
def stillReserved : Int := r.reservedAmount - r.released - r.used

/-- An amount that a request may have. -/
def Permits (amount : Int) : Prop := 0 ≤ amount ∧ amount ≤ r.stillReserved

/-- No amount of the record is negative. -/
def NonNegative : Prop := 0 ≤ r.reservedAmount ∧ 0 ≤ r.released ∧ 0 ≤ r.used

instance : Decidable r.NonNegative := inferInstanceAs (Decidable (_ ∧ _))

end FundingReservation

variable {r : FundingReservation}

/-- Requests ask for no more than is still reserved, and what remains is what
was neither released nor used. -/
structure ConservesFunds (r : FundingReservation) (amountToRelease usedAmount : Int) : Prop where
  release : ∀ reason request, createPartialReleaseRequest r amountToRelease reason = .ok request →
    r.Permits request.amount
  finalize : ∀ executionSummary request, createFinalizeRequest r usedAmount executionSummary = .ok request →
    r.Permits request.usedAmount
  remaining : r.NonNegative → r.released + r.used + calculateReservationRemaining r = r.reservedAmount

/-- The comparison with what was reserved refuses the amount, or there is no
need to refuse it. -/
def FundingReservation.Compares (r : FundingReservation) (amount : Int) : Prop :=
  r.reservedAmount < amount ∨ r.Permits amount

/-- What the amounts of a record are when they add up with what remains. -/
def FundingReservation.AddsUp (r : FundingReservation) : Prop :=
  match r.status with
  | .released | .finalized =>
    if r.released ≠ 0 then 2 * r.released + r.used = r.reservedAmount else r.used ≠ 0 ∨ r.reservedAmount = 0
  | .reserved | .expired | .cancelled => r.released + r.used = 0

theorem createPartialReleaseRequest_eq_ok {amount : Int} {reason : Option String}
    {request : ReleaseReservationRequest} :
    createPartialReleaseRequest r amount reason = .ok request ↔
      amount ≤ r.reservedAmount ∧ ⟨r.reservationId, amount, reason⟩ = request := by
  rw [createPartialReleaseRequest, throwIf_bind_eq_ok]
  simp [pure, Except.pure]

theorem createFinalizeRequest_eq_ok {amount : Int} {executionSummary : Option ExecutionSummary}
    {request : FinalizeReservationRequest} :
    createFinalizeRequest r amount executionSummary = .ok request ↔
      amount ≤ r.reservedAmount ∧ ⟨r.reservationId, amount, executionSummary⟩ = request := by
  rw [createFinalizeRequest, throwIf_bind_eq_ok]
  simp [pure, Except.pure]

theorem compares_iff {amount : Int} : r.Compares amount ↔ (amount ≤ r.reservedAmount → r.Permits amount) := by
  rw [FundingReservation.Compares, ← Int.not_le, Decidable.imp_iff_not_or]

theorem getD_truthyAmount (amount : Option Int) : (truthyAmount amount).getD 0 = amount.getD 0 := by
  cases amount with
  | none => rfl
  | some a => by_cases ha : a = 0 <;> simp [truthyAmount, Option.filter, ha]

theorem truthyAmount_eq_none {amount : Option Int} : truthyAmount amount = none ↔ amount.getD 0 = 0 := by
  cases amount with
  | none => simp [truthyAmount]
  | some a => by_cases ha : a = 0 <;> simp [truthyAmount, Option.filter, ha]

/-- What remains of a reservation that is released or finalized, by the amounts
that its record has. -/
theorem remaining_of_concluded (h : r.status = .released ∨ r.status = .finalized) :
    calculateReservationRemaining r =
      if r.released ≠ 0 then r.released else if r.used ≠ 0 then r.reservedAmount - r.used else 0 := by
  rw [calculateReservationRemaining, if_pos h]
  have hreleased := getD_truthyAmount r.releasedAmount
  have hused := getD_truthyAmount r.usedAmount
  cases hr : truthyAmount r.releasedAmount with
  | some a =>
    have hne : r.released ≠ 0 := fun h0 => by simp [truthyAmount_eq_none.mpr h0] at hr
    rw [hr] at hreleased
    rw [if_pos hne]
    exact hreleased
  | none =>
    have hzero : ¬r.released ≠ 0 := not_not.mpr (truthyAmount_eq_none.mp hr)
    rw [if_neg hzero]
    cases hu : truthyAmount r.usedAmount with
    | some a =>
      have hne : r.used ≠ 0 := fun h0 => by simp [truthyAmount_eq_none.mpr h0] at hu
      rw [hu] at hused
      rw [if_pos hne, FundingReservation.used, ← hused]
      rfl
    | none =>
      have hunused : ¬r.used ≠ 0 := not_not.mpr (truthyAmount_eq_none.mp hu)
      rw [if_neg hunused]

theorem remaining_iff :
    r.released + r.used + calculateReservationRemaining r = r.reservedAmount ↔ r.AddsUp := by
  unfold FundingReservation.AddsUp
  split
  case h_1 | h_2 =>
    rename_i hstatus
    rw [remaining_of_concluded (by simp [hstatus])]
    split
    · omega
    · split <;> omega
  case h_3 | h_4 | h_5 =>
    rename_i hstatus
    have hopen : calculateReservationRemaining r = r.reservedAmount := by
      simp [calculateReservationRemaining, hstatus]
    rw [hopen]
    omega

/-- The reservations and requests on which the helpers conserve the funds. -/
theorem conservesFunds_iff (r : FundingReservation) (amountToRelease usedAmount : Int) :
    ConservesFunds r amountToRelease usedAmount ↔
      r.Compares amountToRelease ∧ r.Compares usedAmount ∧ (r.NonNegative → r.AddsUp) := by
  rw [compares_iff, compares_iff, ← remaining_iff]
  constructor
  · intro h
    exact ⟨fun hle => h.release none _ (createPartialReleaseRequest_eq_ok.mpr ⟨hle, rfl⟩),
      fun hle => h.finalize none _ (createFinalizeRequest_eq_ok.mpr ⟨hle, rfl⟩), h.remaining⟩
  · rintro ⟨hrelease, hfinalize, hremaining⟩
    refine ⟨fun reason request hok => ?_, fun summary request hok => ?_, hremaining⟩
    · obtain ⟨hle, rfl⟩ := createPartialReleaseRequest_eq_ok.mp hok
      exact hrelease hle
    · obtain ⟨hle, rfl⟩ := createFinalizeRequest_eq_ok.mp hok
      exact hfinalize hle

/-- A reservation that was finalized without a payment. -/
def nothingUsed : FundingReservation :=
  { reservationId := "res-1", reservedAmount := 10, status := .finalized, usedAmount := some 0 }

/-- Nothing remains of it, although nothing was used or released. -/
theorem nothing_remains_unused :
    calculateReservationRemaining nothingUsed = 0 ∧ nothingUsed.stillReserved = 10 ∧
      ¬ConservesFunds nothingUsed 0 0 := by
  refine ⟨by decide, by decide, fun h => ?_⟩
  have hremaining := h.remaining (by decide)
  revert hremaining
  decide

/-! ## Histories -/

inductive ReservationEventType where
  | reserved
  | released
  | finalized
  | expired
  | cancelled
  | duplicate_release_attempt
  deriving DecidableEq, Repr

structure ReservationEvent where
  eventId : String
  eventType : ReservationEventType
  employer : String
  amount : Int
  txHash : String
  deriving DecidableEq, Repr

inductive IssueSeverity where
  | warning
  | error
  deriving DecidableEq, Repr

/-- What is wrong in a history of events. -/
structure ReservationIssue where
  issue : String
  severity : IssueSeverity
  eventIds : List String
  deriving DecidableEq, Repr

def terminalEventTypes : List ReservationEventType := [.finalized, .released, .expired, .cancelled]

def isTerminal (event : ReservationEvent) : Bool := terminalEventTypes.contains event.eventType

/-- `eventCounts[eventType]` -/
def eventCount (events : List ReservationEvent) (eventType : ReservationEventType) : Nat :=
  events.countP fun event => event.eventType = eventType

/-- The loop over the events, with `foundTerminalEvent`. -/
def eventsAfterTerminal (foundTerminalEvent : Bool) : List ReservationEvent → List String
  | [] => []
  | event :: events =>
    if isTerminal event then eventsAfterTerminal true events
    else if foundTerminalEvent && event.eventType ≠ .finalized then
      event.eventId :: eventsAfterTerminal foundTerminalEvent events
    else eventsAfterTerminal foundTerminalEvent events

def detectReservationIssues (events : List ReservationEvent) : List ReservationIssue :=
  let finalCount := eventCount events .finalized + eventCount events .released
  let afterTerminal := eventsAfterTerminal false events
  (if eventCount events .released > 1 then
    [{ issue := "Multiple release events detected (possible duplicate release attempts)"
       severity := .warning
       eventIds := (events.filter fun e => e.eventType = .released).map (·.eventId) }]
  else []) ++
  (if finalCount > 1 then
    [{ issue := "Reservation was both finalized and released (conflicting terminal states)"
       severity := .error
       eventIds := (events.filter fun e => e.eventType = .finalized ∨ e.eventType = .released).map (·.eventId) }]
  else []) ++
  (if afterTerminal.length > 0 then
    [{ issue := "Events recorded after terminal state (contract state violation)"
       severity := .error
       eventIds := afterTerminal }]
  else [])

/-- An issue that is an error is found. -/
def ReportsError (events : List ReservationEvent) : Prop :=
  ∃ issue ∈ detectReservationIssues events, issue.severity = .error

/-- A reservation that is open, or that ended with no more than it had. -/
inductive ValidLifecycle : List ReservationEvent → Prop
  | opened {r : ReservationEvent} (hr : r.eventType = .reserved) : ValidLifecycle [r]
  | ended {r t : ReservationEvent} (hr : r.eventType = .reserved)
      (ht : t.eventType ∈ [ReservationEventType.released, .finalized, .expired]) (hamount : t.amount ≤ r.amount) :
      ValidLifecycle [r, t]

/-- Something follows an event that ends the reservation. -/
def GoesOn (events : List ReservationEvent) : Prop :=
  ∃ pre e post, events = pre ++ e :: post ∧ isTerminal e = true ∧ post ≠ []

/-- An event by which the reservation lapses is the only one that ends it. -/
def LapsesOnce (events : List ReservationEvent) : Prop :=
  (∃ e ∈ events, e.eventType = .expired ∨ e.eventType = .cancelled) → events.countP isTerminal ≤ 1

variable {events : List ReservationEvent}

theorem reportsError_iff :
    ReportsError events ↔
      1 < eventCount events .finalized + eventCount events .released ∨ eventsAfterTerminal false events ≠ [] := by
  have hlen : (eventsAfterTerminal false events).length > 0 ↔ eventsAfterTerminal false events ≠ [] :=
    List.length_pos_iff
  simp only [ReportsError, detectReservationIssues, List.mem_append, hlen]
  constructor
  · intro ⟨issue, hmem, herror⟩
    rcases hmem with (hwarning | hfinal) | hafter
    · split at hwarning
      · rw [List.mem_singleton.mp hwarning] at herror
        cases herror
      · cases hwarning
    · split at hfinal
      next h => exact .inl h
      next => cases hfinal
    · split at hafter
      next h => exact .inr h
      next => cases hafter
  · intro h
    rcases h with hfinal | hafter
    · exact ⟨_, .inl (.inr (by rw [if_pos hfinal]; exact List.mem_singleton_self _)), rfl⟩
    · exact ⟨_, .inr (by rw [if_pos hafter]; exact List.mem_singleton_self _), rfl⟩

theorem goesOn_cons {e : ReservationEvent} :
    GoesOn (e :: events) ↔ (isTerminal e = true ∧ events ≠ []) ∨ GoesOn events := by
  constructor
  · intro ⟨pre, t, post, heq, ht, hpost⟩
    cases pre with
    | nil =>
      obtain ⟨rfl, rfl⟩ := List.cons.inj heq
      exact .inl ⟨ht, hpost⟩
    | cons p pre => exact .inr ⟨pre, t, post, (List.cons.inj heq).2, ht, hpost⟩
  · intro h
    rcases h with ⟨he, hne⟩ | ⟨pre, t, post, heq, ht, hpost⟩
    · exact ⟨[], e, events, rfl, he, hne⟩
    · exact ⟨e :: pre, t, post, by rw [heq]; rfl, ht, hpost⟩

theorem not_goesOn_nil : ¬ GoesOn [] := by
  intro ⟨pre, t, post, heq, _, _⟩
  cases pre <;> cases heq

theorem ValidLifecycle.not_goesOn (h : ValidLifecycle events) : ¬ GoesOn events := by
  have hopen : ∀ {r : ReservationEvent}, r.eventType = .reserved → ¬isTerminal r = true := by
    intro r hr
    rw [isTerminal, hr]
    decide
  cases h with
  | opened hr => simp [goesOn_cons, not_goesOn_nil]
  | ended hr ht hamount => simp [goesOn_cons, not_goesOn_nil, hopen hr]

/-- The loop reports what is not an end, once it has found one. -/
theorem eventsAfterTerminal_true :
    eventsAfterTerminal true events ≠ [] ↔ ∃ e ∈ events, isTerminal e = false := by
  induction events with
  | nil => simp [eventsAfterTerminal]
  | cons e events ih =>
    cases he : isTerminal e with
    | true =>
      rw [eventsAfterTerminal, if_pos he, ih]
      simp [he]
    | false =>
      have hfinalized : e.eventType ≠ .finalized := by
        intro h
        rw [isTerminal, h] at he
        exact absurd he (by decide)
      rw [eventsAfterTerminal, if_neg (by simp [he]), if_pos (by simpa using hfinalized)]
      exact iff_of_true (List.cons_ne_nil _ _) ⟨e, List.mem_cons_self, he⟩

theorem goesOn_of_eventsAfterTerminal (h : eventsAfterTerminal false events ≠ []) :
    GoesOn events := by
  induction events with
  | nil => exact absurd rfl h
  | cons e events ih =>
    rw [goesOn_cons]
    rw [eventsAfterTerminal] at h
    split at h
    next he =>
      obtain ⟨f, hf, -⟩ := eventsAfterTerminal_true.mp h
      exact .inl ⟨he, List.ne_nil_of_mem hf⟩
    next =>
      rw [if_neg (by simp)] at h
      exact .inr (ih h)

theorem goesOn_of_countP (h : 1 < events.countP isTerminal) : GoesOn events := by
  induction events with
  | nil => exact absurd h (by decide)
  | cons e events ih =>
    rw [goesOn_cons]
    rw [List.countP_cons] at h
    split at h
    next he =>
      refine .inl ⟨he, fun hnil => ?_⟩
      rw [hnil] at h
      exact absurd h (by decide)
    next => exact .inr (ih h)

theorem countP_isTerminal (events : List ReservationEvent) :
    events.countP isTerminal =
      eventCount events .finalized + eventCount events .released + eventCount events .expired +
        eventCount events .cancelled := by
  induction events with
  | nil => rfl
  | cons e events ih =>
    simp only [eventCount, List.countP_cons] at ih ⊢
    rw [ih]
    cases he : e.eventType <;> simp [isTerminal, terminalEventTypes, he] <;> omega

theorem eventCount_eq_zero {eventType : ReservationEventType}
    (h : ∀ e ∈ events, e.eventType ≠ eventType) : eventCount events eventType = 0 := by
  rw [eventCount, List.countP_eq_zero]
  intro e he
  simpa using h e he

/-- A loop that finds nothing saw only ends after an end. -/
theorem countP_of_goesOn (h : GoesOn events) (hnone : eventsAfterTerminal false events = []) :
    1 < events.countP isTerminal := by
  induction events with
  | nil => exact absurd h not_goesOn_nil
  | cons e events ih =>
    rw [goesOn_cons] at h
    rw [eventsAfterTerminal] at hnone
    rw [List.countP_cons]
    split at hnone
    next he =>
      have hall : ∀ f ∈ events, isTerminal f = true := by
        intro f hf
        by_contra hcontra
        exact eventsAfterTerminal_true.mpr ⟨f, hf, by simpa using hcontra⟩ hnone
      have hne : events ≠ [] := by
        rcases h with ⟨-, hne⟩ | ⟨pre, t, post, heq, -, -⟩
        · exact hne
        · rw [heq]
          simp
      have hpos := List.length_pos_iff.mpr hne
      rw [if_pos he, List.countP_eq_length.mpr hall]
      omega
    next he =>
      rw [if_neg (by simp)] at hnone
      have hlater := ih (h.resolve_left fun hend => he hend.1) hnone
      omega

/-- An error tells that the reservation went on after its end, which no valid
lifecycle does; and it does tell, unless it lapsed and ended in another way. -/
theorem issues_of_history (events : List ReservationEvent) :
    (ValidLifecycle events → ¬ ReportsError events) ∧ (ReportsError events → GoesOn events) ∧
      (LapsesOnce events → GoesOn events → ReportsError events) := by
  have hsound : ReportsError events → GoesOn events := by
    rw [reportsError_iff]
    intro h
    rcases h with hfinal | hafter
    · have hcount := countP_isTerminal events
      exact goesOn_of_countP (by omega)
    · exact goesOn_of_eventsAfterTerminal hafter
  refine ⟨fun hvalid herror => hvalid.not_goesOn (hsound herror), hsound, fun hlapses hgoes => ?_⟩
  rw [reportsError_iff]
  by_cases hnone : eventsAfterTerminal false events = []
  · have hcount := countP_of_goesOn hgoes hnone
    have hnever : ∀ e ∈ events, ¬(e.eventType = .expired ∨ e.eventType = .cancelled) := by
      intro e he hlapse
      have hle := hlapses ⟨e, he, hlapse⟩
      omega
    have hexpired := eventCount_eq_zero fun e he h => hnever e he (.inl h)
    have hcancelled := eventCount_eq_zero fun e he h => hnever e he (.inr h)
    rw [countP_isTerminal, hexpired, hcancelled] at hcount
    exact .inl (by omega)
  · exact .inr hnone

/-- A reservation that was finalized and released. -/
def finalizedAndReleased : List ReservationEvent :=
  [⟨"evt-1", .reserved, "GEMPLOYER", 10, "0x1"⟩, ⟨"evt-2", .finalized, "GEMPLOYER", 8, "0x2"⟩,
    ⟨"evt-3", .released, "GEMPLOYER", 2, "0x3"⟩]

theorem finalizedAndReleased_reported : ReportsError finalizedAndReleased ∧ ¬ ValidLifecycle finalizedAndReleased := by
  have hgoes : GoesOn finalizedAndReleased := goesOn_of_countP (by decide)
  have hlapses : LapsesOnce finalizedAndReleased := fun h => absurd h (by decide)
  obtain ⟨hvalid, -, herror⟩ := issues_of_history finalizedAndReleased
  exact ⟨herror hlapses hgoes, fun h => hvalid h (herror hlapses hgoes)⟩

/-- More was released than had been reserved, and no error tells of it. -/
theorem excess_not_reported : ¬∀ events : List ReservationEvent, ReportsError events ↔ ¬ ValidLifecycle events := by
  intro h
  have herror := (h [⟨"evt-1", .reserved, "GEMPLOYER", 10, "0x1"⟩,
      ⟨"evt-2", .released, "GEMPLOYER", 20, "0x2"⟩]).mpr fun hvalid => by
    cases hvalid with
    | ended hr ht hamount => exact absurd hamount (by decide)
  rw [reportsError_iff] at herror
  exact absurd herror (by decide)

end ZkPayroll.Reservations
