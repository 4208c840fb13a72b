import ZkPayroll.Framework.Firsts
import ZkPayroll.Framework.Grouping
import ZkPayroll.Reservations.Helpers

/-!
# Reconciliation of reservations

`reconciliation/ReservationReconciliationHelper.ts`: what a client expects of
its reservations, compared with what is on chain. There is one entry for each id
that is known on either side. Where the reservations are fully reconciled the two
sides agree on each of them, and they are fully reconciled where the two sides
agree on each and on its expiry (`reconcileMultipleReservations_spec`). They agree
when both have the reservation with one status and one amount, it is not past
its expiry while it is still reserved, and no release of it was recorded twice
(`Agrees`).
-/

namespace ZkPayroll.Reservations

open Framework

def ReservationStatus.text : ReservationStatus → String
  | .reserved => "reserved"
  | .released => "released"
  | .finalized => "finalized"
  | .expired => "expired"
  | .cancelled => "cancelled"

/-- A reservation, with the time at which it expires. -/
structure ExpiringReservation extends FundingReservation where
  expiresAt : Int
  deriving DecidableEq, Repr

structure ExpectedReservationState where
  reservationId : String
  status : String
  amount : Int
  expiresAt : Int
  lastKnownTxHash : Option String
  deriving DecidableEq, Repr

structure ObservedReservationState where
  reservation : Option ExpiringReservation
  events : List ReservationEvent
  deriving DecidableEq, Repr

inductive ReservationCategory where
  | match
  | status_mismatch
  | amount_mismatch
  | missing_on_chain
  | unexpected_on_chain
  | duplicate_release
  | orphaned_events
  | expired_not_marked
  deriving DecidableEq, Repr

/-- What a difference tells of the expected state. -/
structure ExpectedSnapshot where
  status : String
  amount : Int
  expiresAt : Int
  lastKnownTxHash : Option String
  deriving DecidableEq, Repr

/-- What a difference tells of the observed state. -/
structure ObservedSnapshot where
  status : ReservationStatus
  amount : Int
  expiresAt : Int
  lastEventTxHash : Option String
  eventCount : Nat
  deriving DecidableEq, Repr

structure ReservationReconciliationEntry where
  reservationId : String
  category : ReservationCategory
  expected : Option ExpectedSnapshot := none
  observed : Option ObservedSnapshot := none
  reason : String
  relatedEventIds : Option (List String) := none
  deriving DecidableEq, Repr

structure ReservationReconciliationResult where
  entries : List ReservationReconciliationEntry
  counts : List (ReservationCategory × Nat)
  isFullyReconciled : Bool
  reconciliationAt : Int
  deriving DecidableEq, Repr

/-! ## One reservation -/

def ExpectedReservationState.snapshot (expectedState : ExpectedReservationState) : ExpectedSnapshot where
  status := expectedState.status
  amount := expectedState.amount
  expiresAt := expectedState.expiresAt
  lastKnownTxHash := expectedState.lastKnownTxHash

def observedSnapshot (reservation : ExpiringReservation) (events : List ReservationEvent) : ObservedSnapshot where
  status := reservation.status
  amount := reservation.reservedAmount
  expiresAt := reservation.expiresAt
  lastEventTxHash := events.getLast?.map (·.txHash)
  eventCount := events.length

/-- Both events release the same funds. -/
def sameRelease (first second : ReservationEvent) : Bool :=
  first.amount = second.amount && first.employer = second.employer

/-- The loops over the release events: each with the later ones. -/
def duplicatePairs : List ReservationEvent → List (ReservationEvent × ReservationEvent)
  | [] => []
  | first :: later => ((later.filter (sameRelease first)).map fun second => (first, second)) ++ duplicatePairs later

def releaseEvents (events : List ReservationEvent) : List ReservationEvent :=
  events.filter fun e => e.eventType = .released

def detectDuplicateReleases (events : List ReservationEvent) : List (ReservationEvent × ReservationEvent) :=
  duplicatePairs (releaseEvents events)

def isExpiredNotMarked (reservation : ExpiringReservation) (now : Int) : Bool :=
  reservation.status = .reserved && now > reservation.expiresAt

/-- `toISOString` is that of a `Date`, for a time that a date can have. -/
def compareReservationStates (toISOString : Int → String) (now : Int) (expectedState : ExpectedReservationState)
    (observedReservation : ExpiringReservation) (events : List ReservationEvent) : ReservationReconciliationEntry :=
  let duplicateReleases := detectDuplicateReleases events
  if duplicateReleases.length > 0 then
    { reservationId := expectedState.reservationId
      category := .duplicate_release
      expected := some expectedState.snapshot
      observed := some (observedSnapshot observedReservation events)
      reason := s!"Found {duplicateReleases.length} duplicate release event(s) for reservation"
      relatedEventIds := some (duplicateReleases.flatMap fun d => [d.1.eventId, d.2.eventId]) }
  else if isExpiredNotMarked observedReservation now then
    { reservationId := expectedState.reservationId
      category := .expired_not_marked
      expected := some expectedState.snapshot
      observed := some (observedSnapshot observedReservation events)
      reason := s!"Reservation expired at {toISOString observedReservation.expiresAt} but still marked as " ++
        s!"\"{observedReservation.status.text}\""
      relatedEventIds := some (events.map (·.eventId)) }
  else if expectedState.status ≠ observedReservation.status.text then
    { reservationId := expectedState.reservationId
      category := .status_mismatch
      expected := some expectedState.snapshot
      observed := some (observedSnapshot observedReservation events)
      reason := s!"Status mismatch: expected \"{expectedState.status}\", observed " ++
        s!"\"{observedReservation.status.text}\""
      relatedEventIds := some (events.map (·.eventId)) }
  else if expectedState.amount ≠ observedReservation.reservedAmount then
    { reservationId := expectedState.reservationId
      category := .amount_mismatch
      expected := some expectedState.snapshot
      observed := some (observedSnapshot observedReservation events)
      reason := s!"Amount mismatch: expected {expectedState.amount} stroops, observed " ++
        s!"{observedReservation.reservedAmount}"
      relatedEventIds := some (events.map (·.eventId)) }
  else
    { reservationId := expectedState.reservationId
      category := .match
      expected := some expectedState.snapshot
      observed := some (observedSnapshot observedReservation events)
      reason := "Expected and observed states match"
      relatedEventIds := some (events.map (·.eventId)) }

/-- `expectedState?.reservationId || observedState.reservation?.reservationId`,
where it is not empty. -/
def reservationIdOf (expectedState : Option ExpectedReservationState) (observedState : ObservedReservationState) :
    Option String :=
  ((expectedState.map (·.reservationId)).filter (· ≠ "")).or
    ((observedState.reservation.map (·.reservationId)).filter (· ≠ ""))

def reconcileSingleReservation (toISOString : Int → String) (now : Int)
    (expectedState : Option ExpectedReservationState) (observedState : ObservedReservationState) :
    ReservationReconciliationEntry :=
  match reservationIdOf expectedState observedState with
  | none =>
    { reservationId := "unknown"
      category := .unexpected_on_chain
      reason := "Unable to determine reservation ID from expected or observed state"
      observed := observedState.reservation.map fun r => observedSnapshot r observedState.events }
  | some reservationId =>
    match expectedState, observedState.reservation with
    | some expectedState, none =>
      { reservationId
        category := .missing_on_chain
        expected := some expectedState.snapshot
        reason := s!"Reservation {reservationId} not found on-chain, but client expected status " ++
          s!"\"{expectedState.status}\""
        relatedEventIds := some (observedState.events.map (·.eventId)) }
    | none, some reservation =>
      { reservationId
        category := .unexpected_on_chain
        observed := some (observedSnapshot reservation observedState.events)
        reason := s!"Reservation {reservationId} found on-chain in \"{reservation.status.text}\" state, but client " ++
          "has no record"
        relatedEventIds := some (observedState.events.map (·.eventId)) }
    | some expectedState, some reservation =>
      compareReservationStates toISOString now expectedState reservation observedState.events
    | none, none =>
      { reservationId
        category := .unexpected_on_chain
        reason := "Unable to reconcile: insufficient state information" }

/-! ## All reservations -/

section

variable (toISOString : Int → String) (clock : String → Int) (finishedAt : Int)
variable (expectedStates : List (String × ExpectedReservationState))
  (observedStates : List (String × ObservedReservationState))

/-- The ids of the two maps, in the order in which they are added to the set. -/
def allReservationIds : List String := firsts id [] (expectedStates.map Prod.fst ++ observedStates.map Prod.fst)

/-- The entry of an id. `clock` is when it is reconciled. -/
def reconcileId (reservationId : String) : ReservationReconciliationEntry :=
  reconcileSingleReservation toISOString (clock reservationId) (expectedStates.lookup reservationId)
    ((observedStates.lookup reservationId).getD { reservation := none, events := [] })

def reconcileMultipleReservations : ReservationReconciliationResult :=
  let entries := (allReservationIds expectedStates observedStates).map
    (reconcileId toISOString clock expectedStates observedStates)
  { entries
    counts := sumByKey (·.category) (fun _ => 1) entries []
    isFullyReconciled := entries.all fun e => e.category = .match
    reconciliationAt := finishedAt }

end

/-! ## Agreement -/

/-- The two sides agree on a reservation. -/
structure Agrees (now : Int) (expected : Option ExpectedReservationState) (observed : Option ObservedReservationState)
    (e : ExpectedReservationState) (o : ObservedReservationState) (r : ExpiringReservation) : Prop where
  expected_eq : expected = some e
  observed_eq : observed = some o
  reservation_eq : o.reservation = some r
  named : e.reservationId ≠ "" ∨ r.reservationId ≠ ""
  status_eq : e.status = r.status.text
  amount_eq : e.amount = r.reservedAmount
  current : r.status = .reserved → now ≤ r.expiresAt
  released_once : (releaseEvents o.events).Pairwise fun first second =>
    ¬(first.amount = second.amount ∧ first.employer = second.employer)

/-- The records at an id carry it, and there is one of them. -/
structure Keyed (id : String) (expected : Option ExpectedReservationState) (observed : Option ObservedReservationState) :
    Prop where
  ne_empty : id ≠ ""
  expected_id : ∀ e, expected = some e → e.reservationId = id
  observed_id : ∀ o r, observed = some o → o.reservation = some r → r.reservationId = id
  recorded : expected ≠ none ∨ ∃ o r, observed = some o ∧ o.reservation = some r

theorem duplicatePairs_eq_nil {releases : List ReservationEvent} :
    duplicatePairs releases = [] ↔ releases.Pairwise fun first second =>
      ¬(first.amount = second.amount ∧ first.employer = second.employer) := by
  induction releases with
  | nil => simp [duplicatePairs]
  | cons first later ih =>
    rw [duplicatePairs, List.append_eq_nil_iff, List.map_eq_nil_iff, List.filter_eq_nil_iff, ih, List.pairwise_cons]
    simp [sameRelease]

variable {toISOString : Int → String} {now : Int}
variable {e : ExpectedReservationState} {r : ExpiringReservation}

theorem category_compareReservationStates {events : List ReservationEvent} :
    (compareReservationStates toISOString now e r events).category = .match ↔
      detectDuplicateReleases events = [] ∧ (r.status = .reserved → now ≤ r.expiresAt) ∧ e.status = r.status.text ∧
        e.amount = r.reservedAmount := by
  have hexpired : isExpiredNotMarked r now = true ↔ ¬(r.status = .reserved → now ≤ r.expiresAt) := by
    rw [isExpiredNotMarked, Bool.and_eq_true, decide_eq_true_eq, decide_eq_true_eq, Classical.not_imp, Int.not_le]
  have hnone : (detectDuplicateReleases events).length > 0 ↔ detectDuplicateReleases events ≠ [] := List.length_pos_iff
  simp only [compareReservationStates, hnone]
  split
  next h => simp [h]
  next h =>
    split
    next hpast => simp [hexpired.mp hpast]
    next hcurrent =>
      rw [hexpired, not_not] at hcurrent
      split
      next hstatus => simp [hstatus]
      next hstatus =>
        split
        next hamount => simp [hamount]
        next hamount => exact iff_of_true rfl ⟨not_not.mp h, hcurrent, not_not.mp hstatus, not_not.mp hamount⟩

variable {o : ObservedReservationState}

theorem reservationIdOf_ne_none (hr : o.reservation = some r) :
    reservationIdOf (some e) o ≠ none ↔ e.reservationId ≠ "" ∨ r.reservationId ≠ "" := by
  rw [reservationIdOf, hr]
  by_cases he : e.reservationId = ""
  · by_cases hid : r.reservationId = ""
    · simp [he, hid]
    · simp [he, hid]
  · simp [he]

/-- What a reservation that both sides have is compared with. -/
theorem reconcileSingleReservation_both (hr : o.reservation = some r) (hid : reservationIdOf (some e) o ≠ none) :
    reconcileSingleReservation toISOString now (some e) o = compareReservationStates toISOString now e r o.events := by
  obtain ⟨id, hid⟩ := Option.ne_none_iff_exists'.mp hid
  rw [reconcileSingleReservation, hid, hr]

variable {expected : Option ExpectedReservationState}

/-- What is missing on a side is no match. -/
theorem exists_both_of_match (h : (reconcileSingleReservation toISOString now expected o).category = .match) :
    ∃ e r, expected = some e ∧ o.reservation = some r ∧ reservationIdOf (some e) o ≠ none := by
  rw [reconcileSingleReservation] at h
  cases hid : reservationIdOf expected o with
  | none =>
    rw [hid] at h
    cases h
  | some id =>
    rw [hid] at h
    cases expected with
    | none => cases hr : o.reservation <;> rw [hr] at h <;> cases h
    | some e =>
      cases hr : o.reservation with
      | none =>
        rw [hr] at h
        cases h
      | some r => exact ⟨e, r, rfl, rfl, by simp [hid]⟩

variable {observed : Option ObservedReservationState}

/-- A reservation is a match just if both sides have it and agree. -/
theorem category_reconcileSingleReservation :
    (reconcileSingleReservation toISOString now expected
        (observed.getD { reservation := none, events := [] })).category = .match ↔
      ∃ e o r, Agrees now expected observed e o r := by
  constructor
  · intro h
    obtain ⟨e, r, rfl, hr, hid⟩ := exists_both_of_match h
    cases observed with
    | none => cases hr
    | some o =>
      rw [Option.getD_some] at h hr hid
      rw [reconcileSingleReservation_both hr hid, category_compareReservationStates, detectDuplicateReleases,
        duplicatePairs_eq_nil] at h
      obtain ⟨honce, hcurrent, hstatus, hamount⟩ := h
      exact ⟨e, o, r, rfl, rfl, hr, (reservationIdOf_ne_none hr).mp hid, hstatus, hamount, hcurrent, honce⟩
  · intro ⟨e, o, r, h⟩
    rw [h.expected_eq, h.observed_eq, Option.getD_some,
      reconcileSingleReservation_both h.reservation_eq ((reservationIdOf_ne_none h.reservation_eq).mpr h.named),
      category_compareReservationStates, detectDuplicateReleases, duplicatePairs_eq_nil]
    exact ⟨h.released_once, h.current, h.status_eq, h.amount_eq⟩

theorem reservationId_compareReservationStates {events : List ReservationEvent} :
    (compareReservationStates toISOString now e r events).reservationId = e.reservationId := by
  unfold compareReservationStates
  dsimp only
  repeat' split
  all_goals rfl

theorem Keyed.reservationIdOf_eq {id : String} (h : Keyed id expected observed) :
    reservationIdOf expected (observed.getD { reservation := none, events := [] }) = some id := by
  cases expected with
  | some e => simp [reservationIdOf, h.expected_id e rfl, h.ne_empty]
  | none =>
    obtain ⟨o, r, rfl, hr⟩ := h.recorded.resolve_left (by simp)
    simp [reservationIdOf, hr, h.observed_id o r rfl hr, h.ne_empty]

/-- The entry of a keyed reservation carries its id. -/
theorem Keyed.reservationId_eq {id : String} (h : Keyed id expected observed) :
    (reconcileSingleReservation toISOString now expected
      (observed.getD { reservation := none, events := [] })).reservationId = id := by
  rw [reconcileSingleReservation, h.reservationIdOf_eq]
  cases expected with
  | none => cases (observed.getD { reservation := none, events := [] }).reservation <;> rfl
  | some e =>
    cases (observed.getD { reservation := none, events := [] }).reservation with
    | none => rfl
    | some r =>
      show (compareReservationStates _ _ _ _ _).reservationId = id
      rw [reservationId_compareReservationStates, h.expected_id e rfl]

section

variable (toISOString : Int → String) (clock : String → Int) (finishedAt : Int)
variable (expectedStates : List (String × ExpectedReservationState))
  (observedStates : List (String × ObservedReservationState))

theorem mem_allReservationIds {reservationId : String} :
    reservationId ∈ allReservationIds expectedStates observedStates ↔
      reservationId ∈ expectedStates.map Prod.fst ∨ reservationId ∈ observedStates.map Prod.fst := by
  rw [allReservationIds, ← List.mem_append]
  constructor
  · intro h
    exact (mem_firsts h).1
  · intro h
    have hfirst : ∃ b ∈ firsts id [] (expectedStates.map Prod.fst ++ observedStates.map Prod.fst), id b = id reservationId :=
      exists_mem_firsts h List.not_mem_nil
    obtain ⟨b, hb, rfl⟩ := hfirst
    exact hb

theorem nodup_allReservationIds : (allReservationIds expectedStates observedStates).Nodup := by
  have hkeys : ((allReservationIds expectedStates observedStates).map id).Nodup := nodup_keys_firsts _ _
  rwa [List.map_id] at hkeys

/-- There is one entry for each id of the two maps, which carries the id where
the maps are keyed by it; the counts add up to the entries; the two sides agree
on reservations that are fully reconciled; and those are that they agree on, with
one expiry. -/
theorem reconcileMultipleReservations_spec :
    let ids := allReservationIds expectedStates observedStates
    let result := reconcileMultipleReservations toISOString clock finishedAt expectedStates observedStates
    (ids.Nodup ∧ ∀ id, id ∈ ids ↔ id ∈ expectedStates.map Prod.fst ∨ id ∈ observedStates.map Prod.fst) ∧
      result.entries.length = ids.length ∧
      ((∀ id ∈ ids, Keyed id (expectedStates.lookup id) (observedStates.lookup id)) →
        result.entries.map (·.reservationId) = ids) ∧
      (result.counts.map Prod.snd).sum = result.entries.length ∧
      (result.isFullyReconciled = true →
        ∀ id ∈ ids, ∃ e o r, Agrees (clock id) (expectedStates.lookup id) (observedStates.lookup id) e o r) ∧
      ((∀ id ∈ ids, ∃ e o r, Agrees (clock id) (expectedStates.lookup id) (observedStates.lookup id) e o r ∧
        e.expiresAt = r.expiresAt) → result.isFullyReconciled = true) := by
  intro ids result
  have hagree : result.isFullyReconciled = true ↔
      ∀ id ∈ ids, ∃ e o r, Agrees (clock id) (expectedStates.lookup id) (observedStates.lookup id) e o r := by
    show (List.all (ids.map _) _) = true ↔ _
    rw [List.all_map, List.all_eq_true]
    refine forall₂_congr fun id _ => ?_
    rw [Function.comp, decide_eq_true_eq]
    exact category_reconcileSingleReservation
  refine ⟨⟨nodup_allReservationIds expectedStates observedStates, fun _ =>
    mem_allReservationIds expectedStates observedStates⟩, List.length_map _, fun hkeyed => ?_, ?_, hagree.mp,
    fun h => hagree.mpr fun id hid => ?_⟩
  · show (ids.map _).map _ = ids
    rw [List.map_map]
    exact (List.map_congr_left fun id hid => (hkeyed id hid).reservationId_eq).trans (List.map_id ids)
  · exact (sum_counts _ _ _).trans (Nat.zero_add _)
  · obtain ⟨e, o, r, h, -⟩ := h id hid
    exact ⟨e, o, r, h⟩

end

def expectedReservation : ExpectedReservationState where
  reservationId := "res-1"
  status := "reserved"
  amount := 10
  expiresAt := 1000
  lastKnownTxHash := none

/-- The same reservation as it is on chain. -/
def observedReservation : ObservedReservationState where
  reservation := some { reservationId := "res-1", reservedAmount := 10, status := .reserved, expiresAt := 1000 }
  events := [⟨"evt-1", .reserved, "GEMPLOYER", 10, "0x1"⟩]

/-- A reservation that is the same on both sides. -/
theorem same_reservation_reconciled :
    let result := reconcileMultipleReservations (fun _ => "") (fun _ => 500) 501 [("res-1", expectedReservation)]
      [("res-1", observedReservation)]
    result.entries.map (·.reservationId) = ["res-1"] ∧ result.isFullyReconciled = true := by
  have hids : allReservationIds [("res-1", expectedReservation)] [("res-1", observedReservation)] = ["res-1"] := by
    decide
  obtain ⟨-, -, hnamed, -, -, hagree⟩ := reconcileMultipleReservations_spec (fun _ => "") (fun _ => 500) 501
    [("res-1", expectedReservation)] [("res-1", observedReservation)]
  rw [hids] at hnamed hagree
  refine ⟨hnamed fun id hid => ?_, hagree fun id hid => ?_⟩
  · rw [List.mem_singleton.mp hid]
    refine ⟨by decide, by decide, fun o r ho hr => ?_, .inl (by decide)⟩
    cases ho
    cases hr
    rfl
  · rw [List.mem_singleton.mp hid]
    exact ⟨_, _, _, ⟨rfl, rfl, rfl, by decide, by decide, by decide, by decide, by decide⟩, rfl⟩

/-- Two sides that agree, on the expiry too, are not reconciled after it. -/
theorem expired_not_reconciled :
    ¬∀ (now : Int) (expectedStates : List (String × ExpectedReservationState))
      (observedStates : List (String × ObservedReservationState)),
      (∀ id ∈ allReservationIds expectedStates observedStates, ∃ e o r, expectedStates.lookup id = some e ∧
        observedStates.lookup id = some o ∧ o.reservation = some r ∧ e.status = r.status.text ∧
        e.amount = r.reservedAmount ∧ e.expiresAt = r.expiresAt ∧ releaseEvents o.events = []) →
      (reconcileMultipleReservations (fun _ => "") (fun _ => now) now expectedStates observedStates).isFullyReconciled =
        true := by
  intro h
  have hreconciled := h 2000 [("res-1", expectedReservation)] [("res-1", observedReservation)] fun id hid => by
    rw [List.mem_singleton.mp hid]
    exact ⟨_, _, _, rfl, rfl, rfl, by decide, by decide, by decide, by decide⟩
  exact absurd hreconciled (by decide)

end ZkPayroll.Reservations
