import ZkPayroll.Core.ExecutionConfirmationNonce
import ZkPayroll.Framework.Transition

/-!
# Validators that share a store

Calls of `validateExecutionNonce` whose `checkIfUsed` and `markAsUsed` look up
and add nonces in one store. A call checks its nonce when it starts
(`admitNonce`), and has two awaits: it asks the store, then marks the nonce. A
batch starts all its calls at once (`startBatch_reachable`). A call may mark a
nonce that another call has marked after it asked; in the runs in which none
does, a nonce is reported valid once (`valid_once`).
-/

namespace ZkPayroll.Core

open Framework

variable {ν ε : Type} [CommRing ν] [LinearOrder ν]

/-! ## Calls -/

variable (now : Int)

/-- What `validateExecutionNonce` does before its first await: the result, or
the nonce and its time. -/
def admitNonce (nonce : Option String) (options : NonceValidationOptions ν ε) :
    Except (NonceValidationResult ν) (String × Int) :=
  match nonce with
  | none => .error (refused .MISSING_NONCE "No nonce provided for operation confirmation")
  | some nonce =>
    if isBlank nonce then .error (refused .MISSING_NONCE "No nonce provided for operation confirmation")
    else
      match (trim nonce).toList.splitOn '.' with
      | [opScope, timestampPart, randomPart] =>
        if String.ofList opScope ≠ createOperationScope options.operationType options.contextId then
          .error (refused .OPERATION_MISMATCH "Nonce is not scoped to the expected operation")
        else
          match parseInt36 timestampPart with
          | none => .error (refused .INVALID_FORMAT "Nonce timestamp is malformed")
          | some generatedAt =>
            if isSkewed now options generatedAt then
              .error (refused .CLOCK_SKEW "Nonce timestamp is outside acceptable range")
            else if JsNumber.lt (expiryTime options generatedAt) (.finite (now : ν)) then
              .error (refused .EXPIRED "Nonce has expired and is no longer valid")
            else if isValidHexString randomPart 32 = false then
              .error (refused .INVALID_SIGNATURE "Nonce signature validation failed")
            else .ok (trim nonce, generatedAt)
      | _ => .error (refused .INVALID_FORMAT "Nonce format is invalid")

theorem validateExecutionNonce_eq (nonce : Option String) (options : NonceValidationOptions ν ε) :
    validateExecutionNonce now nonce options =
      match admitNonce now nonce options with
      | .error result => .ok result
      | .ok (trimmedNonce, generatedAt) => claimNonce options trimmedNonce generatedAt := by
  cases nonce with
  | none => rfl
  | some nonce =>
    rw [validateExecutionNonce, admitNonce]
    cases hblank : isBlank nonce with
    | true => rfl
    | false =>
      simp only [Bool.false_eq_true, if_false]
      rcases (trim nonce).toList.splitOn '.' with _ | ⟨opScope, _ | ⟨timestampPart, _ | ⟨randomPart, _ | _⟩⟩⟩
      case cons.cons.cons.nil =>
        by_cases hscope : String.ofList opScope ≠ createOperationScope options.operationType options.contextId
        · simp only [if_pos hscope]
          rfl
        · simp only [if_neg hscope]
          cases parseInt36 timestampPart with
          | none => rfl
          | some generatedAt =>
            simp only
            cases isSkewed now options generatedAt with
            | true => rfl
            | false =>
              cases JsNumber.lt (expiryTime options generatedAt) (.finite (now : ν)) with
              | true => rfl
              | false => cases isValidHexString randomPart 32 <;> rfl
      all_goals rfl

/-- Where a call stands. -/
inductive NonceCall (ν ε : Type) where
  /-- It has called `checkIfUsed`. -/
  | checking (options : NonceValidationOptions ν ε) (nonce : String) (generatedAt : Int)
  /-- It has called `markAsUsed`. -/
  | marking (options : NonceValidationOptions ν ε) (nonce : String) (generatedAt : Int)
  | returned (result : NonceValidationResult ν)
  | threw

def validResult (options : NonceValidationOptions ν ε) (nonce : String) (generatedAt : Int) :
    NonceValidationResult ν where
  valid := true
  code := .VALID
  message := "Nonce is valid and confirmed"
  nonceInfo := some
    { nonce := nonce
      operationType := options.operationType
      contextId := options.contextId
      generatedAt := generatedAt
      expiresAt := expiryTime options generatedAt }

def usedResult : NonceValidationResult ν :=
  refused .ALREADY_USED "Nonce has already been used; create a new execution with a fresh nonce"

/-- A call that has admitted its nonce. -/
def startValidate (options : NonceValidationOptions ν ε) (nonce : Option String) : NonceCall ν ε :=
  match admitNonce now nonce options with
  | .error result => .returned result
  | .ok (trimmedNonce, generatedAt) => .checking options trimmedNonce generatedAt

/-- `validateExecutionNoncesBatch`, up to the first await. -/
def startBatch (options : NonceValidationOptions ν ε) (nonces : List (Option String)) :
    List (NonceCall ν ε) :=
  nonces.map (startValidate now options)

/-- A turn of a call: the store answers, or fails. A store that fails to mark a
nonce may have marked it. -/
inductive NonceTurn : List String → NonceCall ν ε → List String → NonceCall ν ε → Prop
  | used {store : List String} {options : NonceValidationOptions ν ε} {nonce : String} {generatedAt : Int}
      (h : nonce ∈ store) : NonceTurn store (.checking options nonce generatedAt) store (.returned usedResult)
  | unused {store : List String} {options : NonceValidationOptions ν ε} {nonce : String} {generatedAt : Int}
      (h : nonce ∉ store) :
      NonceTurn store (.checking options nonce generatedAt) store (.marking options nonce generatedAt)
  | checkFailed {store : List String} {options : NonceValidationOptions ν ε} {nonce : String} {generatedAt : Int} :
      NonceTurn store (.checking options nonce generatedAt) store .threw
  | marked {store : List String} {options : NonceValidationOptions ν ε} {nonce : String} {generatedAt : Int} :
      NonceTurn store (.marking options nonce generatedAt) (store ++ [nonce])
        (.returned (validResult options nonce generatedAt))
  | markFailed {store : List String} {options : NonceValidationOptions ν ε} {nonce : String} {generatedAt : Int} :
      NonceTurn store (.marking options nonce generatedAt) store .threw
  | markFailedLate {store : List String} {options : NonceValidationOptions ν ε} {nonce : String}
      {generatedAt : Int} : NonceTurn store (.marking options nonce generatedAt) (store ++ [nonce]) .threw

/-- Calls whose turns all meet the condition `ok`. -/
def nonceTurns (ok : List String → NonceCall ν ε → NonceCall ν ε → Prop) : Turns (List String) (NonceCall ν ε) where
  start _ call := ∃ now options nonce, call = startValidate now options nonce
  turn store call store' call' := ok store call call' ∧ NonceTurn store call store' call'

/-- Calls start over any store, and take turns. -/
abbrev ReachableNonces (ok : List String → NonceCall ν ε → NonceCall ν ε → Prop) :
    Interleaved (List String) (NonceCall ν ε) → Prop :=
  Reachable (fun p => p.calls = []) (nonceTurns ok).Step

variable {ok : List String → NonceCall ν ε → NonceCall ν ε → Prop}

/-- A batch starts its calls one after the other. -/
theorem startBatch_reachable (options : NonceValidationOptions ν ε) (nonces : List (Option String))
    {store : List String} {calls : List (NonceCall ν ε)}
    (h : ReachableNonces ok { shared := store, calls := calls }) :
    ReachableNonces ok { shared := store, calls := calls ++ startBatch now options nonces } := by
  induction nonces generalizing calls with
  | nil => simpa [startBatch] using h
  | cons nonce nonces ih =>
    have hnext := ih (h.next (.start ⟨now, options, nonce, rfl⟩))
    rw [List.append_assoc] at hnext
    exact hnext

variable {options : NonceValidationOptions ν ε} {result : NonceValidationResult ν}

/-- With a store that does not fail, the turns of one call alone do what the
method does with the answers of the store. -/
theorem alone_validateExecutionNonce {now : Int} {nonce : Option String}
    {store : List String} (hcheck : options.checkIfUsed = some fun n => .ok (decide (n ∈ store)))
    (hmark : options.markAsUsed = some fun _ => .ok ())
    (h : validateExecutionNonce now nonce options = .ok result) :
    ∃ store', (nonceTurns fun _ _ _ => True).Alone store (startValidate now options nonce) store' (.returned result) := by
  rw [validateExecutionNonce_eq] at h
  rw [startValidate]
  cases hadmitted : admitNonce now nonce options with
  | error refusal =>
    rw [hadmitted] at h
    obtain rfl := Except.ok.inj h
    exact ⟨store, .refl⟩
  | ok admitted =>
    obtain ⟨trimmedNonce, generatedAt⟩ := admitted
    rw [hadmitted] at h
    simp only [claimNonce, hcheck, hmark] at h
    obtain ⟨used, hused, h⟩ := except_bind_eq_ok.mp h
    by_cases hmem : trimmedNonce ∈ store
    · obtain rfl : true = used := by simpa [hmem] using hused
      obtain rfl := Except.ok.inj h
      exact ⟨store, .turn ⟨trivial, .used hmem⟩ .refl⟩
    · obtain rfl : false = used := by simpa [hmem] using hused
      obtain rfl := Except.ok.inj h
      exact ⟨store ++ [trimmedNonce], .turn ⟨trivial, .unused hmem⟩ (.turn ⟨trivial, .marked⟩ .refl)⟩

/-! ## Reports -/

/-- The call reported the nonce to be valid. -/
def NonceCall.Reports (call : NonceCall ν ε) (nonce : String) : Prop :=
  ∃ result info, call = .returned result ∧ result.valid = true ∧ result.nonceInfo = some info ∧ info.nonce = nonce

/-- No nonce is marked that was marked in the meantime. -/
def MarksUnused (store : List String) (call call' : NonceCall ν ε) : Prop :=
  ∀ options nonce generatedAt, call = .marking options nonce generatedAt → call' ≠ .threw → nonce ∉ store

/-- A nonce that is not admitted is refused. -/
theorem valid_of_admitNonce_eq_error {now : Int} {nonce : Option String}
    (h : admitNonce now nonce options = .error result) : result.valid = false := by
  unfold admitNonce at h
  split at h
  · cases h
    rfl
  · split at h
    · cases h
      rfl
    · split at h
      · split at h
        · cases h
          rfl
        · split at h
          · cases h
            rfl
          · repeat' split at h
            all_goals
              cases h
              try rfl
      · cases h
        rfl

theorem not_reports_startValidate (options : NonceValidationOptions ν ε) (nonce : Option String)
    (n : String) : ¬(startValidate now options nonce).Reports n := by
  rintro ⟨result, info, hcall, hvalid, -⟩
  rw [startValidate] at hcall
  split at hcall
  · rename_i refusal hadmitted
    cases hcall
    rw [valid_of_admitNonce_eq_error hadmitted] at hvalid
    cases hvalid
  · cases hcall

variable {call call' : NonceCall ν ε}

omit [LinearOrder ν] in
/-- A call reports a nonce to be valid when the store has marked it. -/
theorem NonceTurn.reports {store store' : List String}
    (h : NonceTurn store call store' call') {n : String} (hr : call'.Reports n) :
    store' = store ++ [n] ∧ ∃ options generatedAt, call = .marking options n generatedAt ∧ call' ≠ .threw := by
  obtain ⟨result, info, rfl, hvalid, hinfo, rfl⟩ := hr
  cases h with
  | used => cases hvalid
  | marked =>
    obtain rfl := Option.some.inj hinfo
    exact ⟨rfl, _, _, rfl, nofun⟩

omit [LinearOrder ν] in
theorem NonceTurn.subset {store store' : List String}
    (h : NonceTurn store call store' call') : store ⊆ store' := by
  cases h with
  | marked | markFailedLate => exact List.subset_append_left _ _
  | _ => exact List.Subset.refl _

/-- What is reported valid is marked, and not reported by another call. -/
def nonceOutline : Outline (nonceTurns (MarksUnused (ν := ν) (ε := ε))) where
  shared _ := True
  own store call := ∀ n, call.Reports n → n ∈ store
  apart call call' := ∀ n, call.Reports n → ¬call'.Reports n
  apart_symm h n hr hr' := h n hr' hr
  start_own _ hs n hr := by
    obtain ⟨now, options, nonce, rfl⟩ := hs
    exact absurd hr (not_reports_startValidate now options nonce n)
  start_apart hs n hr := by
    obtain ⟨now, options, nonce, rfl⟩ := hs
    exact absurd hr (not_reports_startValidate now options nonce n)
  turn_shared _ _ _ := trivial
  turn_own _ _ ht n hr := by
    rw [(ht.2.reports hr).1]
    exact List.mem_append_right _ List.mem_cons_self
  turn_other _ _ hother ht n hr := ht.2.subset (hother n hr)
  turn_apart _ hother _ ht n hr hr' := by
    -- the nonce was marked before this call could report it
    obtain ⟨-, options, generatedAt, hmarking, hnot⟩ := ht.2.reports hr
    exact ht.1 options n generatedAt hmarking hnot (hother n hr')

/-- Each nonce is reported valid by one call at most. -/
def ValidOnce (p : Interleaved (List String) (NonceCall ν ε)) : Prop :=
  ∀ (i j : Nat) (c d : NonceCall ν ε) (n : String), p.calls[i]? = some c → p.calls[j]? = some d →
    c.Reports n → d.Reports n → i = j

/-- In a run in which no call marks a nonce that another has marked in the
meantime, each nonce is reported valid once. -/
theorem valid_once {p : Interleaved (List String) (NonceCall ν ε)} (h : ReachableNonces MarksUnused p) :
    ValidOnce p := by
  have hholds : (nonceOutline (ν := ν) (ε := ε)).Holds p := by
    refine Outline.invariant (fun p hp => ?_) h
    refine ⟨trivial, fun i c hc => ?_, fun i j c d _ hc _ => ?_⟩
    · rw [hp] at hc
      cases hc
    · rw [hp] at hc
      cases hc
  intro i j c d n hi hj hc hd
  by_contra hne
  exact hholds.apart i j c d hne hi hj n hc hd

/-! ## A batch with one nonce twice -/

def payrollNonce : String := "payroll_execution.0." ++ String.ofList (List.replicate 64 '0')

def payrollOptions : NonceValidationOptions Int Empty := { operationType := .payroll_execution }

theorem startValidate_payrollNonce :
    startValidate 0 payrollOptions (some payrollNonce) = .checking payrollOptions payrollNonce 0 := by
  have hadmitted : admitNonce 0 (some payrollNonce) payrollOptions = .ok (payrollNonce, 0) := by decide +kernel
  rw [startValidate, hadmitted]

/-- The store and the two calls of the batch. -/
def batchOfTwo (store : List String) (c d : NonceCall Int Empty) : Interleaved (List String) (NonceCall Int Empty) where
  shared := store
  calls := [c, d]

def checkingNonce : NonceCall Int Empty := .checking payrollOptions payrollNonce 0

def markingNonce : NonceCall Int Empty := .marking payrollOptions payrollNonce 0

def confirmedNonce : NonceCall Int Empty := .returned (validResult payrollOptions payrollNonce 0)

section Batch

variable {ok : List String → NonceCall Int Empty → NonceCall Int Empty → Prop} {store store' : List String}
  {c c' d : NonceCall Int Empty}

theorem batchOfTwo_started : ReachableNonces ok (batchOfTwo [] checkingNonce checkingNonce) := by
  have hstart : ReachableNonces ok { shared := [], calls := [] } := .start rfl
  have h := startBatch_reachable 0 payrollOptions [some payrollNonce, some payrollNonce] hstart
  rw [startBatch, List.map_cons, List.map_cons, List.map_nil, startValidate_payrollNonce] at h
  exact h

theorem batchOfTwo_first (h : ReachableNonces ok (batchOfTwo store c d)) (hok : ok store c c')
    (ht : NonceTurn store c store' c') : ReachableNonces ok (batchOfTwo store' c' d) :=
  Turns.reachable_first h ⟨hok, ht⟩

theorem batchOfTwo_second (h : ReachableNonces ok (batchOfTwo store d c)) (hok : ok store c c')
    (ht : NonceTurn store c store' c') : ReachableNonces ok (batchOfTwo store' d c') :=
  Turns.reachable_second h ⟨hok, ht⟩

end Batch

/-- The second call asks the store after the first has marked the nonce. -/
theorem second_refused : ValidOnce (batchOfTwo [payrollNonce] confirmedNonce (.returned usedResult)) := by
  have hasked : ReachableNonces MarksUnused (batchOfTwo [] markingNonce checkingNonce) :=
    batchOfTwo_first batchOfTwo_started (fun _ _ _ h => nomatch h) (.unused List.not_mem_nil)
  have hmarked : ReachableNonces MarksUnused (batchOfTwo [payrollNonce] confirmedNonce checkingNonce) :=
    batchOfTwo_first hasked (fun _ _ _ _ _ => List.not_mem_nil) .marked
  exact valid_once (batchOfTwo_second hmarked (fun _ _ _ h => nomatch h) (.used List.mem_cons_self))

/-- Both calls ask the store before one of them marks the nonce. -/
theorem reported_twice :
    ReachableNonces (fun _ _ _ => True) (batchOfTwo [payrollNonce, payrollNonce] confirmedNonce confirmedNonce) ∧
      ¬ValidOnce (batchOfTwo [payrollNonce, payrollNonce] confirmedNonce confirmedNonce) := by
  constructor
  · have hstarted : ReachableNonces (fun _ _ _ => True) (batchOfTwo [] checkingNonce checkingNonce) :=
      batchOfTwo_started
    have hfirst := batchOfTwo_first hstarted trivial (.unused List.not_mem_nil)
    have hsecond := batchOfTwo_second hfirst trivial (.unused List.not_mem_nil)
    exact batchOfTwo_second (batchOfTwo_first hsecond trivial .marked) trivial .marked
  · intro h
    have hreports : confirmedNonce.Reports payrollNonce := ⟨_, _, rfl, rfl, rfl, rfl⟩
    exact absurd (h 0 1 _ _ payrollNonce rfl rfl hreports hreports) (by decide)

end ZkPayroll.Core
