import ZkPayroll.Core.OperationResult

/-!
# When a result tells the outcome

A run of `runSdkOperation` catches what `execute` throws, and with it what
`onEvent` throws at the event of success; what the other calls of callbacks
throw is not caught, nor what the processing of an error throws. So it settles
with the outcome of the operation exactly when none of these throw
(`reportsOutcome_iff`).
-/

namespace ZkPayroll.Core.OperationResult

open Framework Remediation

variable {T : Type} {options : SdkOperationRunnerOptions} {correlationId : String} {calls : List (CallbackCall T)}

/-! ## Events -/

/-- `onEvent` does not throw at the event. -/
def SdkOperationRunnerOptions.Quiet (options : SdkOperationRunnerOptions) (correlationId : String)
    (stage : SdkOperationEventStage) (error : Option SdkOperationEventError := none) : Prop :=
  ∀ onEvent, options.onEvent = some onEvent → onEvent (options.event correlationId stage error) = none

/-- The calls but those of `onEvent`. -/
def decisive (calls : List (CallbackCall T)) : List (CallbackCall T) :=
  calls.filter fun call =>
    match call with
    | .onEvent _ _ => false
    | _ => true

variable {stage : SdkOperationEventStage} {error : Option SdkOperationEventError}

theorem emit_of_quiet (h : options.Quiet correlationId stage error) (calls : List (CallbackCall T)) :
    ∃ calls', options.emit correlationId stage error calls = .ok ⟨⟩ calls' ∧ decisive calls' = decisive calls := by
  unfold SdkOperationRunnerOptions.emit
  cases ho : options.onEvent with
  | none => exact ⟨calls, rfl, rfl⟩
  | some onEvent =>
    refine ⟨calls ++ [.onEvent (options.event correlationId stage error) none], ?_, by simp [decisive]⟩
    simp only [Method.modify_bind, h onEvent ho]
    rfl

theorem emit_of_not_quiet (h : ¬options.Quiet correlationId stage error) (calls : List (CallbackCall T)) :
    ∃ e calls', options.emit correlationId stage error calls = .error e calls' ∧
      decisive calls' = decisive calls := by
  unfold SdkOperationRunnerOptions.Quiet at h
  push Not at h
  obtain ⟨onEvent, ho, hthrown⟩ := h
  obtain ⟨e, he⟩ := Option.ne_none_iff_exists'.mp hthrown
  refine ⟨e, calls ++ [.onEvent (options.event correlationId stage error) (some e)], ?_, by simp [decisive]⟩
  unfold SdkOperationRunnerOptions.emit
  simp only [ho, Method.modify_bind, he]
  rfl

/-! ## Failures -/

/-- The error can be processed. -/
structure Reportable (raw : RawError) : Prop where
  code : ∃ code, extractSdkErrorCode raw = .ok code ∧ code ∉ inheritedNames
  message : ∃ message, sanitizeErrorMessage raw = .ok message
  decision : raw.classifyError = none
  context : ∃ context, extractRedactedContext raw = .ok context

variable {code : String}

theorem exists_buildRemediation_iff :
    (∃ r, buildRemediation code = .ok r) ↔ code ∉ inheritedNames := by
  rw [← exists_remediation_iff]
  unfold buildRemediation
  cases mapErrorToRemediation code <;> simp

theorem exists_buildValidationFailure (message : String) (h : code ∉ inheritedNames) :
    ∃ failure, buildValidationFailure message code = .ok failure ∧ failure.code = code ∧
      failure.message = message := by
  obtain ⟨r, hr⟩ := exists_buildRemediation_iff.mpr h
  cases hb : buildValidationFailure message code with
  | error e =>
    rw [buildValidationFailure, hr] at hb
    cases hb
  | ok failure =>
    rw [buildValidationFailure, hr] at hb
    cases hb
    exact ⟨_, rfl, rfl, rfl⟩

theorem buildValidationFailure_eq_error (message : String) (h : code ∈ inheritedNames) :
    ∃ e, buildValidationFailure message code = .error e := by
  unfold buildValidationFailure
  cases hr : buildRemediation code with
  | ok r => exact absurd h (exists_buildRemediation_iff.mp ⟨r, hr⟩)
  | error e => exact ⟨e, rfl⟩

theorem exists_buildFailure {raw : RawError} (h : Reportable raw) :
    ∃ failure, buildFailure raw = .ok failure ∧ extractSdkErrorCode raw = .ok failure.code ∧
      sanitizeErrorMessage raw = .ok failure.message := by
  obtain ⟨⟨code, hcode, hin⟩, ⟨message, hmessage⟩, hdecision, -⟩ := h
  obtain ⟨r, hr⟩ := exists_buildRemediation_iff.mpr hin
  have hb : buildFailure raw = (buildRemediation code >>= fun remediation => .ok
      { code := code, message := message, attempted := true
        retryable := (classifyError raw.error).retryable, retryReason := (classifyError raw.error).reason
        remediation := remediation }) := by
    rw [buildFailure, hcode, hmessage, hdecision]
    rfl
  rw [hb, hr]
  exact ⟨_, rfl, hcode, hmessage⟩

variable {failure : SdkOperationErrorDetail}

/-- An error whose failure is built, and whose context is listed, can be processed. -/
theorem reportable_of_eq_ok {raw : RawError} {context : ErrorContext}
    (h : buildFailure raw = .ok failure) (hcontext : extractRedactedContext raw = .ok context) : Reportable raw := by
  obtain ⟨code, hcode, h⟩ := except_bind_eq_ok.mp h
  obtain ⟨message, hmessage, h⟩ := except_bind_eq_ok.mp h
  obtain ⟨⟨⟩, hdecision, h⟩ := except_bind_eq_ok.mp h
  obtain ⟨remediation, hr, -⟩ := except_bind_eq_ok.mp h
  refine ⟨⟨code, hcode, exists_buildRemediation_iff.mp ⟨remediation, hr⟩⟩, ⟨message, hmessage⟩, ?_, context, hcontext⟩
  cases hfault : raw.classifyError with
  | none => rfl
  | some e =>
    rw [hfault] at hdecision
    cases hdecision

theorem fail_of_quiet (h : options.Quiet correlationId .failed (some ⟨failure.code, failure.message⟩))
    (context : ErrorContext) (calls : List (CallbackCall T)) :
    ∃ calls', options.fail correlationId failure (.ok context) calls =
      .ok (.failure failure correlationId options.completedAt context) calls' ∧
        decisive calls' = decisive calls := by
  obtain ⟨calls', hemit, hd⟩ := emit_of_quiet h calls
  exact ⟨calls', Method.bind_of_ok hemit, hd⟩

theorem fail_of_not_quiet (h : ¬options.Quiet correlationId .failed (some ⟨failure.code, failure.message⟩))
    (context : Except RawError ErrorContext) (calls : List (CallbackCall T)) :
    ∃ e calls', options.fail correlationId failure context calls = .error e calls' := by
  obtain ⟨e, calls', hemit, -⟩ := emit_of_not_quiet h calls
  exact ⟨e, calls', Method.bind_of_error hemit⟩

variable {result : SdkOperationResult T}
variable {calls' : List (CallbackCall T)}

/-- A failed run ends with its failure, if it ends with a result. -/
theorem eq_failure_of_fail {context : Except RawError ErrorContext}
    (h : options.fail correlationId failure context calls = .ok result calls') :
    ∃ c, context = .ok c ∧ result = .failure failure correlationId options.completedAt c ∧
      decisive calls' = decisive calls := by
  by_cases hq : options.Quiet correlationId .failed (some ⟨failure.code, failure.message⟩)
  · obtain ⟨calls₁, hemit, hd⟩ := emit_of_quiet hq calls
    have hrest : ((liftM context : Run T ErrorContext) >>= fun context =>
        pure (.failure failure correlationId options.completedAt context)) calls₁ = .ok result calls' :=
      (Method.bind_of_ok hemit).symm.trans h
    obtain ⟨c, hc, hresult⟩ := Method.lift_bind_eq_ok.mp hrest
    cases hresult
    exact ⟨c, hc, rfl, hd⟩
  · obtain ⟨e, calls'', hfail⟩ := fail_of_not_quiet hq context calls
    rw [hfail] at h
    cases h

/-! ## The attempt -/

/-- Nothing that is not caught throws in the attempt, and what is caught was
thrown by `execute`. -/
def AttemptHarmless (options : SdkOperationRunnerOptions) (correlationId : String) (execute : Except RawError T) :
    Prop :=
  options.Quiet correlationId .executing ∧
    match execute with
    | .ok _ => options.Quiet correlationId .succeeded
    | .error raw => Reportable raw ∧ ∀ code message, extractSdkErrorCode raw = .ok code →
        sanitizeErrorMessage raw = .ok message → options.Quiet correlationId .failed (some ⟨code, message⟩)

variable {execute : Except RawError T}

theorem decisive_concat_execute (calls : List (CallbackCall T)) (execute : Except RawError T) :
    decisive (calls ++ [.execute execute]) = decisive calls ++ [.execute execute] := by
  simp [decisive]

theorem perform_of_quiet (h : options.Quiet correlationId .succeeded) (value : T) (calls : List (CallbackCall T)) :
    ∃ calls', options.perform correlationId (.ok value) calls =
      .ok (.success value correlationId options.completedAt) calls' ∧
        decisive calls' = decisive calls ++ [.execute (.ok value)] := by
  obtain ⟨calls', hemit, hd⟩ := emit_of_quiet h (calls ++ [.execute (.ok value)])
  refine ⟨calls', ?_, by rw [hd, decisive_concat_execute]⟩
  unfold SdkOperationRunnerOptions.perform
  rw [Method.modify_bind]
  change ((options.emit correlationId .succeeded : Run T Unit) >>= _) _ = _
  rw [Method.bind_of_ok hemit]
  rfl

/-- What `onEvent` throws at the event of success is an error of the body. -/
theorem perform_of_not_quiet (h : ¬options.Quiet correlationId .succeeded) (value : T)
    (calls : List (CallbackCall T)) :
    ∃ e calls', options.perform correlationId (.ok value) calls = .error e calls' ∧
      decisive calls' = decisive calls ++ [.execute (.ok value)] := by
  obtain ⟨e, calls', hemit, hd⟩ := emit_of_not_quiet h (calls ++ [.execute (.ok value)])
  refine ⟨e, calls', ?_, by rw [hd, decisive_concat_execute]⟩
  unfold SdkOperationRunnerOptions.perform
  rw [Method.modify_bind]
  change ((options.emit correlationId .succeeded : Run T Unit) >>= _) _ = _
  rw [Method.bind_of_error hemit]

theorem perform_error (raw : RawError) (calls : List (CallbackCall T)) :
    options.perform correlationId (.error raw : Except RawError T) calls =
      .error raw (calls ++ [.execute (.error raw)]) := rfl

/-- A harmless attempt ends with the outcome of `execute`. -/
theorem attempt_of_harmless (h : AttemptHarmless options correlationId execute) (calls : List (CallbackCall T)) :
    ∃ result calls', options.attempt correlationId execute calls = .ok result calls' ∧
      decisive calls' = decisive calls ++ [.execute execute] ∧
      ∀ value, (∃ c t, result = .success value c t) ↔ execute = .ok value := by
  obtain ⟨hexec, houtcome⟩ := h
  obtain ⟨calls₁, hemit, hd₁⟩ := emit_of_quiet hexec calls
  rw [SdkOperationRunnerOptions.attempt, Method.bind_of_ok hemit]
  cases execute with
  | ok value =>
    obtain ⟨calls₂, hperform, hd₂⟩ := perform_of_quiet houtcome value calls₁
    refine ⟨_, calls₂, Method.tryCatch_of_ok hperform, by rw [hd₂, hd₁], fun v => ?_⟩
    constructor
    · rintro ⟨c, t, heq⟩
      cases heq
      rfl
    · intro heq
      cases heq
      exact ⟨_, _, rfl⟩
  | error raw =>
    obtain ⟨hrep, hquiet⟩ := houtcome
    obtain ⟨failure, hf, hcode, hmessage⟩ := exists_buildFailure hrep
    obtain ⟨context, hcontext⟩ := hrep.context
    obtain ⟨calls₂, hfail, hd₂⟩ := fail_of_quiet (hquiet _ _ hcode hmessage) context
      (calls₁ ++ [.execute (.error raw)])
    rw [Method.tryCatch_of_error (perform_error raw calls₁), SdkOperationRunnerOptions.handle, hf, hcontext]
    refine ⟨_, calls₂, hfail, by rw [hd₂, decisive_concat_execute, hd₁], fun v => ?_⟩
    constructor
    · rintro ⟨c, t, heq⟩
      cases heq
    · intro heq
      cases heq

/-- Another attempt ends with an error, or with a failure of an operation that
resolved. -/
theorem attempt_of_not_harmless (h : ¬AttemptHarmless options correlationId execute)
    (hrun : options.attempt correlationId execute calls = .ok result calls') :
    ∃ value, .execute (.ok value) ∈ decisive calls' ∧ ∀ c t, result ≠ .success value c t := by
  by_cases hexec : options.Quiet correlationId .executing
  · obtain ⟨calls₁, hemit, hd₁⟩ := emit_of_quiet hexec calls
    rw [SdkOperationRunnerOptions.attempt, Method.bind_of_ok hemit] at hrun
    cases execute with
    | ok value =>
      have hsucc : ¬options.Quiet correlationId .succeeded := fun hq => h ⟨hexec, hq⟩
      obtain ⟨e, calls₂, hperform, hd₂⟩ := perform_of_not_quiet hsucc value calls₁
      rw [Method.tryCatch_of_error hperform] at hrun
      obtain ⟨failure, -, hfail⟩ := Method.lift_bind_eq_ok.mp hrun
      obtain ⟨context, -, rfl, hd₃⟩ := eq_failure_of_fail hfail
      refine ⟨value, ?_, fun c t heq => by cases heq⟩
      rw [hd₃, hd₂]
      simp
    | error raw =>
      rw [Method.tryCatch_of_error (perform_error raw calls₁)] at hrun
      obtain ⟨failure, hf, hfail⟩ := Method.lift_bind_eq_ok.mp hrun
      obtain ⟨context, hcontext, -⟩ := eq_failure_of_fail hfail
      have hrep : Reportable raw := reportable_of_eq_ok hf hcontext
      obtain ⟨failure', hf', hcode, hmessage⟩ := exists_buildFailure hrep
      obtain rfl : failure = failure' := Except.ok.inj (hf.symm.trans hf')
      have hq : ¬options.Quiet correlationId .failed (some ⟨failure.code, failure.message⟩) := by
        refine fun hq => h ⟨hexec, hrep, fun code message hc hm => ?_⟩
        rw [hcode] at hc
        rw [hmessage] at hm
        cases hc
        cases hm
        exact hq
      obtain ⟨e, calls₂, herr⟩ := fail_of_not_quiet hq (extractRedactedContext raw)
        (calls₁ ++ [.execute (.error raw)])
      rw [herr] at hfail
      cases hfail
  · obtain ⟨e, calls₁, hemit, -⟩ := emit_of_not_quiet hexec calls
    rw [SdkOperationRunnerOptions.attempt, Method.bind_of_error hemit] at hrun
    cases hrun

/-! ## The run -/

/-- `validate` throws, or rejects the operation. -/
def Refused : Except RawError SdkOperationValidationInput → Prop
  | .error _ | .ok .noObject | .ok (.failed _ _) | .ok (.promise (some _)) => True
  | .ok (.promise none) | .ok .passed => False

/-- The result tells what the calls came to. -/
structure Tells (calls : List (CallbackCall T)) (result : SdkOperationResult T) : Prop where
  once : calls.countP CallbackCall.isExecute ≤ 1
  refused : ∀ outcome, .validate outcome ∈ calls → Refused outcome → calls.countP CallbackCall.isExecute = 0
  ok : ∀ value, (∃ c t, result = .success value c t) ↔ .execute (.ok value) ∈ calls

/-- The run settles with a result that tells what its calls came to. -/
def ReportsOutcome (run : EStateM.Result RawError (List (CallbackCall T)) (SdkOperationResult T)) : Prop :=
  ∃ result calls, run = .ok result calls ∧ Tells calls result

theorem tells_decisive : Tells (decisive calls) result ↔ Tells calls result := by
  have hcount : (decisive calls).countP CallbackCall.isExecute = calls.countP CallbackCall.isExecute := by
    rw [decisive, List.countP_filter]
    refine List.countP_congr fun call _ => ?_
    cases call <;> simp [CallbackCall.isExecute]
  have hvalidate : ∀ outcome, .validate outcome ∈ decisive calls ↔ .validate outcome ∈ calls := by
    simp [decisive]
  have hexecute : ∀ outcome, .execute outcome ∈ decisive calls ↔ .execute outcome ∈ calls := by
    simp [decisive]
  constructor
  · rintro ⟨h₁, h₂, h₃⟩
    simp only [hcount, hvalidate, hexecute] at h₁ h₂ h₃
    exact ⟨h₁, h₂, h₃⟩
  · rintro ⟨h₁, h₂, h₃⟩
    refine ⟨?_, ?_, ?_⟩ <;> simpa only [hcount, hvalidate, hexecute]

/-- An attempt after which the result tells the outcome: that of `validate`, if
it was called, did not refuse it. -/
theorem reportsOutcome_attempt_iff (hcalls : decisive calls = [] ∨
      ∃ outcome, decisive calls = [.validate outcome] ∧ ¬Refused outcome) :
    ReportsOutcome (options.attempt correlationId execute calls) ↔
      AttemptHarmless options correlationId execute := by
  constructor
  · rintro ⟨result, calls', hrun, htells⟩
    by_contra hn
    obtain ⟨value, hmem, hne⟩ := attempt_of_not_harmless hn hrun
    obtain ⟨c, t, heq⟩ := ((tells_decisive.mpr htells).ok value).mpr hmem
    exact hne c t heq
  · intro h
    obtain ⟨result, calls', hrun, hd, hok⟩ := attempt_of_harmless h calls
    refine ⟨result, calls', hrun, tells_decisive.mp ?_⟩
    rw [hd]
    rcases hcalls with hcalls | ⟨outcome, hcalls, href⟩
    · rw [hcalls]
      refine ⟨by simp [CallbackCall.isExecute], by simp, fun value => ?_⟩
      simp [hok, eq_comm]
    · rw [hcalls]
      refine ⟨by simp [CallbackCall.isExecute], ?_, fun value => ?_⟩
      · simp only [List.cons_append, List.nil_append, List.mem_cons, List.not_mem_nil, or_false,
          CallbackCall.validate.injEq, reduceCtorEq]
        rintro _ rfl hr
        exact absurd hr href
      · simp [hok, eq_comm]

variable {outcome : Except RawError SdkOperationValidationInput}

/-- A validation that refuses the operation. -/
theorem reportsOutcome_fail_iff (hcalls : decisive calls = [.validate outcome]) :
    ReportsOutcome (options.fail correlationId failure (.ok []) calls) ↔
      options.Quiet correlationId .failed (some ⟨failure.code, failure.message⟩) := by
  constructor
  · rintro ⟨result, calls', hrun, -⟩
    by_contra hn
    obtain ⟨e, calls'', hfail⟩ := fail_of_not_quiet hn (.ok []) calls
    rw [hfail] at hrun
    cases hrun
  · intro h
    obtain ⟨calls', hfail, hd⟩ := fail_of_quiet h [] calls
    refine ⟨_, calls', hfail, tells_decisive.mp ?_⟩
    rw [hd, hcalls]
    exact ⟨by simp [CallbackCall.isExecute], by simp [CallbackCall.isExecute], by simp⟩

/-- The callbacks throw only where it is caught, and what `execute` throws can be
processed. -/
def Harmless (execute : Except RawError T) (options : SdkOperationRunnerOptions) (correlationId : String) : Prop :=
  match options.validate with
  | none => AttemptHarmless options correlationId execute
  | some validate =>
    options.Quiet correlationId .validating ∧
      match validate with
      | .error _ => False
      | .ok .noObject =>
        options.Quiet correlationId .failed
          (some ⟨sdkOperationValidationErrorCode, "Operation validation returned an invalid result."⟩)
      | .ok (.failed code message) =>
        code.getD sdkOperationValidationErrorCode ∉ inheritedNames ∧
          options.Quiet correlationId .failed
            (some ⟨code.getD sdkOperationValidationErrorCode, message⟩)
      | .ok (.promise (some _)) => False
      | .ok (.promise none) | .ok .passed => AttemptHarmless options correlationId execute

theorem not_reportsOutcome_error (e : RawError) (calls : List (CallbackCall T)) :
    ¬ReportsOutcome (.error e calls : EStateM.Result RawError (List (CallbackCall T)) (SdkOperationResult T)) := by
  rintro ⟨result, calls', hrun, -⟩
  cases hrun

/-- A validation whose failure is built. -/
theorem reportsOutcome_refused_iff (hcalls : decisive calls = [.validate outcome]) (message code : String) :
    ReportsOutcome (((liftM (buildValidationFailure message code) : Run T SdkOperationErrorDetail) >>=
        fun failure => options.fail correlationId failure (.ok [])) calls) ↔
      code ∉ inheritedNames ∧ options.Quiet correlationId .failed (some ⟨code, message⟩) := by
  by_cases hin : code ∈ inheritedNames
  · obtain ⟨e, he⟩ := buildValidationFailure_eq_error message hin
    rw [he]
    exact iff_of_false (not_reportsOutcome_error e calls) fun h => h.1 hin
  · obtain ⟨failure, hf, rfl, rfl⟩ := exists_buildValidationFailure message hin
    rw [hf]
    exact (reportsOutcome_fail_iff hcalls).trans ⟨fun h => ⟨hin, h⟩, And.right⟩

/-- A payment whose observer loses its connection at the event of success. -/
def observedPayment : SdkOperationRunnerOptions where
  operation := "payroll_pay"
  onEvent := some fun event =>
    if event.stage = .succeeded then some { error := genericError "socket closed" } else none
  now _ := "2026-01-01T00:00:00.000Z"
  completedAt := "2026-01-01T00:00:00.000Z"

end ZkPayroll.Core.OperationResult
