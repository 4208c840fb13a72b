import ZkPayroll.Core.ExecutionConfirmationNonce

/-!
# The windows of a nonce

A generated nonce has 16 random bytes, and a validator asks for 32: it refuses
every generated nonce at every time (`not_accepts_generated`). What it does
accept is not too old, unless the validity is `NaN`, but may come from any time
in the future: the clock skew bounds nonces of the past only
(`accepted_bounds_iff`).
-/

namespace ZkPayroll.Core

open Framework

variable {ν ε : Type}

/-! ## Scopes -/

variable (op : ExecutionOperationType)

theorem name_plain :
    ∀ c ∈ op.name.toList, (c == '.') = false ∧ (c == ':') = false ∧ isSpace c = false := by
  have hall : op.name.toList.all (fun c => c != '.' && c != ':' && !isSpace c) = true := by
    cases op <;> decide
  intro c hc
  simpa [and_assoc] using List.all_eq_true.mp hall c hc

/-- The context of a scope, after a colon. -/
theorem toList_createOperationScope (ctx : Option String) :
    (createOperationScope op ctx).toList = op.name.toList ++
      if ctx.getD "" = "" then [] else ':' :: (sanitizeContext (ctx.getD "")).toList := by
  cases ctx with
  | none => simp [createOperationScope]
  | some ctx =>
    by_cases h : ctx = ""
    · simp [createOperationScope, h]
    · simp [createOperationScope, h]

/-! ## Generated nonces -/

theorem scope_plain (ctx : Option String) :
    ∀ c ∈ (createOperationScope op ctx).toList, (c == '.') = false := by
  intro c hc
  rw [toList_createOperationScope] at hc
  rcases List.mem_append.mp hc with hc | hc
  · exact (name_plain op c hc).1
  split at hc
  · cases hc
  rcases List.mem_cons.mp hc with rfl | hc
  · decide
  · rw [sanitizeContext, String.toList_ofList] at hc
    obtain ⟨d, -, rfl⟩ := List.mem_map.mp hc
    split
    · decide
    · rename_i hd
      simpa using hd

theorem base36_plain (n : Int) : ∀ c ∈ base36 n, (c == '.') = false := by
  have hall : base36Digits.all (fun c => c != '.') = true := by decide +kernel
  have hdigit : ∀ d : Nat, (base36Digits.getD d '0' == '.') = false := by
    intro d
    rw [List.getD_eq_getElem?_getD]
    cases hd : base36Digits[d]? with
    | none => decide
    | some c => simpa using List.all_eq_true.mp hall c (List.mem_of_getElem? hd)
  have hdigits : ∀ c ∈ (if n = 0 then ['0'] else
      (Nat.digits 36 n.natAbs).reverse.map fun d => base36Digits.getD d '0'), (c == '.') = false := by
    intro c hc
    split at hc
    · rw [List.mem_singleton.mp hc]
      decide
    · obtain ⟨d, -, rfl⟩ := List.mem_map.mp hc
      exact hdigit d
  intro c hc
  rw [base36] at hc
  split at hc
  · rcases List.mem_cons.mp hc with rfl | hc
    · decide
    · exact hdigits c hc
  · exact hdigits c hc

theorem hexDigits_plain : ∀ c ∈ hexDigits, (c == '.') = false ∧ isSpace c = false := by
  have hall : hexDigits.all (fun c => c != '.' && !isSpace c) = true := by decide +kernel
  intro c hc
  simpa using List.all_eq_true.mp hall c hc

section Generated

variable [CommRing ν]

/-- The three parts of a generated nonce. -/
theorem split_generated (issuedAt : Int) (random : Fin 16 → UInt8) (options : NonceGenerationOptions ν) :
    (trim (generateExecutionNonce issuedAt random options).nonce).toList.splitOn '.' =
      [(createOperationScope options.operationType options.contextId).toList, base36 issuedAt,
        hexEncode (List.ofFn random)] := by
  have hhex : ∀ c ∈ hexEncode (List.ofFn random), (c == '.') = false ∧ isSpace c = false :=
    fun c hc => hexDigits_plain c (mem_hexEncode hc)
  have htext : (generateExecutionNonce issuedAt random options).nonce.toList =
      (createOperationScope options.operationType options.contextId).toList ++
        '.' :: (base36 issuedAt ++ '.' :: hexEncode (List.ofFn random)) := by
    simp [generateExecutionNonce]
  -- the nonce neither starts nor ends with white space
  obtain ⟨c, scope, hscope, hc⟩ : ∃ c scope,
      (createOperationScope options.operationType options.contextId).toList = c :: scope ∧ isSpace c = false := by
    have hname : ∃ c cs, options.operationType.name.toList = c :: cs := by
      cases options.operationType <;> exact ⟨_, _, rfl⟩
    obtain ⟨c, cs, hname⟩ := hname
    refine ⟨c, _, by rw [toList_createOperationScope, hname, List.cons_append], ?_⟩
    exact (name_plain options.operationType c (by rw [hname]; simp)).2.2
  obtain ⟨hex, d, hlast⟩ : ∃ hex d, hexEncode (List.ofFn random) = hex ++ [d] := by
    have hne : hexEncode (List.ofFn random) ≠ [] := by
      intro hnil
      have hlength := length_hexEncode (List.ofFn random)
      rw [hnil, List.length_ofFn] at hlength
      cases hlength
    exact ⟨_, _, (List.dropLast_append_getLast hne).symm⟩
  have htrim : trimChars (generateExecutionNonce issuedAt random options).nonce.toList =
      (generateExecutionNonce issuedAt random options).nonce.toList := by
    have hends : (generateExecutionNonce issuedAt random options).nonce.toList =
        c :: (scope ++ '.' :: (base36 issuedAt ++ '.' :: hex)) ++ [d] := by
      rw [htext, hscope, hlast]
      simp
    rw [hends]
    exact trimChars_eq_self hc (hhex d (by rw [hlast]; simp)).2
  rw [trim, String.toList_ofList, htrim, htext]
  exact splitOn_three (scope_plain _ _) (base36_plain _) fun c hc => (hhex c hc).1

variable [LinearOrder ν] {options : NonceValidationOptions ν ε}

/-- No generated nonce is accepted, whatever for and whenever. -/
theorem not_accepts_generated (now issuedAt : Int) (random : Fin 16 → UInt8) (generation : NonceGenerationOptions ν) :
    ¬Accepts now (generateExecutionNonce issuedAt random generation).nonce options := by
  intro h
  obtain ⟨generatedAt, ⟨⟨timestampPart, randomPart, hsplit, -, hhex⟩, -⟩, -⟩ := accepts_iff.mp h
  rw [split_generated] at hsplit
  simp only [List.cons.injEq] at hsplit
  obtain ⟨-, -, rfl, -⟩ := hsplit
  rw [isValidHexString, length_hexEncode, List.length_ofFn] at hhex
  cases hhex

/-- The nonce that is generated for what a validator expects. -/
def generatedFor (options : NonceValidationOptions ν ε) (issuedAt : Int) (random : Fin 16 → UInt8) : String :=
  (generateExecutionNonce issuedAt random
    { operationType := options.operationType
      contextId := options.contextId
      validityDurationMs := options.validityDurationMs }).nonce

/-- `now` is within the validity after `issuedAt`. -/
def InWindow (options : NonceValidationOptions ν ε) (issuedAt now : Int) : Prop :=
  issuedAt ≤ now ∧ JsNumber.le (.finite (now : ν)) (expiryTime options issuedAt) = true

variable [IsStrictOrderedRing ν]

/-- There is a time within the validity exactly when it is not negative. -/
theorem inWindow_exists_iff {issuedAt : Int} :
    (∃ now, InWindow options issuedAt now) ↔ JsNumber.le (.finite 0) (validityOf options) = true := by
  rw [show (∃ now, InWindow options issuedAt now) ↔ InWindow options issuedAt issuedAt from ?_]
  · rw [InWindow, expiryTime]
    cases validityOf options with
    | finite v => simp [JsNumber.add, JsNumber.le]
    | _ => simp [JsNumber.add, JsNumber.le]
  · refine ⟨?_, fun h => ⟨_, h⟩⟩
    rintro ⟨now, hle, hwindow⟩
    refine ⟨le_rfl, ?_⟩
    rw [expiryTime] at hwindow ⊢
    cases hv : validityOf options with
    | finite v =>
      rw [hv] at hwindow
      simp only [JsNumber.add, JsNumber.le, decide_eq_true_eq] at hwindow ⊢
      exact (Int.cast_le.mpr hle).trans hwindow
    | infinity => rfl
    | _ =>
      rw [hv] at hwindow
      cases hwindow

/-- A nonce is accepted all through its validity exactly when that has no time,
or when the functions of the caller object. -/
theorem generated_accepted_iff (issuedAt : Int) (random : Fin 16 → UInt8) (options : NonceValidationOptions ν ε) :
    (∀ now, InWindow options issuedAt now → ReplayPasses options (generatedFor options issuedAt random) →
        Accepts now (generatedFor options issuedAt random) options) ↔
      JsNumber.le (.finite 0) (validityOf options) = false ∨
        ¬ReplayPasses options (generatedFor options issuedAt random) := by
  constructor
  · intro haccepted
    by_contra hnot
    obtain ⟨hvalidity, hreplay⟩ := not_or.mp hnot
    obtain ⟨now, hwindow⟩ := inWindow_exists_iff.mpr (Bool.not_eq_false _ ▸ hvalidity)
    exact not_accepts_generated now issuedAt random _ (haccepted now hwindow (not_not.mp hreplay))
  · rintro (hvalidity | hreplay) now hwindow hpasses
    · rw [inWindow_exists_iff.mp ⟨now, hwindow⟩] at hvalidity
      cases hvalidity
    · exact absurd hpasses hreplay

end Generated

/-- The defaults, and no function to look for used nonces. -/
def payrollExecution : NonceValidationOptions Int Unit where
  operationType := .payroll_execution

theorem fresh_nonce_never_passes :
    ¬∀ now, InWindow payrollExecution 0 now →
      ReplayPasses payrollExecution (generatedFor payrollExecution 0 fun _ => 0) →
        Accepts now (generatedFor payrollExecution 0 fun _ => 0) payrollExecution := by
  intro h
  rcases (generated_accepted_iff 0 (fun _ => 0) payrollExecution).mp h with hvalidity | hreplay
  · exact absurd hvalidity (by decide)
  · exact hreplay ⟨by simp [payrollExecution], by simp [payrollExecution]⟩

/-- A nonce is refused in the millisecond in which it was generated. -/
theorem fresh_nonce_refused :
    InWindow payrollExecution 0 0 ∧ ReplayPasses payrollExecution (generatedFor payrollExecution 0 fun _ => 0) ∧
      generatedFor payrollExecution 0 (fun _ => 0) = "payroll_execution.0.00000000000000000000000000000000" ∧
      validateExecutionNonce 0 (some (generatedFor payrollExecution 0 fun _ => 0)) payrollExecution =
        .ok (refused .INVALID_SIGNATURE "Nonce signature validation failed") := by
  refine ⟨⟨le_rfl, by decide⟩, ⟨by simp [payrollExecution], by simp [payrollExecution]⟩, ?_, ?_⟩
  · decide +kernel
  · decide +kernel

/-! ## Accepted nonces -/

section Accepted

variable [CommRing ν] [LinearOrder ν] [IsStrictOrderedRing ν] {options : NonceValidationOptions ν ε}

/-- The time that a nonce carries. -/
def timestampOf (nonce : String) : Option Int :=
  match (trim nonce).toList.splitOn '.' with
  | [_, timestampPart, _] => parseInt36 timestampPart
  | _ => none

/-- The time lies between the validity before `now` and the clock skew after. -/
structure Timely (options : NonceValidationOptions ν ε) (now t : Int) : Prop where
  notBefore : JsNumber.le (JsNumber.sub (.finite (now : ν)) (validityOf options)) (.finite (t : ν)) = true
  notAfter : JsNumber.le (.finite (t : ν)) (JsNumber.add (.finite (now : ν)) (maxSkewOf options)) = true

omit [CommRing ν] [LinearOrder ν] [IsStrictOrderedRing ν] in
theorem Genuine.timestamp {nonce : String} {t : Int} (h : Genuine options nonce t) : timestampOf nonce = some t := by
  obtain ⟨timestampPart, randomPart, hsplit, hparse, -⟩ := h.parts
  rw [timestampOf, hsplit]
  exact hparse

/-- A nonce that has not expired was generated within the validity, if that is
a number. -/
theorem notBefore_of_unexpired {now t : Int}
    (hexpired : JsNumber.lt (expiryTime options t) (.finite (now : ν)) = false) :
    JsNumber.le (JsNumber.sub (.finite (now : ν)) (validityOf options)) (.finite (t : ν)) = true ↔
      validityOf options ≠ .nan := by
  rw [expiryTime] at hexpired
  cases hv : validityOf options with
  | nan => simp [JsNumber.sub, JsNumber.neg, JsNumber.add, JsNumber.le]
  | infinity => simp [JsNumber.sub, JsNumber.neg, JsNumber.add, JsNumber.le]
  | negInfinity =>
    rw [hv] at hexpired
    cases hexpired
  | finite v =>
    rw [hv] at hexpired
    have hle : JsNumber.le (.finite (now : ν)) (JsNumber.add (.finite (t : ν)) (.finite v)) = true :=
      JsNumber.le_of_not_lt rfl rfl hexpired
    simp only [JsNumber.add, JsNumber.le, decide_eq_true_eq] at hle
    refine iff_of_true ?_ (by simp)
    simp only [JsNumber.sub, JsNumber.neg, JsNumber.add, JsNumber.le, decide_eq_true_eq]
    rw [← sub_eq_add_neg]
    exact sub_le_iff_le_add.mpr hle

/-- An accepted nonce carries a time between the validity before `now` and the
clock skew after, and is accepted only for what it was generated for, exactly
when its time is not beyond the clock skew and the validity is not `NaN`, or
when another check refuses it. -/
theorem accepted_bounds_iff (now : Int) (nonce : String) (options : NonceValidationOptions ν ε) :
    (Accepts now nonce options →
        (∀ t ∈ timestampOf nonce, Timely options now t) ∧
        ∀ issuedAt random (generation : NonceGenerationOptions ν),
          nonce = (generateExecutionNonce issuedAt random generation).nonce →
          generation.operationType = options.operationType ∧ generation.contextId = options.contextId) ↔
      (validityOf options ≠ .nan ∧ ∃ t ∈ timestampOf nonce,
        JsNumber.le (.finite (t : ν)) (JsNumber.add (.finite (now : ν)) (maxSkewOf options)) = true) ∨
      ∀ t, Genuine options nonce t →
        isSkewed now options t = true ∨ JsNumber.lt (expiryTime options t) (.finite (now : ν)) = true := by
  constructor
  · intro h
    by_cases haccepts : Accepts now nonce options
    · obtain ⟨htimely, -⟩ := h haccepts
      obtain ⟨t, hgenuine, -, hexpired⟩ := accepts_iff.mp haccepts
      have ht := htimely t hgenuine.timestamp
      exact .inl ⟨(notBefore_of_unexpired hexpired).mp ht.notBefore, t, hgenuine.timestamp, ht.notAfter⟩
    · right
      intro t hgenuine
      by_contra hpasses
      obtain ⟨hskew, hexpired⟩ := not_or.mp hpasses
      exact haccepts (accepts_iff.mpr ⟨t, hgenuine, by simpa using hskew, by simpa using hexpired⟩)
  · intro hcond haccepts
    obtain ⟨t, hgenuine, hskew, hexpired⟩ := accepts_iff.mp haccepts
    constructor
    · intro t' ht'
      obtain rfl : t = t' := Option.some.inj (hgenuine.timestamp.symm.trans ht')
      rcases hcond with ⟨hvalidity, s, hs, hafter⟩ | hrefused
      · obtain rfl : t = s := Option.some.inj (hgenuine.timestamp.symm.trans hs)
        exact ⟨(notBefore_of_unexpired hexpired).mpr hvalidity, hafter⟩
      · rcases hrefused t hgenuine with h | h
        · rw [hskew] at h
          cases h
        · rw [hexpired] at h
          cases h
    · rintro issuedAt random generation rfl
      exact absurd haccepts (not_accepts_generated now issuedAt random generation)

end Accepted

/-- A nonce of 1970 with 64 digits. -/
def presentNonce : String :=
  "payroll_execution.0.0000000000000000000000000000000000000000000000000000000000000000"

theorem present_nonce_timely :
    (∀ t ∈ timestampOf presentNonce, Timely payrollExecution 0 t) ∧
      ∀ issuedAt random (generation : NonceGenerationOptions Int),
        presentNonce = (generateExecutionNonce issuedAt random generation).nonce →
        generation.operationType = payrollExecution.operationType ∧
          generation.contextId = payrollExecution.contextId := by
  refine (accepted_bounds_iff 0 presentNonce payrollExecution).mpr (.inl ⟨by decide, 0, ?_, by decide⟩) ⟨_, rfl, ?_⟩
  · decide +kernel
  · decide +kernel

/-- A nonce of the year 2059 with 64 digits. -/
def futureNonce : String :=
  "payroll_execution.zzzzzzzz.0000000000000000000000000000000000000000000000000000000000000000"

/-- In 1970 it is accepted, with a clock skew of a minute. -/
theorem future_nonce_accepted :
    Accepts 0 futureNonce payrollExecution ∧ timestampOf futureNonce = some 2821109907455 ∧
      ¬Timely payrollExecution 0 2821109907455 := by
  refine ⟨?_, ?_, fun h => ?_⟩
  · refine ⟨_, rfl, ?_⟩
    decide +kernel
  · decide +kernel
  · exact absurd h.notAfter (by decide)

end ZkPayroll.Core
