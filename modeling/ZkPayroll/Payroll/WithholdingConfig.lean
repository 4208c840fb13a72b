import ZkPayroll.Payroll.MinimumAmount
import ZkPayroll.Validation.ValidationTypes

/-!
# Withholding configurations

`validateWithholdingConfig` of `payroll/withholdingConfig.ts`. A configuration
may be any value that holds data and no functions. A check gives a value, or
ends the validation: with a failure, or because something throws, as a number of
decimals does that is no integer.

A limit that is a bigint or a number is in base units, and one that is a text is
in units of the asset, of which each has `10 ^ decimals` base units
(`amounts_by_representation`). What is accepted has its limits in base units in
the normal form, but for the cap of a percentage, which is left out
(`limits_carried_iff`).
-/

namespace ZkPayroll.Payroll

open Framework ZkPayroll.Core Assets
open Validation (DraftValue field stringOf)
open Draft (numberText)
open Treasury (bigIntError)

variable {ν : Type}

/-! ## Data -/

/-- The value of each is its name after `WITHHOLDING_`. -/
inductive WithholdingConfigErrorCode where
  | CONFIG_REQUIRED
  | METHOD_REQUIRED
  | METHOD_UNSUPPORTED
  | RATE_REQUIRED
  | RATE_INVALID
  | RATE_OUT_OF_RANGE
  | AMOUNT_REQUIRED
  | AMOUNT_INVALID
  | AMOUNT_NEGATIVE
  | AMOUNT_ZERO
  | AMOUNT_UNEXPECTED
  | CAP_INVALID
  | CAP_EXCEEDED
  | ROUNDING_UNSUPPORTED
  | JURISDICTION_INVALID
  | EMPLOYEE_REQUIRED
  | EMPLOYEE_MISMATCH
  deriving DecidableEq

inductive WithholdingMethod where
  | percentage
  | fixed
  deriving DecidableEq

inductive WithholdingRounding where
  | floor
  | ceil
  | nearest
  deriving DecidableEq

/-- The states of a failure. -/
inductive WithholdingConfigOperationalState where
  | invalid
  | malformed
  deriving DecidableEq

/-- The properties of a configuration, of any type. -/
structure WithholdingConfig (ν : Type) where
  employeeId : DraftValue ν := .undefined
  method : DraftValue ν := .undefined
  rate : DraftValue ν := .undefined
  amount : DraftValue ν := .undefined
  maxPerRun : DraftValue ν := .undefined
  rounding : DraftValue ν := .undefined
  jurisdiction : DraftValue ν := .undefined

structure NormalizedWithholdingConfig (ν : Type) where
  employeeId : Option String
  method : WithholdingMethod
  rate : Option ν := none
  amount : Option Int := none
  maxPerRun : Option Int := none
  rounding : WithholdingRounding
  jurisdiction : Option String

/-- The result of a validation that accepts. -/
structure ValidatedWithholdingConfig (ν : Type) where
  config : NormalizedWithholdingConfig ν
  displayEmployeeId : String

/-- How a validation ends without a configuration. -/
inductive WithholdingRejection where
  | failure (code : WithholdingConfigErrorCode) (state : WithholdingConfigOperationalState) (message : String)
  | thrown (e : SdkError)

structure WithholdingConfigValidationOptions (ν : Type) where
  expectedEmployeeId : Option String := none
  requireEmployeeId : Option Bool := none
  maxRate : Option (JsNumber ν) := none
  allowZeroRate : Option Bool := none
  allowZeroAmount : Option Bool := none
  decimals : Option (JsNumber ν) := none
  includeAmounts : Option Bool := none
  includeEmployeeId : Option Bool := none

def MAX_WITHHOLDING_RATE : Nat := 100

def DEFAULT_WITHHOLDING_ROUNDING : WithholdingRounding := .nearest

def MAX_RATE_DECIMAL_PLACES : Nat := 4

def WithholdingMethod.text : WithholdingMethod → String
  | .percentage => "percentage"
  | .fixed => "fixed"

def WithholdingRounding.text : WithholdingRounding → String
  | .floor => "floor"
  | .ceil => "ceil"
  | .nearest => "nearest"

def SUPPORTED_METHODS : List WithholdingMethod := [.percentage, .fixed]

def SUPPORTED_ROUNDING : List WithholdingRounding := [.floor, .ceil, .nearest]

/-! ## Checks -/

/-- `failure` with the state of a configuration that fails a check. -/
def invalidConfig (code : WithholdingConfigErrorCode) (message : String) : WithholdingRejection :=
  .failure code .invalid message

/-- The object that a configuration has to be. -/
def checkObject : DraftValue ν → Except WithholdingRejection (WithholdingConfig ν)
  | .obj fields => .ok {
      employeeId := field fields "employeeId"
      method := field fields "method"
      rate := field fields "rate"
      amount := field fields "amount"
      maxPerRun := field fields "maxPerRun"
      rounding := field fields "rounding"
      jurisdiction := field fields "jurisdiction" }
  | _ => .error (.failure .CONFIG_REQUIRED .malformed
      "Withholding configuration must be an object with a method and its rate or amount.")

/-- The reference of the employee, which is empty if there is none. -/
def employeeIdText : DraftValue ν → Except WithholdingRejection String
  | .undefined => .ok ""
  | .str s => .ok (trim s)
  | _ => .error (invalidConfig .EMPLOYEE_REQUIRED
      "Withholding configuration employee reference must be a string identifier.")

def checkEmployeeId (rawEmployeeId : DraftValue ν) (options : WithholdingConfigValidationOptions ν) :
    Except WithholdingRejection String := do
  let employeeId ← employeeIdText rawEmployeeId
  throwIf (options.requireEmployeeId.getD false = true ∧ employeeId = "")
    (invalidConfig .EMPLOYEE_REQUIRED
      "Withholding configuration requires an employee reference for this payroll run.")
  throwIf (∃ expected ∈ options.expectedEmployeeId, expected ≠ "" ∧ employeeId ≠ trim expected)
    (invalidConfig .EMPLOYEE_MISMATCH
      "Withholding configuration targets a different employee than the payroll run expects.")
  return employeeId

def checkMethod (rawMethod : DraftValue ν) : Except WithholdingRejection WithholdingMethod := do
  let method := match rawMethod with
    | .str s => trim s
    | _ => ""
  throwIf (method = "")
    (invalidConfig .METHOD_REQUIRED "Withholding configuration requires a method of \"percentage\" or \"fixed\".")
  orThrow (invalidConfig .METHOD_UNSUPPORTED "Withholding method is not supported; use \"percentage\" or \"fixed\".")
    (SUPPORTED_METHODS.find? fun supported => supported.text = method)

def checkRounding : DraftValue ν → Except WithholdingRejection WithholdingRounding
  | .undefined => .ok DEFAULT_WITHHOLDING_ROUNDING
  | .str s =>
    orThrow (invalidConfig .ROUNDING_UNSUPPORTED
        "Withholding rounding must be one of \"floor\", \"ceil\", or \"nearest\".")
      (SUPPORTED_ROUNDING.find? fun supported => supported.text = s)
  | _ => .error (invalidConfig .ROUNDING_UNSUPPORTED
      "Withholding rounding must be one of \"floor\", \"ceil\", or \"nearest\".")

def checkJurisdiction : DraftValue ν → Except WithholdingRejection (Option String)
  | .undefined => .ok none
  | .str s => do
    throwIf (trim s = "")
      (invalidConfig .JURISDICTION_INVALID "Withholding jurisdiction label must be a non-empty string.")
    return some (trim s)
  | _ => .error (invalidConfig .JURISDICTION_INVALID "Withholding jurisdiction label must be a non-empty string.")

/-- Format an employee identifier for messages, honouring the redaction policy. -/
def displayEmployeeId (employeeId : DraftValue ν) (includeEmployeeId : Bool) : String :=
  match employeeId with
  | .str s => if includeEmployeeId then s else redactEmployeeId (some s)
  | _ => redactEmployeeId none

/-! ## Amounts -/

/-- What `parseBaseUnitAmount` returns. -/
inductive BaseUnitAmount where
  | value (n : Int)
  | invalid
  | negative
  | zero
  deriving DecidableEq

/-- What a number of units is. -/
def BaseUnitAmount.ofUnits (n : Int) : BaseUnitAmount :=
  if n < 0 then .negative else if n = 0 then .zero else .value n

/-- `/^-?\d+(\.\d+)?$/`. -/
def matchesSignedDecimal : List Char → Bool
  | '-' :: rest => matchesDecimal rest
  | cs => matchesDecimal cs

variable [NumberFormat ν] [CommRing ν] [LinearOrder ν] [FloorRing ν]

/-- The base units of a text without white space around it. -/
def parseTextAmount (trimmed : List Char) (decimals : JsNumber ν) : Except SdkError BaseUnitAmount :=
  if matchesSignedDecimal trimmed = false then .ok .invalid
  else if trimmed.head? = some '-' then .ok .negative
  else
    let (whole, fraction) := splitPoint trimmed
    if JsNumber.lt decimals (.finite (fraction.length : ν)) = true then .ok .invalid
    else do
      -- `BigInt(decimals)`, which is not negative here
      let d ← orThrow (bigIntError (numberText decimals)) decimals.toInteger
      let scale : Nat := 10 ^ d.toNat
      let value := digitsValue whole * scale + digitsValue (padEnd d.toNat fraction)
      if value = 0 then return .zero
      else return .value value

def parseBaseUnitAmount (raw : DraftValue ν) (decimals : JsNumber ν) : Except SdkError BaseUnitAmount :=
  match raw with
  | .bigint n => .ok (.ofUnits n)
  | .num n =>
    match n.toInteger with
    | some n => .ok (.ofUnits n)
    | none => .ok .invalid
  | .str s => parseTextAmount (trimChars s.toList) decimals
  | _ => .ok .invalid

/-- The default is that of the assets of the SDK. -/
def decimalsOf (options : WithholdingConfigValidationOptions ν) : JsNumber ν :=
  options.decimals.getD (.finite ((DEFAULT_ASSET_DECIMALS : Int) : ν))

omit [CommRing ν] [LinearOrder ν] [FloorRing ν] in
/-- Format a base-unit amount for messages, honouring the redaction policy. -/
def displayAmount (raw : DraftValue ν) (includeAmounts : Bool) : Except SdkError String :=
  if includeAmounts then stringOf raw else .ok "[REDACTED]"

/-- What throws within a check ends the validation. -/
def orEnd {α : Type} : Except SdkError α → Except WithholdingRejection α := Except.mapError .thrown

/-- The value that a fixed configuration withholds. -/
def checkAmount (candidate : WithholdingConfig ν) (options : WithholdingConfigValidationOptions ν) :
    Except WithholdingRejection Int := do
  let employeeDisplay := displayEmployeeId candidate.employeeId (options.includeEmployeeId.getD false)
  match candidate.amount with
  | .undefined | .null =>
    .error (invalidConfig .AMOUNT_REQUIRED "Fixed withholding configuration requires an amount in base units.")
  | raw =>
    match ← orEnd (parseBaseUnitAmount raw (decimalsOf options)) with
    | .value n => return n
    | .negative =>
      .error (invalidConfig .AMOUNT_NEGATIVE
        s!"A negative withholding amount is not permitted for employee {employeeDisplay}.")
    | .zero =>
      if options.allowZeroAmount.getD false then return 0
      else .error (invalidConfig .AMOUNT_ZERO
        s!"A zero withholding amount is not permitted for employee {employeeDisplay}; configure no rule instead.")
    | .invalid => do
      let received ← orEnd (displayAmount raw (options.includeAmounts.getD false))
      .error (invalidConfig .AMOUNT_INVALID
        s!"Withholding amount must be an integer number of base units (or a decimal string with at most {numberText (decimalsOf options)} decimal places); received {received}.")

/-- The optional per-run cap of a fixed configuration that withholds `value`. -/
def checkCap (candidate : WithholdingConfig ν) (options : WithholdingConfigValidationOptions ν) (value : Int) :
    Except WithholdingRejection (Option Int) :=
  match candidate.maxPerRun with
  | .undefined | .null => .ok none
  | raw => do
    match ← orEnd (parseBaseUnitAmount raw (decimalsOf options)) with
    | .value cap =>
      if cap < value then
        let amount ← orEnd (displayAmount candidate.amount (options.includeAmounts.getD false))
        let limit ← orEnd (displayAmount raw (options.includeAmounts.getD false))
        .error (invalidConfig .CAP_EXCEEDED
          s!"Configured withholding amount ({amount}) exceeds the per-run cap ({limit}); raise the cap or lower the amount.")
      else return some cap
    | _ =>
      .error (invalidConfig .CAP_INVALID "Per-run withholding cap must be a positive integer number of base units.")

/-- `Math.round(x)`, which is `⌊x + 1 / 2⌋`. -/
def mathRound (x : ν) : Int := ⌊2 * x + 1⌋ / 2

/-- The rate of a percentage configuration. -/
def checkRate (rawRate : DraftValue ν) (options : WithholdingConfigValidationOptions ν) :
    Except WithholdingRejection ν :=
  let maxRate := options.maxRate.getD (.finite ((MAX_WITHHOLDING_RATE : Nat) : ν))
  match rawRate with
  | .undefined | .null =>
    .error (invalidConfig .RATE_REQUIRED "Percentage withholding configuration requires a rate between 0 and 100.")
  | .num (.finite rate) => do
    let scaled := rate * ((10 ^ MAX_RATE_DECIMAL_PLACES : Nat) : ν)
    -- further from an integer than `1e-6`
    throwIf (1 < |scaled - (mathRound scaled : ν)| * ((1000000 : Nat) : ν))
      (invalidConfig .RATE_INVALID s!"Withholding rate supports at most {MAX_RATE_DECIMAL_PLACES} decimal places.")
    let zeroAllowed := options.allowZeroRate.getD false = true ∧ rate = 0
    throwIf ((rate < 0 ∨ rate = 0 ∨ JsNumber.lt maxRate (.finite rate) = true) ∧ ¬ zeroAllowed)
      (invalidConfig .RATE_OUT_OF_RANGE
        (if rate = 0 then
          "Withholding rate of 0% is not permitted for this payroll run; use allowZeroRate for exempt employees."
        else s!"Withholding rate must be greater than 0 and at most {numberText maxRate}."))
    return rate
  | _ => .error (invalidConfig .RATE_INVALID "Withholding rate must be a finite number.")

/-! ## Validation -/

/-- The text is kept where it is not empty. -/
def textOrNone (s : String) : Option String := if s = "" then none else some s

def isUndefined : DraftValue ν → Bool
  | .undefined => true
  | _ => false

def validateWithholdingConfig (config : DraftValue ν) (options : WithholdingConfigValidationOptions ν) :
    Except WithholdingRejection (ValidatedWithholdingConfig ν) := do
  let candidate ← checkObject config
  let employeeId ← checkEmployeeId candidate.employeeId options
  let method ← checkMethod candidate.method
  let rounding ← checkRounding candidate.rounding
  let jurisdiction ← checkJurisdiction candidate.jurisdiction
  let common : NormalizedWithholdingConfig ν := { employeeId := textOrNone employeeId, method, rounding, jurisdiction }
  let displayEmployeeId := redactEmployeeId common.employeeId
  match method with
  | .percentage => do
    throwIf (isUndefined candidate.amount = false)
      (invalidConfig .AMOUNT_UNEXPECTED
        "A fixed withholding amount was provided for a percentage configuration; remove one of them.")
    let rate ← checkRate candidate.rate options
    return { config := { common with rate := some rate }, displayEmployeeId }
  | .fixed => do
    throwIf (isUndefined candidate.rate = false)
      (invalidConfig .RATE_INVALID
        "A rate was provided for a fixed withholding configuration; remove it or switch the method to \"percentage\".")
    let amount ← checkAmount candidate options
    let maxPerRun ← checkCap candidate options amount
    return { config := { common with amount := some amount, maxPerRun }, displayEmployeeId }

/-! ## The normal form again -/

/-- The value of an optional text. -/
def textValueOf : Option String → DraftValue ν
  | none => .undefined
  | some s => .str s

/-- The object that a configuration in normal form is. -/
def NormalizedWithholdingConfig.toValue (config : NormalizedWithholdingConfig ν) : DraftValue ν :=
  .obj [("employeeId", textValueOf config.employeeId),
    ("method", .str config.method.text),
    ("rate", (config.rate.map fun rate => DraftValue.num (.finite rate)).getD .undefined),
    ("amount", (config.amount.map DraftValue.bigint).getD .undefined),
    ("maxPerRun", (config.maxPerRun.map DraftValue.bigint).getD .undefined),
    ("rounding", .str config.rounding.text),
    ("jurisdiction", textValueOf config.jurisdiction)]

section Again

variable {options : WithholdingConfigValidationOptions ν}

omit [NumberFormat ν] [CommRing ν] [LinearOrder ν] [FloorRing ν]

variable {raw : DraftValue ν} {raw : DraftValue ν}

theorem trim_of_checkEmployeeId {employeeId : String}
    (h : checkEmployeeId raw options = .ok employeeId) : trim employeeId = employeeId := by
  obtain ⟨s, hs, h⟩ := except_bind_eq_ok.mp h
  obtain ⟨-, h⟩ := throwIf_bind_eq_ok.mp h
  obtain ⟨-, h⟩ := throwIf_bind_eq_ok.mp h
  cases h
  cases raw with
  | undefined =>
    cases hs
    rfl
  | str s =>
    cases hs
    exact trim_trim s
  | _ => cases hs

/-- The reference of the normal form is checked as that it was made of. -/
theorem checkEmployeeId_again {employeeId : String}
    (h : checkEmployeeId raw options = .ok employeeId) :
    checkEmployeeId (textValueOf (textOrNone employeeId)) options = .ok employeeId := by
  have htrim := trim_of_checkEmployeeId h
  obtain ⟨s, -, h⟩ := except_bind_eq_ok.mp h
  obtain ⟨hrequired, h⟩ := throwIf_bind_eq_ok.mp h
  obtain ⟨hexpected, h⟩ := throwIf_bind_eq_ok.mp h
  cases h
  refine except_bind_eq_ok.mpr ⟨_, ?_, throwIf_bind_eq_ok.mpr ⟨hrequired, throwIf_bind_eq_ok.mpr ⟨hexpected, rfl⟩⟩⟩
  unfold textOrNone
  split
  · rename_i hempty
    rw [hempty]
    rfl
  · show Except.ok (trim employeeId) = _
    rw [htrim]

theorem checkMethod_text (method : WithholdingMethod) :
    checkMethod (.str method.text : DraftValue ν) = .ok method := by
  cases method <;> rfl

theorem checkRounding_text (rounding : WithholdingRounding) :
    checkRounding (.str rounding.text : DraftValue ν) = .ok rounding := by
  cases rounding <;> rfl

theorem checkJurisdiction_again {jurisdiction : Option String}
    (h : checkJurisdiction raw = .ok jurisdiction) :
    checkJurisdiction (textValueOf jurisdiction : DraftValue ν) = .ok jurisdiction := by
  cases raw with
  | undefined =>
    cases h
    rfl
  | str s =>
    obtain ⟨hne, h⟩ := throwIf_bind_eq_ok.mp h
    cases h
    show (throwIf (trim (trim s) = "") _ >>= fun _ => _) = _
    rw [trim_trim]
    exact throwIf_bind_eq_ok.mpr ⟨hne, rfl⟩
  | _ => cases h

end Again

section Limits

variable {options : WithholdingConfigValidationOptions ν} {candidate : WithholdingConfig ν}

/-- Only a finite number is a rate. -/
theorem eq_of_checkRate {raw : DraftValue ν} {rate : ν} (h : checkRate raw options = .ok rate) :
    raw = .num (.finite rate) := by
  cases raw with
  | num n =>
    cases n with
    | finite x =>
      obtain ⟨-, h⟩ := throwIf_bind_eq_ok.mp h
      obtain ⟨-, h⟩ := throwIf_bind_eq_ok.mp h
      cases h
      rfl
    | _ => cases h
  | _ => cases h

theorem ofUnits_eq_value {m n : Int} : BaseUnitAmount.ofUnits m = .value n ↔ m = n ∧ 0 < n := by
  unfold BaseUnitAmount.ofUnits
  split
  · simp
    omega
  · split
    · simp
      omega
    · rw [BaseUnitAmount.value.injEq]
      omega

/-- An amount that has a value is positive. -/
theorem pos_of_parse {raw : DraftValue ν} {decimals : JsNumber ν} {n : Int}
    (h : parseBaseUnitAmount raw decimals = .ok (.value n)) : 0 < n := by
  unfold parseBaseUnitAmount at h
  split at h
  · exact (ofUnits_eq_value.mp (Except.ok.inj h)).2
  · split at h
    · exact (ofUnits_eq_value.mp (Except.ok.inj h)).2
    · cases h
  · unfold parseTextAmount at h
    split at h
    · cases h
    · split at h
      · cases h
      · split at h
        split at h
        · cases h
        · obtain ⟨d, -, h⟩ := orThrow_bind_eq_ok.mp h
          dsimp only at h
          split at h
          · cases h
          · rename_i hne
            cases h
            exact_mod_cast Nat.pos_of_ne_zero hne
  · cases h

omit [NumberFormat ν] [CommRing ν] [LinearOrder ν] [FloorRing ν] in
theorem orEnd_bind_eq_ok {α β : Type} {x : Except SdkError α} {f : α → Except WithholdingRejection β} {b : β} :
    (orEnd x >>= f) = .ok b ↔ ∃ a, x = .ok a ∧ f a = .ok b := by
  cases x <;> simp [orEnd, Except.mapError, bind, Except.bind]

/-- The amount that is withheld: what it was given as, or zero where that is
allowed. -/
theorem checkAmount_eq_ok {n : Int} : checkAmount candidate options = .ok n ↔
    parseBaseUnitAmount candidate.amount (decimalsOf options) = .ok (.value n) ∨
      parseBaseUnitAmount candidate.amount (decimalsOf options) = .ok .zero ∧
        options.allowZeroAmount.getD false = true ∧ n = 0 := by
  unfold checkAmount
  dsimp only
  split
  · rename_i h
    simp [h, parseBaseUnitAmount]
  · rename_i h
    simp [h, parseBaseUnitAmount]
  · rw [orEnd_bind_eq_ok]
    constructor
    · intro h
      obtain ⟨parsed, hparse, h⟩ := h
      cases parsed with
      | value m =>
        cases h
        exact .inl hparse
      | negative => cases h
      | zero =>
        dsimp only at h
        split at h
        · rename_i hallowed
          cases h
          exact .inr ⟨hparse, hallowed, rfl⟩
        · cases h
      | invalid =>
        obtain ⟨_, -, h⟩ := orEnd_bind_eq_ok.mp h
        cases h
    · intro h
      rcases h with hvalue | ⟨hzero, hallowed, rfl⟩
      · exact ⟨_, hvalue, rfl⟩
      · exact ⟨_, hzero, if_pos hallowed⟩

def isNullish : DraftValue ν → Bool
  | .undefined | .null => true
  | _ => false

/-- The cap: none, or what it was given as, which is no less than the amount. -/
theorem checkCap_eq_ok {value : Int} {cap : Option Int} : checkCap candidate options value = .ok cap ↔
    isNullish candidate.maxPerRun = true ∧ cap = none ∨
      ∃ n, parseBaseUnitAmount candidate.maxPerRun (decimalsOf options) = .ok (.value n) ∧ value ≤ n ∧
        cap = some n := by
  unfold checkCap
  split
  · rename_i h
    simp [h, parseBaseUnitAmount, isNullish, eq_comm]
  · rename_i h
    simp [h, parseBaseUnitAmount, isNullish, eq_comm]
  · rename_i raw hundefined hnull
    have hpresent : isNullish candidate.maxPerRun = false := by
      cases hraw : candidate.maxPerRun with
      | undefined => exact absurd hraw hundefined
      | null => exact absurd hraw hnull
      | _ => rfl
    rw [hpresent]
    rw [orEnd_bind_eq_ok, or_iff_right (by simp)]
    constructor
    · intro h
      obtain ⟨parsed, hparse, h⟩ := h
      cases parsed with
      | value m =>
        dsimp only at h
        split at h
        · obtain ⟨_, -, h⟩ := orEnd_bind_eq_ok.mp h
          obtain ⟨_, -, h⟩ := orEnd_bind_eq_ok.mp h
          cases h
        · rename_i hle
          cases h
          exact ⟨m, hparse, not_lt.mp hle, rfl⟩
      | _ => cases h
    · intro h
      obtain ⟨m, hparse, hle, rfl⟩ := h
      exact ⟨_, hparse, if_neg (not_lt.mpr hle)⟩

end Limits

/-- The limits of a configuration that is accepted, by its method. -/
def LimitsOf (candidate : WithholdingConfig ν) (options : WithholdingConfigValidationOptions ν)
    (config : NormalizedWithholdingConfig ν) : Prop :=
  match config.method with
  | .percentage => isUndefined candidate.amount = true ∧
    (∃ rate, checkRate candidate.rate options = .ok rate ∧ config.rate = some rate) ∧
      config.amount = none ∧ config.maxPerRun = none
  | .fixed => isUndefined candidate.rate = true ∧ config.rate = none ∧
    ∃ amount, checkAmount candidate options = .ok amount ∧ config.amount = some amount ∧
      checkCap candidate options amount = .ok config.maxPerRun

/-- The candidate is accepted with this result. -/
structure AcceptedAs (candidate : WithholdingConfig ν) (options : WithholdingConfigValidationOptions ν)
    (r : ValidatedWithholdingConfig ν) : Prop where
  employeeId : ∃ employeeId, checkEmployeeId candidate.employeeId options = .ok employeeId ∧
    r.config.employeeId = textOrNone employeeId
  method : checkMethod candidate.method = .ok r.config.method
  rounding : checkRounding candidate.rounding = .ok r.config.rounding
  jurisdiction : checkJurisdiction candidate.jurisdiction = .ok r.config.jurisdiction
  displayEmployeeId : r.displayEmployeeId = redactEmployeeId r.config.employeeId
  limits : LimitsOf candidate options r.config

variable {options : WithholdingConfigValidationOptions ν} {r : ValidatedWithholdingConfig ν}

theorem validate_eq_ok {config : DraftValue ν} : validateWithholdingConfig config options = .ok r ↔
      ∃ candidate, checkObject config = .ok candidate ∧ AcceptedAs candidate options r := by
  constructor
  · intro h
    obtain ⟨candidate, hobject, h⟩ := except_bind_eq_ok.mp h
    obtain ⟨employeeId, hemployee, h⟩ := except_bind_eq_ok.mp h
    obtain ⟨method, hmethod, h⟩ := except_bind_eq_ok.mp h
    obtain ⟨rounding, hrounding, h⟩ := except_bind_eq_ok.mp h
    obtain ⟨jurisdiction, hjurisdiction, h⟩ := except_bind_eq_ok.mp h
    refine ⟨candidate, hobject, ?_⟩
    cases method with
    | percentage =>
      obtain ⟨hamount, h⟩ := throwIf_bind_eq_ok.mp h
      obtain ⟨rate, hrate, h⟩ := except_bind_eq_ok.mp h
      cases h
      rw [Bool.not_eq_false] at hamount
      exact ⟨⟨employeeId, hemployee, rfl⟩, hmethod, hrounding, hjurisdiction, rfl, hamount, ⟨rate, hrate, rfl⟩, rfl,
        rfl⟩
    | fixed =>
      obtain ⟨hnorate, h⟩ := throwIf_bind_eq_ok.mp h
      obtain ⟨amount, hamount, h⟩ := except_bind_eq_ok.mp h
      obtain ⟨cap, hcap, h⟩ := except_bind_eq_ok.mp h
      cases h
      rw [Bool.not_eq_false] at hnorate
      exact ⟨⟨employeeId, hemployee, rfl⟩, hmethod, hrounding, hjurisdiction, rfl, hnorate, rfl, amount, hamount, rfl,
        hcap⟩
  · rintro ⟨candidate, hobject, ⟨employeeId, hemployee, hid⟩, hmethod, hrounding, hjurisdiction, hdisplay, hlimits⟩
    obtain ⟨⟨id, method, rate, amount, cap, rounding, jurisdiction⟩, display⟩ := r
    simp only at hid hmethod hrounding hjurisdiction hdisplay
    subst hid hdisplay
    refine except_bind_eq_ok.mpr ⟨candidate, hobject, except_bind_eq_ok.mpr ⟨employeeId, hemployee,
      except_bind_eq_ok.mpr ⟨method, hmethod, except_bind_eq_ok.mpr ⟨rounding, hrounding,
        except_bind_eq_ok.mpr ⟨jurisdiction, hjurisdiction, ?_⟩⟩⟩⟩⟩
    cases method with
    | percentage =>
      obtain ⟨hnoamount, ⟨x, hrate, hx⟩, hamount, hcap⟩ := hlimits
      simp only at hx hamount hcap
      subst hx hamount hcap
      exact throwIf_bind_eq_ok.mpr ⟨by rw [hnoamount]; decide, except_bind_eq_ok.mpr ⟨x, hrate, rfl⟩⟩
    | fixed =>
      obtain ⟨hnorate, hrate, n, hamount, hn, hcap⟩ := hlimits
      simp only at hrate hn hcap
      subst hrate hn
      exact throwIf_bind_eq_ok.mpr ⟨by rw [hnorate]; decide,
        except_bind_eq_ok.mpr ⟨n, hamount, except_bind_eq_ok.mpr ⟨cap, hcap, rfl⟩⟩⟩

/-- The normal form of what is accepted is accepted as it is. -/
theorem validate_again {config : DraftValue ν}
    (h : validateWithholdingConfig config options = .ok r) :
    validateWithholdingConfig r.config.toValue options = .ok r := by
  obtain ⟨candidate, -, haccepted⟩ := validate_eq_ok.mp h
  obtain ⟨employeeId, hemployee, hid⟩ := haccepted.employeeId
  refine validate_eq_ok.mpr ⟨_, rfl, ?_⟩
  refine ⟨⟨employeeId, ?_, hid⟩, checkMethod_text _, checkRounding_text _,
    checkJurisdiction_again haccepted.jurisdiction, haccepted.displayEmployeeId, ?_⟩
  · show checkEmployeeId (textValueOf r.config.employeeId) options = _
    rw [hid]
    exact checkEmployeeId_again hemployee
  · have hlimits := haccepted.limits
    unfold LimitsOf at hlimits ⊢
    cases hmethod : r.config.method with
    | percentage =>
      rw [hmethod] at hlimits
      obtain ⟨-, ⟨rate, hrate, hsome⟩, hamount, hcap⟩ := hlimits
      refine ⟨?_, ⟨rate, ?_, hsome⟩, hamount, hcap⟩
      · show isUndefined ((r.config.amount.map DraftValue.bigint).getD .undefined) = true
        rw [hamount]
        rfl
      · show checkRate ((r.config.rate.map fun rate => DraftValue.num (.finite rate)).getD .undefined) options = _
        rw [hsome, ← hrate, eq_of_checkRate hrate]
        rfl
    | fixed =>
      rw [hmethod] at hlimits
      obtain ⟨-, hrate, n, hamount, hsome, hcap⟩ := hlimits
      refine ⟨?_, hrate, n, ?_, hsome, ?_⟩
      · show isUndefined ((r.config.rate.map fun rate => DraftValue.num (.finite rate)).getD .undefined) = true
        rw [hrate]
        rfl
      · rw [checkAmount_eq_ok]
        show parseBaseUnitAmount ((r.config.amount.map DraftValue.bigint).getD .undefined) _ = _ ∨
          parseBaseUnitAmount ((r.config.amount.map DraftValue.bigint).getD .undefined) _ = _ ∧ _
        rw [hsome]
        rcases checkAmount_eq_ok.mp hamount with hvalue | ⟨-, hallowed, rfl⟩
        · exact .inl (congrArg Except.ok (ofUnits_eq_value.mpr ⟨rfl, pos_of_parse hvalue⟩))
        · exact .inr ⟨rfl, hallowed, rfl⟩
      · rw [checkCap_eq_ok]
        show isNullish ((r.config.maxPerRun.map DraftValue.bigint).getD .undefined) = true ∧ _ ∨
          ∃ m, parseBaseUnitAmount ((r.config.maxPerRun.map DraftValue.bigint).getD .undefined) _ = _ ∧ _
        rcases checkCap_eq_ok.mp hcap with ⟨-, hnone⟩ | ⟨m, hvalue, hle, hcap⟩
        · rw [hnone]
          exact .inl ⟨rfl, rfl⟩
        · rw [hcap]
          exact .inr ⟨m, congrArg Except.ok (ofUnits_eq_value.mpr ⟨rfl, pos_of_parse hvalue⟩), hle, rfl⟩

/-! ## Amounts of each type -/

section Amounts

variable {options : WithholdingConfigValidationOptions ν}

/-- The value writes the whole number `n`, in no more than `d` decimals. -/
inductive Writes (d : Nat) : DraftValue ν → Nat → Prop where
  | bigint (n : Nat) : Writes d (.bigint n) n
  | number {x : JsNumber ν} {n : Nat} (h : x.toInteger = some (n : Int)) : Writes d (.num x) n
  | text {s : String} {whole frac : List Char} {n : Nat} (hparts : DecimalParts (trimChars s.toList) whole frac)
      (hfit : frac.length ≤ d) (hvalue : decimalOf whole frac = n) : Writes d (.str s) n

/-- The base units that `n` is in a value: a text is in units of the asset. -/
def unitsOf (d : Nat) : DraftValue ν → Nat → Nat
  | .str _, n => n * 10 ^ d
  | _, n => n

theorem matchesSignedDecimal_of_parts {cs whole frac : List Char} (h : DecimalParts cs whole frac) :
    matchesSignedDecimal cs = true := by
  have hmatch : matchesDecimal cs = true := matchesDecimal_iff.mpr ⟨whole, frac, h⟩
  unfold matchesSignedDecimal
  split
  · exact absurd rfl (head?_of_parts h).2
  · exact hmatch

variable {d n : Nat}

theorem value_of_fitting {whole frac : List Char} (hfit : frac.length ≤ d)
    (hvalue : decimalOf whole frac = n) :
    digitsValue whole * 10 ^ d + digitsValue (padEnd d frac) = n * 10 ^ d := by
  have hkept : keptUnits d whole frac = digitsValue whole * 10 ^ d + digitsValue (padEnd d frac) := by
    rw [keptUnits, ← fitFraction_eq_padEnd, List.take_of_length_le hfit]
  have hunits := units_of_parts d whole frac
  have hexcess : excessDigits d frac = [] := List.drop_eq_nil_of_le hfit
  rw [hexcess, hvalue, hkept, digitsValue_nil, Nat.cast_zero, zero_div, add_zero] at hunits
  exact_mod_cast hunits.symm

theorem ofUnits_natCast (n : Nat) : BaseUnitAmount.ofUnits n = if n = 0 then .zero else .value n := by
  rw [BaseUnitAmount.ofUnits, if_neg (by omega)]
  split
  · rw [if_pos (by omega)]
  · rw [if_neg (by omega)]

variable {raw : DraftValue ν} {raw : DraftValue ν}

theorem parse_of_writes [IsStrictOrderedRing ν] {decimals : JsNumber ν}
    (hd : IsDecimals decimals d) (h : Writes d raw n) :
    parseBaseUnitAmount raw decimals = .ok (.ofUnits (unitsOf d raw n)) := by
  cases h with
  | bigint => rfl
  | number hx =>
    rw [parseBaseUnitAmount, hx]
    rfl
  | @text s whole frac _ hparts hfit hvalue =>
    have hshort : JsNumber.lt decimals (.finite (frac.length : ν)) = false := by
      rw [hd.eq_finite, JsNumber.lt, JsNumber.le, JsNumber.le, decide_eq_true (Nat.cast_le.mpr hfit)]
      exact Bool.and_false _
    have hinteger : decimals.toInteger = some (d : Int) := hd
    rw [parseBaseUnitAmount, parseTextAmount, matchesSignedDecimal_of_parts hparts, if_neg (by decide),
      if_neg (head?_of_parts hparts).2, splitPoint_of_parts hparts]
    dsimp only
    rw [hshort, if_neg (by decide), orThrow_bind_of_some hinteger, Int.toNat_natCast, value_of_fitting hfit hvalue]
    show (if n * 10 ^ d = 0 then Except.ok BaseUnitAmount.zero else .ok (.value (n * 10 ^ d : Nat))) =
      Except.ok (.ofUnits (n * 10 ^ d : Nat))
    rw [ofUnits_natCast]
    split <;> rfl

/-! ### Outcomes -/

/-- The rejection without the text of its message. -/
def WithholdingRejection.withoutMessage : WithholdingRejection → WithholdingRejection
  | .failure code state _ => .failure code state ""
  | .thrown e => .thrown e

/-- How a check ends, whatever its message says. -/
def outcome {α : Type} : Except WithholdingRejection α → Except WithholdingRejection α :=
  Except.mapError WithholdingRejection.withoutMessage

omit [CommRing ν] [LinearOrder ν] [FloorRing ν] [NumberFormat ν] in
theorem outcome_bind_congr {α β : Type} {x x' : Except WithholdingRejection α}
    {f f' : α → Except WithholdingRejection β} (hx : outcome x = outcome x')
    (hf : ∀ a, outcome (f a) = outcome (f' a)) : outcome (x >>= f) = outcome (x' >>= f') := by
  cases x with
  | error e =>
    cases x' with
    | error e' =>
      cases e <;> cases e' <;> simpa [outcome, Except.mapError, bind, Except.bind] using hx
    | ok a => cases hx
  | ok a =>
    cases x' with
    | error e' => cases hx
    | ok a' =>
      cases hx
      exact hf a

/-- The value is given and can be written in a message. -/
structure Printed (raw : DraftValue ν) : Prop where
  given : isNullish raw = false
  text : ∃ s, stringOf raw = .ok s

omit [CommRing ν] [LinearOrder ν] [FloorRing ν] in
theorem Printed.display (h : Printed raw) (includeAmounts : Bool) :
    ∃ s, orEnd (displayAmount raw includeAmounts) = .ok s := by
  obtain ⟨s, hs⟩ := h.text
  cases includeAmounts with
  | true => exact ⟨s, by rw [displayAmount, if_pos rfl, hs]; rfl⟩
  | false => exact ⟨_, rfl⟩

/-- How the check of an amount ends that is parsed so. -/
def amountOutcome (allowZeroAmount : Bool) : Except SdkError BaseUnitAmount → Except WithholdingRejection Int
  | .error e => .error (.thrown e)
  | .ok (.value n) => .ok n
  | .ok .negative => .error (invalidConfig .AMOUNT_NEGATIVE "")
  | .ok .zero => if allowZeroAmount then .ok 0 else .error (invalidConfig .AMOUNT_ZERO "")
  | .ok .invalid => .error (invalidConfig .AMOUNT_INVALID "")

theorem outcome_checkAmount (candidate : WithholdingConfig ν) (h : Printed candidate.amount) :
    outcome (checkAmount candidate options) = amountOutcome (options.allowZeroAmount.getD false)
      (parseBaseUnitAmount candidate.amount (decimalsOf options)) := by
  obtain ⟨text, htext⟩ := h.display (options.includeAmounts.getD false)
  unfold checkAmount
  split
  · rename_i hraw
    cases (hraw ▸ h.given : isNullish DraftValue.undefined = false)
  · rename_i hraw
    cases (hraw ▸ h.given : isNullish DraftValue.null = false)
  · cases parseBaseUnitAmount candidate.amount (decimalsOf options) with
    | error e => rfl
    | ok parsed =>
      cases parsed with
      | value n => rfl
      | negative => rfl
      | zero =>
        show outcome (if options.allowZeroAmount.getD false = true then _ else _) = _
        cases options.allowZeroAmount.getD false <;> rfl
      | invalid =>
        show outcome (orEnd (displayAmount candidate.amount _) >>= _) = _
        rw [htext]
        rfl

/-- How the check of a cap ends that is parsed so. -/
def capOutcome (value : Int) : Except SdkError BaseUnitAmount → Except WithholdingRejection (Option Int)
  | .error e => .error (.thrown e)
  | .ok (.value cap) => if cap < value then .error (invalidConfig .CAP_EXCEEDED "") else .ok (some cap)
  | .ok _ => .error (invalidConfig .CAP_INVALID "")

theorem outcome_checkCap (candidate : WithholdingConfig ν) (hamount : Printed candidate.amount)
    (hcap : Printed candidate.maxPerRun) (value : Int) :
    outcome (checkCap candidate options value) =
      capOutcome value (parseBaseUnitAmount candidate.maxPerRun (decimalsOf options)) := by
  obtain ⟨amount, hamount⟩ := hamount.display (options.includeAmounts.getD false)
  obtain ⟨limit, hlimit⟩ := hcap.display (options.includeAmounts.getD false)
  unfold checkCap
  split
  · rename_i hraw
    cases (hraw ▸ hcap.given : isNullish DraftValue.undefined = false)
  · rename_i hraw
    cases (hraw ▸ hcap.given : isNullish DraftValue.null = false)
  · cases parseBaseUnitAmount candidate.maxPerRun (decimalsOf options) with
    | error e => rfl
    | ok parsed =>
      cases parsed with
      | value cap =>
        show outcome (if cap < value then _ else _) = if cap < value then _ else _
        split
        · rw [hamount, hlimit]
          rfl
        · rfl
      | _ => rfl

/-- The object of a configuration. -/
def WithholdingConfig.toValue (config : WithholdingConfig ν) : DraftValue ν :=
  .obj [("employeeId", config.employeeId), ("method", config.method), ("rate", config.rate),
    ("amount", config.amount), ("maxPerRun", config.maxPerRun), ("rounding", config.rounding),
    ("jurisdiction", config.jurisdiction)]

/-- Amounts that are parsed the same are the same to the validator. -/
theorem outcome_validate_congr {amount amount' cap cap' : DraftValue ν} (ha : Printed amount) (ha' : Printed amount')
    (hc : Printed cap) (hc' : Printed cap')
    (hamount : parseBaseUnitAmount amount (decimalsOf options) = parseBaseUnitAmount amount' (decimalsOf options))
    (hcap : parseBaseUnitAmount cap (decimalsOf options) = parseBaseUnitAmount cap' (decimalsOf options))
    (config : WithholdingConfig ν) :
    outcome (validateWithholdingConfig { config with amount := amount, maxPerRun := cap }.toValue options) =
      outcome (validateWithholdingConfig { config with amount := amount', maxPerRun := cap' }.toValue options) := by
  show outcome (checkEmployeeId config.employeeId options >>= _) =
    outcome (checkEmployeeId config.employeeId options >>= _)
  refine outcome_bind_congr rfl fun employeeId => outcome_bind_congr rfl fun method =>
    outcome_bind_congr rfl fun rounding => outcome_bind_congr rfl fun jurisdiction => ?_
  cases method with
  | percentage =>
    have hunexpected : ∀ {raw : DraftValue ν}, Printed raw → isUndefined raw = false := by
      intro raw h
      cases raw with
      | undefined => cases h.given
      | _ => rfl
    show outcome (throwIf (isUndefined amount = false) _ >>= _) =
      outcome (throwIf (isUndefined amount' = false) _ >>= _)
    rw [throwIf_bind_of (hunexpected ha), throwIf_bind_of (hunexpected ha')]
  | fixed =>
    refine outcome_bind_congr rfl fun _ => outcome_bind_congr ?_ fun n => outcome_bind_congr ?_ fun _ => rfl
    · rw [outcome_checkAmount _ ha, outcome_checkAmount _ ha']
      exact congrArg _ hamount
    · rw [outcome_checkCap _ ha hc, outcome_checkCap _ ha' hc']
      exact congrArg _ hcap

theorem Writes.printed (h : Writes d raw n) : Printed raw := by
  cases h with
  | bigint => exact ⟨rfl, _, rfl⟩
  | number => exact ⟨rfl, _, rfl⟩
  | text => exact ⟨rfl, _, rfl⟩

omit [NumberFormat ν] in
/-- The digits of a number, as a text. -/
theorem writes_digits (d n : Nat) : Writes d (.str (String.ofList (Nat.toDigits 10 n)) : DraftValue ν) n := by
  have hdigits := isDigits_toDigits n
  have hparts : DecimalParts (Nat.toDigits 10 n) (Nat.toDigits 10 n) [] := ⟨hdigits, .inl ⟨rfl, rfl⟩⟩
  have htext : DecimalParts (trimChars (String.ofList (Nat.toDigits 10 n)).toList) (Nat.toDigits 10 n) [] := by
    rw [String.toList_ofList, trimChars_of_parts hparts]
    exact hparts
  refine .text htext (Nat.zero_le d) ?_
  rw [decimalOf, List.append_nil, digitsValue_toDigits, List.length_nil, pow_zero, div_one]

omit [NumberFormat ν] [CommRing ν] [LinearOrder ν] [FloorRing ν] in
theorem unitsOf_ne_zero (hn : n ≠ 0) : unitsOf d raw n ≠ 0 := by
  cases raw with
  | str => exact Nat.mul_ne_zero hn (by positivity)
  | _ => exact hn

/-- A bigint and a number are base units and a text is units of the asset, and
the validator takes them for these base units: a cap is enough just when it has
as many. So `n` is the same in all of them where the asset has no decimals, or
where it is zero, and only there. -/
theorem amounts_by_representation [IsStrictOrderedRing ν] {d n m : Nat} {amount cap : DraftValue ν}
    (hd : IsDecimals (decimalsOf options) d) (ha : Writes d amount n) (hc : Writes d cap m)
    (config : WithholdingConfig ν) :
    outcome (validateWithholdingConfig { config with amount := amount, maxPerRun := cap }.toValue options) =
        outcome (validateWithholdingConfig
          { config with amount := .bigint (unitsOf d amount n), maxPerRun := .bigint (unitsOf d cap m) }.toValue options) ∧
      (m ≠ 0 → ∀ value : Int,
        checkCap { config with amount := amount, maxPerRun := cap } options value = .ok (some (unitsOf d cap m : Int)) ↔
          value ≤ unitsOf d cap m) ∧
      ((∀ raw : DraftValue ν, Writes d raw n → parseBaseUnitAmount raw (decimalsOf options) =
          parseBaseUnitAmount amount (decimalsOf options)) ↔ d = 0 ∨ n = 0) := by
  have hamount := parse_of_writes hd ha
  have hcap := parse_of_writes hd hc
  refine ⟨outcome_validate_congr ha.printed ⟨rfl, _, rfl⟩ hc.printed ⟨rfl, _, rfl⟩ hamount hcap config, ?_, ?_⟩
  · intro hm value
    have hvalue : parseBaseUnitAmount cap (decimalsOf options) = .ok (.value (unitsOf d cap m)) := by
      rw [hcap, ofUnits_natCast, if_neg (unitsOf_ne_zero hm)]
    rw [checkCap_eq_ok]
    constructor
    · rintro (⟨-, hnone⟩ | ⟨k, -, hle, hk⟩)
      · cases hnone
      · cases hk
        exact hle
    · intro hle
      exact .inr ⟨_, hvalue, hle, rfl⟩
  · constructor
    · intro hsame
      by_cases hn : n = 0
      · exact .inr hn
      · have hbigint : parseBaseUnitAmount (.bigint n) (decimalsOf options) = .ok (.value n) := by
          rw [parseBaseUnitAmount, ofUnits_natCast, if_neg hn]
        have htext : parseBaseUnitAmount (.str (String.ofList (Nat.toDigits 10 n))) (decimalsOf options) =
            .ok (.value (n * 10 ^ d : Nat)) := by
          rw [parse_of_writes hd (writes_digits d n), ofUnits_natCast, if_neg (unitsOf_ne_zero hn)]
          rfl
        have heq := (hsame _ (.bigint n)).trans (hsame _ (writes_digits d n)).symm
        rw [hbigint, htext, Except.ok.injEq, BaseUnitAmount.value.injEq, Nat.cast_inj] at heq
        have hpow : 10 ^ d = 1 := Nat.eq_of_mul_eq_mul_left (Nat.pos_of_ne_zero hn) (by omega)
        exact .inl ((Nat.pow_eq_one.mp hpow).resolve_left (by decide))
    · intro hplain raw hraw
      have hunits : ∀ raw : DraftValue ν, unitsOf d raw n = n := by
        intro raw
        rcases hplain with rfl | rfl
        · cases raw <;> simp [unitsOf]
        · cases raw <;> simp [unitsOf]
      rw [hamount, parse_of_writes hd hraw, hunits, hunits]

end Amounts

/-- A fixed amount with a cap. -/
def fixedConfig (amount maxPerRun : DraftValue Int) : WithholdingConfig Int where
  method := .str "fixed"
  amount := amount
  maxPerRun := maxPerRun

/-- No options. -/
def defaultOptions : WithholdingConfigValidationOptions Int := {}

theorem isDecimals_default : IsDecimals (decimalsOf defaultOptions) 7 := isDecimals_natCast 7

theorem writes_hundred : Writes 7 (.str "100" : DraftValue Int) 100 := by
  have hparts : DecimalParts (trimChars "100".toList) ['1', '0', '0'] [] := ⟨by decide, .inl ⟨by decide, rfl⟩⟩
  have hdigits : digitsValue (['1', '0', '0'] ++ []) = 100 := by decide
  refine .text hparts (Nat.zero_le 7) ?_
  rw [decimalOf, hdigits]
  norm_num

/-- One hundred, written as a text, is above a cap of five hundred base units. -/
theorem hundred_above_cap :
    outcome (validateWithholdingConfig (fixedConfig (.str "100") (.bigint 500)).toValue defaultOptions) =
        outcome (validateWithholdingConfig (fixedConfig (.bigint 1000000000) (.bigint 500)).toValue defaultOptions) ∧
      ∀ value : Int, checkCap (fixedConfig (.str "100") (.bigint 500)) defaultOptions value =
        .ok (some (500 : Int)) ↔ value ≤ 500 := by
  have h := amounts_by_representation isDecimals_default writes_hundred (.bigint 500) (fixedConfig .undefined .undefined)
  exact ⟨h.1, h.2.1 (by decide)⟩

/-- One hundred is within a cap of one hundred base units as a bigint, and above
it as a text. -/
theorem hundred_read_twice :
    parseBaseUnitAmount (.bigint 100) (decimalsOf defaultOptions) ≠
        parseBaseUnitAmount (.str "100") (decimalsOf defaultOptions) ∧
      (validateWithholdingConfig (fixedConfig (.bigint 100) (.bigint 100)).toValue defaultOptions).isOk = true ∧
      (validateWithholdingConfig (fixedConfig (.str "100") (.bigint 100)).toValue defaultOptions).isOk = false := by
  refine ⟨?_, by rfl, by rfl⟩
  have hbigint := parse_of_writes isDecimals_default (.bigint 100)
  have htext := parse_of_writes isDecimals_default writes_hundred
  rw [htext]
  refine fun h => absurd (Except.ok.inj (hbigint.symm.trans h)) ?_
  decide

/-! ## Limits that are carried -/

/-- The normal form has every limit that the configuration was given. -/
structure CarriesLimits (candidate : WithholdingConfig ν) (options : WithholdingConfigValidationOptions ν)
    (config : NormalizedWithholdingConfig ν) : Prop where
  rate : isUndefined candidate.rate = false →
    ∃ rate, candidate.rate = .num (.finite rate) ∧ config.rate = some rate
  amount : isUndefined candidate.amount = false →
    ∃ n, (parseBaseUnitAmount candidate.amount (decimalsOf options) = .ok (.value n) ∨
      parseBaseUnitAmount candidate.amount (decimalsOf options) = .ok .zero ∧ n = 0) ∧ config.amount = some n
  maxPerRun : isNullish candidate.maxPerRun = false →
    ∃ n, parseBaseUnitAmount candidate.maxPerRun (decimalsOf options) = .ok (.value n) ∧ config.maxPerRun = some n

omit [NumberFormat ν] [CommRing ν] [LinearOrder ν] [FloorRing ν] in
/-- The method is the text of it, with white space around it or without. -/
theorem checkMethod_eq_ok {raw : DraftValue ν} {method : WithholdingMethod} :
    checkMethod raw = .ok method ↔ ∃ s, raw = .str s ∧ trim s = method.text := by
  constructor
  · intro h
    obtain ⟨hne, h⟩ := throwIf_bind_eq_ok.mp h
    cases raw with
    | str s =>
      have hfind : SUPPORTED_METHODS.find? (fun supported => supported.text = trim s) = some method := by
        cases hcase : SUPPORTED_METHODS.find? (fun supported => supported.text = trim s) with
        | none =>
          rw [hcase] at h
          cases h
        | some found =>
          rw [hcase] at h
          cases h
          rfl
      have htext := List.find?_some hfind
      exact ⟨s, rfl, (of_decide_eq_true htext).symm⟩
    | _ => exact absurd rfl hne
  · rintro ⟨s, rfl, hs⟩
    have htext : checkMethod (.str method.text : DraftValue ν) = .ok method := checkMethod_text method
    have htrim : trim method.text = method.text := by
      cases method <;> rfl
    unfold checkMethod at htext ⊢
    dsimp only at htext ⊢
    rw [htrim] at htext
    rw [hs]
    exact htext

/-- A cap is left out of the normal form of a percentage, and all other limits
are in the normal form; it is accepted again with those it has. -/
theorem limits_carried_iff {config : DraftValue ν} {options : WithholdingConfigValidationOptions ν}
    {candidate : WithholdingConfig ν} {r : ValidatedWithholdingConfig ν} (hobject : checkObject config = .ok candidate)
    (h : validateWithholdingConfig config options = .ok r) :
    (CarriesLimits candidate options r.config ∧
        ∃ again, validateWithholdingConfig r.config.toValue options = .ok again ∧ again.config = r.config) ↔
      (∃ s, candidate.method = .str s ∧ trim s = "fixed") ∨ isNullish candidate.maxPerRun = true := by
  obtain ⟨found, hfound, haccepted⟩ := validate_eq_ok.mp h
  obtain rfl : candidate = found := Except.ok.inj (hobject.symm.trans hfound)
  have hfixed : checkMethod candidate.method = .ok .fixed ↔ ∃ s, candidate.method = .str s ∧ trim s = "fixed" :=
    checkMethod_eq_ok
  have hlimits := haccepted.limits
  rw [and_iff_left ⟨r, validate_again h, rfl⟩, ← hfixed, haccepted.method, Except.ok.injEq]
  unfold LimitsOf at hlimits
  cases hmethod : r.config.method with
  | percentage =>
    rw [hmethod] at hlimits
    obtain ⟨hamount, ⟨rate, hrate, hsome⟩, -, hcap⟩ := hlimits
    rw [or_iff_right (by decide)]
    constructor
    · intro hcarries
      by_contra hpresent
      obtain ⟨n, -, hn⟩ := hcarries.maxPerRun (Bool.not_eq_true _ ▸ hpresent)
      rw [hcap] at hn
      cases hn
    · intro hnone
      exact ⟨fun _ => ⟨rate, eq_of_checkRate hrate, hsome⟩,
        fun hpresent => absurd (hamount.symm.trans hpresent) (by decide),
        fun hpresent => absurd (hnone.symm.trans hpresent) (by decide)⟩
  | fixed =>
    rw [hmethod] at hlimits
    obtain ⟨hrate, -, n, hamount, hsome, hcap⟩ := hlimits
    refine iff_of_true ⟨fun hpresent => absurd (hrate.symm.trans hpresent) (by decide), fun _ => ⟨n, ?_, hsome⟩,
      fun hpresent => ?_⟩ (.inl rfl)
    · exact (checkAmount_eq_ok.mp hamount).imp id fun hzero => ⟨hzero.1, hzero.2.2⟩
    · rcases checkCap_eq_ok.mp hcap with ⟨hnone, -⟩ | ⟨m, hvalue, -, hm⟩
      · exact absurd (hnone.symm.trans hpresent) (by decide)
      · exact ⟨m, hvalue, hm⟩

/-- A percentage of 10, of which no more than 1000 base units are withheld. -/
def cappedPercentage : WithholdingConfig Int where
  method := .str "percentage"
  rate := .num (.finite 10)
  maxPerRun := .bigint 1000

/-- What a number of 500 base units is accepted as, with a cap that is a bigint. -/
def acceptedAmount : ValidatedWithholdingConfig Int where
  config := { employeeId := none, method := .fixed, amount := some 500, maxPerRun := some 1000, rounding := .nearest
              jurisdiction := none }
  displayEmployeeId := "[ANONYMOUS_RECIPIENT]"

/-- Base units of two types are carried. -/
theorem amount_and_cap_carried :
    CarriesLimits (fixedConfig (.num (.finite 500)) (.bigint 1000)) defaultOptions acceptedAmount.config ∧
      ∃ again, validateWithholdingConfig acceptedAmount.config.toValue defaultOptions = .ok again ∧
        again.config = acceptedAmount.config := by
  have haccepted : validateWithholdingConfig (fixedConfig (.num (.finite 500)) (.bigint 1000)).toValue defaultOptions =
      .ok acceptedAmount := by rfl
  exact (limits_carried_iff rfl haccepted).mpr (.inl ⟨_, rfl, by rfl⟩)

/-- The cap of a percentage is accepted and lost. -/
theorem percentage_cap_lost : ∃ r, validateWithholdingConfig cappedPercentage.toValue defaultOptions = .ok r ∧
    ¬ CarriesLimits cappedPercentage defaultOptions r.config := by
  refine ⟨⟨⟨none, .percentage, some 10, none, none, .nearest, none⟩, "[ANONYMOUS_RECIPIENT]"⟩, by rfl, ?_⟩
  intro h
  obtain ⟨n, -, hn⟩ := h.maxPerRun rfl
  cases hn

end ZkPayroll.Payroll
