import ZkPayroll.Assets.AssetRegistry
import ZkPayroll.Assets.ParsedPayrollAmounts

/-!
# Minimum amounts of payments

`validatePayrollEntryMinimumAmount` and `isPayrollAmountBelowMinimum` of
`payroll/minimumAmount.ts`. An amount is a bigint of base units, or a number or
a text of units of the asset, of which the digits that are too many are cut off;
decimals are integers, and a number is the decimal that it is written as.

`exactUnits` is the amount in base units as it was given, and
`classifies_exactly_iff` says when the validator classifies by it: a negative
number or text has no base units and so is of an invalid format, a number that
is written with an exponent is too, less than one base unit is taken for zero,
and the decimals of an entry count only beside the identifier of an asset that
is not registered.
-/

namespace ZkPayroll.Payroll

open Framework ZkPayroll.Core Assets

variable {μ : Type}

/-! ## Data -/

inductive MinimumAmountStatus where
  | valid
  | below_minimum
  | zero_amount
  | negative_amount
  | invalid_amount
  deriving DecidableEq

/-- An amount in any of the types that are taken. -/
inductive PayrollAmount where
  | bigint (n : Int)
  | text (s : String)
  | number (n : JsNumber ShortDecimal)

/-- The asset of an entry: metadata, or a name. -/
inductive EntryAsset (μ : Type) where
  | metadata (asset : AssetMetadata μ)
  | identifier (s : String)

structure PayrollEntryAmountInput (μ : Type) where
  employeeId : Option String := none
  amount : PayrollAmount
  asset : Option (EntryAsset μ) := none
  decimals : Option Int := none
  customMinAmount : Option Int := none

structure ValidateMinimumAmountOptions (μ : Type) where
  customMinAmount : Option Int := none
  metadata : Option (AssetMetadata μ) := none
  decimals : Option Int := none
  redactEmployeeId : Option Bool := none
  redactAmounts : Option Bool := none
  allowZero : Option Bool := none

structure MinimumAmountValidationIssue where
  status : MinimumAmountStatus
  code : String
  message : String
  redactedMessage : String
  employeeId : Option String
  redactedEmployeeId : String
  amount : Option Int
  minRequired : Int
  minRequiredFormatted : String
  assetSymbol : String

/-- The registry of assets, and the cases of letters. -/
structure AssetHost (μ : Type) where
  registry : AssetRegistry μ
  toLowerCase : String → String
  toUpperCase : String → String

def DEFAULT_ASSET_DECIMALS : Int := 7

/-! ## Assets -/

/-- `redactEmployeeId`, in characters. -/
def redactEmployeeId (id : Option String) : String :=
  let clean := trimChars (id.getD "").toList
  if clean = [] then "[ANONYMOUS_RECIPIENT]"
  else if clean.length ≤ 4 then "[REDACTED_EMPLOYEE]"
  else String.ofList (clean.take 3) ++ "***" ++ String.ofList (clean.drop (clean.length - 3))

/-- `resolveAssetDecimals` of a number, and of an asset with these decimals. -/
def resolveAssetDecimals (decimals : Int) : Except SdkError Int := do
  assertValidDecimals (JsNumber.finite decimals)
  return decimals

def getMinimumFractionalString (decimals : Int) : Except SdkError String := do
  assertValidDecimals (JsNumber.finite decimals)
  if decimals = 0 then return "1"
  else return "0." ++ String.ofList (List.replicate (decimals - 1).toNat '0') ++ "1"

/-- `symbol || "ASSET"`. -/
def symbolOr (symbol : String) : String := if symbol = "" then "ASSET" else symbol

/-- The symbol and the decimals. -/
def resolveAssetInfo (host : AssetHost μ) (entryAsset : Option (EntryAsset μ)) (entryDecimals : Option Int)
    (fallbackMetadata : Option (AssetMetadata μ)) (fallbackDecimals : Option Int) :
    Except SdkError (String × Int) :=
  match entryAsset with
  | some (.metadata asset) => do
    let decimals ← resolveAssetDecimals asset.decimals
    return (symbolOr asset.symbol, decimals)
  | some (.identifier s) =>
    match host.registry.get host.toLowerCase s with
    | some fromRegistry => .ok (fromRegistry.symbol, fromRegistry.decimals)
    | none => do
      let decimals ← match entryDecimals with
        | some decimals => resolveAssetDecimals decimals
        | none => .ok DEFAULT_ASSET_DECIMALS
      return (host.toUpperCase s, decimals)
  | none =>
    match fallbackMetadata with
    | some metadata => do
      let decimals ← resolveAssetDecimals metadata.decimals
      return (symbolOr metadata.symbol, decimals)
    | none => do
      let decimals ← match fallbackDecimals with
        | some decimals => resolveAssetDecimals decimals
        | none => .ok DEFAULT_ASSET_DECIMALS
      return ("ASSET", decimals)

/-! ## Base units -/

/-- The base units, if the amount has any, and the status of an error. -/
abbrev ParsedUnits := Option Int × Option MinimumAmountStatus

/-- `parseToBaseUnits` of a text. `BigInt` reads digits as their value, and none
as zero. -/
def parseTextToBaseUnits (rawAmount : List Char) (decimals : Nat) : ParsedUnits :=
  let trimmed := trimChars rawAmount
  if trimmed = [] then (none, some .invalid_amount)
  else if trimmed.head? = some '-' then (none, some .negative_amount)
  else if matchesDecimal trimmed = false then (none, some .invalid_amount)
  else
    let (wholePart, fracPart) := splitPoint trimmed
    if wholePart = ['0'] ∧ fracPart.all (· = '0') = true then (some 0, some .zero_amount)
    else
      let scale : Nat := 10 ^ decimals
      let paddedFrac := padEnd decimals (fracPart.take decimals)
      (some ((digitsValue wholePart * scale + digitsValue paddedFrac : Nat) : Int), none)

def parseToBaseUnits (rawAmount : PayrollAmount) (decimals : Nat) : ParsedUnits :=
  match rawAmount with
  | .bigint n =>
    if n < 0 then (some n, some .negative_amount)
    else if n = 0 then (some n, some .zero_amount)
    else (some n, none)
  | .number (.finite x) =>
    if x.value < 0 then (none, some .negative_amount)
    else if x.value = 0 then (some 0, some .zero_amount)
    else parseTextToBaseUnits x.text decimals
  | .number _ => (none, some .invalid_amount)
  | .text s => parseTextToBaseUnits s.toList decimals

/-- `String(amount)`. -/
def PayrollAmount.toText : PayrollAmount → String
  | .bigint n => toString n
  | .text s => s
  | .number (.finite x) => String.ofList x.text
  | .number .nan => "NaN"
  | .number .infinity => "Infinity"
  | .number .negInfinity => "-Infinity"

/-! ## Validation -/

/-- The minimum of an entry. -/
def minRequiredOf (entry : PayrollEntryAmountInput μ) (options : ValidateMinimumAmountOptions μ) : Int :=
  entry.customMinAmount.getD (options.customMinAmount.getD 1)

/-- `validatePayrollEntryMinimumAmount`; there is no issue with a valid entry. -/
def validatePayrollEntryMinimumAmount (host : AssetHost μ) (entry : PayrollEntryAmountInput μ)
    (options : ValidateMinimumAmountOptions μ) : Except SdkError (Option MinimumAmountValidationIssue) := do
  let shouldRedactEmp := options.redactEmployeeId.getD true
  let shouldRedactAmount := options.redactAmounts.getD true
  let allowZero := options.allowZero.getD false
  let (symbol, decimals) ← resolveAssetInfo host entry.asset entry.decimals options.metadata options.decimals
  let minRequired := minRequiredOf entry options
  let fractional ← getMinimumFractionalString decimals
  let minRequiredFormatted := s!"{fractional} {symbol}"
  let empDisplay := (entry.employeeId.filter fun id => id ≠ "").getD "anonymous"
  let empRedacted := if shouldRedactEmp then redactEmployeeId entry.employeeId else empDisplay
  let issue (status : MinimumAmountStatus) (code message redactedMessage : String) (amount : Option Int) :
      Option MinimumAmountValidationIssue :=
    some { status, code, message, redactedMessage, employeeId := entry.employeeId
           redactedEmployeeId := empRedacted, amount, minRequired, minRequiredFormatted
           assetSymbol := symbol }
  -- the decimals are valid here, so they are a natural number
  let (units, errorStatus) := parseToBaseUnits entry.amount decimals.toNat
  match units.filter fun _ => errorStatus ≠ some .invalid_amount with
  | none =>
    let rawStr := entry.amount.toText
    let displayedRaw := if shouldRedactAmount then "[REDACTED]" else s!"\"{rawStr}\""
    return issue .invalid_amount "INVALID_PAYROLL_AMOUNT"
      s!"Invalid amount format {displayedRaw} for employee {empDisplay} ({symbol})."
      s!"Invalid amount format for employee {empRedacted} ({symbol})." none
  | some baseUnits =>
    if errorStatus = some .negative_amount ∨ baseUnits < 0 then
      return issue .negative_amount "NEGATIVE_PAYROLL_AMOUNT"
        s!"Negative amount {baseUnits} is not permitted for employee {empDisplay} ({symbol})."
        s!"Negative payroll amount is not permitted for employee {empRedacted} ({symbol})."
        (some baseUnits)
    else if baseUnits = 0 then
      if allowZero then return none
      else
        return issue .zero_amount "ZERO_PAYROLL_AMOUNT"
          s!"Zero payroll amount is not permitted for employee {empDisplay} ({symbol}). Minimum required is {minRequiredFormatted}."
          s!"Zero payroll amount is not permitted for employee {empRedacted} ({symbol}). Minimum required is {minRequiredFormatted}."
          (some 0)
    else if baseUnits < minRequired then
      let actualStr := if shouldRedactAmount then "[REDACTED]" else s!"{baseUnits} base units"
      return issue .below_minimum "AMOUNT_BELOW_MINIMUM"
        s!"Payroll amount {actualStr} for employee {empDisplay} is below the minimum required threshold of {minRequiredFormatted} ({minRequired} base units)."
        s!"Payroll amount for employee {empRedacted} is below the minimum required threshold of {minRequiredFormatted}."
        (some baseUnits)
    else return none

/-- An asset, or its decimals alone. -/
inductive AssetOrDecimals (μ : Type) where
  | asset (metadata : AssetMetadata μ)
  | decimals (n : Int)

/-- The entry that `isPayrollAmountBelowMinimum` validates. -/
def shortcutEntry (amount : PayrollAmount) (assetOrDecimals : Option (AssetOrDecimals μ)) (customMin : Int) :
    PayrollEntryAmountInput μ where
  amount := amount
  asset := match assetOrDecimals with
    | some (.asset metadata) => some (.metadata metadata)
    | _ => none
  decimals := match assetOrDecimals with
    | some (.decimals n) => some n
    | _ => none
  customMinAmount := some customMin

/-- `isPayrollAmountBelowMinimum`, where the minimum is 1 if it is not given. -/
def isPayrollAmountBelowMinimum (host : AssetHost μ) (amount : PayrollAmount)
    (assetOrDecimals : Option (AssetOrDecimals μ)) (customMin : Option Int) : Except SdkError Bool := do
  let issue ← validatePayrollEntryMinimumAmount host
    (shortcutEntry amount assetOrDecimals (customMin.getD 1)) {}
  return issue.isSome

/-! ## The status of an entry -/

/-- The status that the validator gives to parsed units. -/
def statusOfUnits (parsed : ParsedUnits) (minRequired : Int) (allowZero : Bool) : Option MinimumAmountStatus :=
  match parsed.1.filter fun _ => parsed.2 ≠ some .invalid_amount with
  | none => some .invalid_amount
  | some baseUnits =>
    if parsed.2 = some .negative_amount ∨ baseUnits < 0 then some .negative_amount
    else if baseUnits = 0 then (if allowZero then none else some .zero_amount)
    else if baseUnits < minRequired then some .below_minimum
    else none

theorem assertValidDecimals_int {d : Int} :
    assertValidDecimals (JsNumber.finite d) = .ok () ↔ 0 ≤ d ∧ d ≤ 18 := by
  have hinteger : (JsNumber.finite d).toInteger = some d := by
    simp [JsNumber.toInteger]
  rw [assertValidDecimals, hinteger]
  show throwIf (d < 0 ∨ d > 18) _ = .ok () ↔ _
  rw [throwIf_eq_ok]
  omega

variable {host : AssetHost μ}
variable {options : ValidateMinimumAmountOptions μ} {entry : PayrollEntryAmountInput μ}

/-- The validator gives an entry the status of its units, where the decimals of
its asset are valid. -/
theorem validate_status {symbol : String} {decimals : Int}
    (hres : resolveAssetInfo host entry.asset entry.decimals options.metadata options.decimals =
      .ok (symbol, decimals)) (hdec : 0 ≤ decimals ∧ decimals ≤ 18) :
    ∃ issue, validatePayrollEntryMinimumAmount host entry options = .ok issue ∧
      issue.map MinimumAmountValidationIssue.status =
        statusOfUnits (parseToBaseUnits entry.amount decimals.toNat) (minRequiredOf entry options)
          (options.allowZero.getD false) := by
  have hfractional : ∃ text, getMinimumFractionalString decimals = .ok text := by
    rw [getMinimumFractionalString, assertValidDecimals_int.mpr hdec]
    by_cases hzero : decimals = 0
    · exact ⟨"1", by rw [if_pos hzero]; rfl⟩
    · exact ⟨_, by rw [if_neg hzero]; rfl⟩
  obtain ⟨text, htext⟩ := hfractional
  rw [validatePayrollEntryMinimumAmount, hres]
  dsimp only [bind, Except.bind]
  rw [htext]
  dsimp only
  generalize parseToBaseUnits entry.amount decimals.toNat = parsed
  obtain ⟨units, errorStatus⟩ := parsed
  rw [statusOfUnits]
  dsimp only
  cases units.filter fun _ => errorStatus ≠ some .invalid_amount with
  | none => exact ⟨_, rfl, rfl⟩
  | some baseUnits =>
    dsimp only
    repeat' split
    all_goals exact ⟨_, rfl, rfl⟩

/-! ## The amount that was given -/

/-- The number of a decimal text with a minus sign or without one. -/
def textValue : List Char → Option ℚ
  | '-' :: rest =>
    if matchesDecimal rest then some (-decimalOf (splitPoint rest).1 (splitPoint rest).2) else none
  | cs => if matchesDecimal cs then some (decimalOf (splitPoint cs).1 (splitPoint cs).2) else none

/-- The amount in base units, with nothing cut off, if it is a number at all. -/
def exactUnits (decimals : Int) : PayrollAmount → Option ℚ
  | .bigint n => some n
  | .number (.finite x) => some (x.value * 10 ^ decimals)
  | .number _ => none
  | .text s => (textValue (trimChars s.toList)).map fun v => v * 10 ^ decimals

/-- The status of exact units; none, where they are valid. -/
def exactStatus (units : ℚ) (minRequired : Int) (allowZero : Bool) : Option MinimumAmountStatus :=
  if units < 0 then some .negative_amount
  else if units = 0 then (if allowZero then none else some .zero_amount)
  else if units < minRequired then some .below_minimum
  else none

/-- The entry, whose asset has these decimals, is classified by its exact
amount. The decimals are those of the entry, if it has any. -/
def ClassifiesExactly (host : AssetHost μ) (entry : PayrollEntryAmountInput μ)
    (options : ValidateMinimumAmountOptions μ) (decimals : Int) : Prop :=
  ∀ units, exactUnits (entry.decimals.getD decimals) entry.amount = some units →
    ∃ issue, validatePayrollEntryMinimumAmount host entry options = .ok issue ∧
      issue.map MinimumAmountValidationIssue.status =
        exactStatus units (minRequiredOf entry options) (options.allowZero.getD false)

/-- The status says that the amount is too small. -/
def TooSmall (status : MinimumAmountStatus) : Prop :=
  status = .negative_amount ∨ status = .zero_amount ∨ status = .below_minimum

/-- `isPayrollAmountBelowMinimum` is true just when the validator rejects the
amount for being too small. -/
def ShortcutAgrees (host : AssetHost μ) (amount : PayrollAmount)
    (assetOrDecimals : Option (AssetOrDecimals μ)) (customMin : Option Int) : Prop :=
  isPayrollAmountBelowMinimum host amount assetOrDecimals customMin = .ok true ↔
    ∃ issue, validatePayrollEntryMinimumAmount host
        (shortcutEntry amount assetOrDecimals (customMin.getD 1)) {} = .ok (some issue) ∧
      TooSmall issue.status

/-! ## When it is classified by -/

/-- The value comes to a base unit at least, and the decimals of the asset put it
on the same side of the minimum as those that were set. Less than a base unit is
taken for zero, which is right where zero is allowed and the value not too
small. -/
def SameSide (value : ℚ) (decimals setting minRequired : Int) (allowZero : Bool) : Prop :=
  1 ≤ value * 10 ^ decimals ∧ (value * 10 ^ decimals < minRequired ↔ value * 10 ^ setting < minRequired) ∨
    value * 10 ^ decimals < 1 ∧ allowZero = true ∧ minRequired ≤ value * 10 ^ setting

/-- The number is written without an exponent. -/
def WrittenPlain (x : ShortDecimal) : Prop := 1 / 10 ^ 6 ≤ x.value ∧ x.value < 10 ^ 21

/-- An amount that the validator classifies by its exact value. -/
def ClassifiedByUnits (decimals setting minRequired : Int) (allowZero : Bool) : PayrollAmount → Prop
  | .bigint _ => True
  | .number (.finite x) =>
    0 ≤ x.value ∧ (0 < x.value → WrittenPlain x ∧ SameSide x.value decimals setting minRequired allowZero)
  | .number _ => True
  | .text s => ∀ value, textValue (trimChars s.toList) = some value →
    (trimChars s.toList).head? ≠ some '-' ∧
      (0 < value → SameSide value decimals setting minRequired allowZero)

/-- An amount of which the validator does not say that its format is invalid. -/
def WellFormedAmount : PayrollAmount → Prop
  | .bigint _ => True
  | .number (.finite x) => 0 ≤ x.value ∧ (0 < x.value → WrittenPlain x)
  | .number _ => False
  | .text s => matchesDecimal (trimChars s.toList) = true

/-! ## Texts -/

/-- The status of units that were rounded down. -/
def keptStatus (units : Int) (minRequired : Int) (allowZero : Bool) : Option MinimumAmountStatus :=
  if units = 0 then (if allowZero then none else some .zero_amount)
  else if units < minRequired then some .below_minimum
  else none

theorem statusOfUnits_some {units minRequired : Int} {allowZero : Bool} {errorStatus : Option MinimumAmountStatus}
    (h : errorStatus ≠ some .invalid_amount) :
    statusOfUnits (some units, errorStatus) minRequired allowZero =
      if errorStatus = some .negative_amount ∨ units < 0 then some .negative_amount
      else keptStatus units minRequired allowZero := by
  rw [statusOfUnits, Option.filter_some, if_pos (decide_eq_true h), keptStatus]

theorem statusOfUnits_ne_valid (parsed : ParsedUnits) (minRequired : Int) (allowZero : Bool) :
    statusOfUnits parsed minRequired allowZero ≠ some .valid := by
  unfold statusOfUnits
  repeat' split
  all_goals simp

section Texts

variable {cs whole frac : List Char} {d : Nat} {minRequired : Int} {allowZero : Bool}

/-- A decimal text has no sign. -/
theorem head?_of_parts (h : DecimalParts cs whole frac) : cs ≠ [] ∧ cs.head? ≠ some '-' := by
  obtain ⟨hne, hall⟩ := isDigits_iff.mp h.digits
  obtain ⟨c, rest, rfl⟩ := List.exists_cons_of_ne_nil hne
  have hc := (ne_sign_of_isDigit (hall c List.mem_cons_self)).2
  rcases h.text with ⟨rfl, -⟩ | ⟨rfl, -⟩
  · exact ⟨hne, by simpa using hc⟩
  · exact ⟨by simp, by simpa using hc⟩

theorem fitFraction_eq_padEnd (d : Nat) (frac : List Char) : padEnd d (frac.take d) = fitFraction d frac := by
  unfold padEnd fitFraction
  split
  · rename_i h
    rw [List.length_take, Nat.min_eq_left h.le, Nat.sub_self, List.replicate_zero, List.append_nil]
  · rename_i h
    rw [List.take_of_length_le (by omega)]

/-- A decimal text has the status of the units that it keeps. -/
theorem status_of_parts (h : DecimalParts (trimChars cs) whole frac) :
    statusOfUnits (parseTextToBaseUnits cs d) minRequired allowZero =
      keptStatus (keptUnits d whole frac) minRequired allowZero := by
  obtain ⟨hne, hhead⟩ := head?_of_parts h
  have hmatch : matchesDecimal (trimChars cs) = true := matchesDecimal_iff.mpr ⟨whole, frac, h⟩
  simp only [parseTextToBaseUnits, if_neg hne, if_neg hhead, hmatch, splitPoint_of_parts h,
    fitFraction_eq_padEnd, Bool.true_eq_false, if_false]
  split
  · rename_i hzero
    obtain ⟨rfl, hzeros⟩ := hzero
    have hfit : digitsValue (fitFraction d frac) = 0 := by
      have hfrac : frac = List.replicate frac.length '0' := List.eq_replicate_of_mem fun c hc =>
        of_decide_eq_true (List.all_eq_true.mp hzeros c hc)
      rw [hfrac]
      unfold fitFraction
      split
      · rw [List.take_replicate, digitsValue_zeros]
      · rw [List.replicate_append_replicate, digitsValue_zeros]
    have hdigit : digitsValue ['0'] = 0 := rfl
    rw [statusOfUnits_some (by decide), if_neg (by decide), keptUnits, hfit, hdigit, Nat.zero_mul]
    rfl
  · have hnonneg : ¬ ((digitsValue whole * 10 ^ d + digitsValue (fitFraction d frac) : Nat) : Int) < 0 :=
      not_lt.mpr (Int.natCast_nonneg _)
    rw [statusOfUnits_some (by decide), if_neg (not_or.mpr ⟨by decide, hnonneg⟩), keptUnits]

/-- Any other text is of an invalid format, one with a sign too. -/
theorem status_of_not_decimal (h : matchesDecimal (trimChars cs) = false) :
    statusOfUnits (parseTextToBaseUnits cs d) minRequired allowZero = some .invalid_amount := by
  simp only [parseTextToBaseUnits, h, if_true]
  split
  · rfl
  · split <;> rfl

theorem keptStatus_ne_invalid (units : Int) : keptStatus units minRequired allowZero ≠ some .invalid_amount := by
  unfold keptStatus
  repeat' split
  all_goals simp

theorem exactStatus_ne_invalid (units : ℚ) : exactStatus units minRequired allowZero ≠ some .invalid_amount := by
  unfold exactStatus
  repeat' split
  all_goals simp

/-- A positive number has the status of its exact units just when it is on the
same side. -/
theorem keptStatus_eq_iff {value : ℚ} (hpos : 0 < value) {setting : Int} :
    keptStatus ⌊value * 10 ^ d⌋ minRequired allowZero = exactStatus (value * 10 ^ setting) minRequired allowZero ↔
      SameSide value d setting minRequired allowZero := by
  have hexact : 0 < value * (10 : ℚ) ^ setting := by positivity
  have hunits : 0 ≤ value * (10 : ℚ) ^ d := by positivity
  have hzero : ⌊value * (10 : ℚ) ^ d⌋ = 0 ↔ value * 10 ^ d < 1 := by
    rw [Int.floor_eq_zero_iff, Set.mem_Ico]
    exact and_iff_right hunits
  rw [keptStatus, exactStatus, if_neg (not_lt.mpr hexact.le), if_neg hexact.ne', SameSide, zpow_natCast]
  simp only [hzero, Int.floor_lt]
  by_cases hone : value * 10 ^ d < 1
  · rw [if_pos hone, or_iff_right fun h => not_lt.mpr h.1 hone, and_iff_right hone, ← not_lt]
    by_cases hset : value * 10 ^ setting < minRequired <;> cases allowZero <;> simp [hset]
  · rw [if_neg hone, or_iff_left fun h => hone h.1, and_iff_right (not_lt.mp hone)]
    by_cases hmin : value * 10 ^ d < minRequired <;> by_cases hset : value * 10 ^ setting < minRequired <;>
      simp [hmin, hset]

end Texts

/-! ## Amounts -/

section Amounts

variable {decimals setting minRequired : Int} {allowZero : Bool}

/-- The status of a bigint is that of its value. -/
theorem status_bigint (n : Int) (d : Nat) :
    statusOfUnits (parseToBaseUnits (.bigint n) d) minRequired allowZero = exactStatus n minRequired allowZero := by
  have hlt : ((n : ℚ) < minRequired) ↔ n < minRequired := Int.cast_lt
  simp only [parseToBaseUnits, exactStatus, Int.cast_lt_zero, Int.cast_eq_zero, hlt]
  rcases lt_trichotomy n 0 with hn | rfl | hn
  · rw [if_pos hn, if_pos hn, statusOfUnits_some (by decide), if_pos (.inl rfl)]
  · rw [if_neg (lt_irrefl 0), if_pos rfl, if_neg (lt_irrefl 0), if_pos rfl, statusOfUnits_some (by decide),
      if_neg (by decide), keptStatus, if_pos rfl]
  · rw [if_neg (not_lt.mpr hn.le), if_neg (not_lt.mpr hn.le), if_neg hn.ne', statusOfUnits_some (by decide),
      if_neg (by simp; omega), keptStatus]

/-- The status of a text of digits, beside that of its exact value. -/
theorem status_text_iff {cs whole frac : List Char} {value : ℚ} (hparts : DecimalParts (trimChars cs) whole frac)
    (hvalue : decimalOf whole frac = value) (hdec : 0 ≤ decimals) :
    statusOfUnits (parseTextToBaseUnits cs decimals.toNat) minRequired allowZero =
        exactStatus (value * 10 ^ setting) minRequired allowZero ↔
      (0 < value → SameSide value decimals setting minRequired allowZero) := by
  rw [status_of_parts hparts, ← floor_units hparts.frac, hvalue]
  rcases (decimalOf_nonneg whole frac).eq_or_lt with hzero | hpos
  · rw [← hvalue, ← hzero]
    simp [keptStatus, exactStatus]
  · rw [hvalue] at hpos
    rw [keptStatus_eq_iff hpos, Int.toNat_of_nonneg hdec]
    exact ⟨fun h _ => h, fun h => h hpos⟩

theorem textValue_of_parts {cs whole frac : List Char} (h : DecimalParts cs whole frac) :
    textValue cs = some (decimalOf whole frac) := by
  have hmatch : matchesDecimal cs = true := matchesDecimal_iff.mpr ⟨whole, frac, h⟩
  rw [textValue.eq_def]
  split
  · exact absurd rfl (head?_of_parts h).2
  · rw [if_pos hmatch, splitPoint_of_parts h]

/-- A text that stands for a number has digits, or a sign before them. -/
theorem head?_of_textValue {cs : List Char} {value : ℚ} (h : textValue cs = some value)
    (hnot : matchesDecimal cs = false) : cs.head? = some '-' := by
  rw [textValue.eq_def] at h
  split at h
  · rfl
  · rw [if_neg (by rw [hnot]; decide)] at h
    cases h

/-- A number that is written plainly is read as its text. -/
theorem parts_of_number {x : ShortDecimal} (hpos : 0 < x.value) (hplain : WrittenPlain x) :
    ∃ whole frac, DecimalParts (trimChars x.text) whole frac ∧ decimalOf whole frac = x.value := by
  have hmantissa : 0 < x.mantissa := x.value_pos_iff.mp hpos
  rw [trimChars_of_no_space x.isSpace_text]
  exact ShortDecimal.text_eq_decimal hmantissa ((ShortDecimal.plain_iff hmantissa).mp hplain)

theorem not_decimal_of_number {x : ShortDecimal} (hpos : 0 < x.value) (hplain : ¬ WrittenPlain x) :
    matchesDecimal (trimChars x.text) = false := by
  have hmantissa : 0 < x.mantissa := x.value_pos_iff.mp hpos
  rw [trimChars_of_no_space x.isSpace_text]
  exact ShortDecimal.text_not_decimal hmantissa fun h => hplain ((ShortDecimal.plain_iff hmantissa).mpr h)

/-- An amount has the status of its exact value just when it is classified by
its units. -/
theorem status_iff (amount : PayrollAmount) (hdec : 0 ≤ decimals) :
    (∀ units, exactUnits setting amount = some units →
        statusOfUnits (parseToBaseUnits amount decimals.toNat) minRequired allowZero =
          exactStatus units minRequired allowZero) ↔
      ClassifiedByUnits decimals setting minRequired allowZero amount := by
  cases amount with
  | bigint n =>
    simp only [exactUnits, Option.some.injEq, forall_eq', ClassifiedByUnits, iff_true]
    exact status_bigint n _
  | text s =>
    simp only [exactUnits, Option.map_eq_some_iff, ClassifiedByUnits, forall_exists_index, and_imp,
      forall_apply_eq_imp_iff₂, parseToBaseUnits]
    refine forall_congr' fun value => forall_congr' fun hvalue => ?_
    by_cases hmatch : matchesDecimal (trimChars s.toList) = true
    · obtain ⟨whole, frac, hparts⟩ := matchesDecimal_iff.mp hmatch
      rw [textValue_of_parts hparts, Option.some.injEq] at hvalue
      rw [status_text_iff hparts hvalue hdec]
      exact (and_iff_right (head?_of_parts hparts).2).symm
    · rw [Bool.not_eq_true] at hmatch
      rw [status_of_not_decimal hmatch]
      exact iff_of_false (exactStatus_ne_invalid _).symm fun h => h.1 (head?_of_textValue hvalue hmatch)
  | number n =>
    cases n with
    | finite x =>
      simp only [exactUnits, Option.some.injEq, forall_eq', ClassifiedByUnits, parseToBaseUnits]
      rcases lt_trichotomy x.value 0 with hneg | hzero | hpos
      · rw [if_pos hneg]
        exact iff_of_false (exactStatus_ne_invalid _).symm fun h => not_lt.mpr h.1 hneg
      · rw [if_neg hzero.not_lt, if_pos hzero, hzero, statusOfUnits_some (by decide), if_neg (by decide)]
        simp [keptStatus, exactStatus]
      · rw [if_neg (not_lt.mpr hpos.le), if_neg hpos.ne', and_iff_right hpos.le]
        by_cases hplain : WrittenPlain x
        · obtain ⟨whole, frac, hparts, hvalue⟩ := parts_of_number hpos hplain
          rw [status_text_iff hparts hvalue hdec]
          exact ⟨fun h hp => ⟨hplain, h hp⟩, fun h hp => (h hp).2⟩
        · rw [status_of_not_decimal (not_decimal_of_number hpos hplain)]
          exact iff_of_false (exactStatus_ne_invalid _).symm fun h => hplain (h hpos).1
    | nan => simp [exactUnits, ClassifiedByUnits]
    | infinity => simp [exactUnits, ClassifiedByUnits]
    | negInfinity => simp [exactUnits, ClassifiedByUnits]

/-- An amount is of an invalid format, to the validator, just when it is not
well formed. -/
theorem status_invalid_iff (amount : PayrollAmount) (d : Nat) :
    statusOfUnits (parseToBaseUnits amount d) minRequired allowZero = some .invalid_amount ↔
      ¬ WellFormedAmount amount := by
  have htext : ∀ cs, statusOfUnits (parseTextToBaseUnits cs d) minRequired allowZero = some .invalid_amount ↔
      matchesDecimal (trimChars cs) = false := by
    intro cs
    refine ⟨fun h => ?_, status_of_not_decimal⟩
    by_contra hmatch
    rw [Bool.not_eq_false] at hmatch
    obtain ⟨whole, frac, hparts⟩ := matchesDecimal_iff.mp hmatch
    rw [status_of_parts hparts] at h
    exact keptStatus_ne_invalid _ h
  cases amount with
  | bigint n =>
    rw [status_bigint]
    exact iff_of_false (exactStatus_ne_invalid _) (not_not.mpr trivial)
  | text s =>
    rw [parseToBaseUnits, htext, WellFormedAmount, Bool.not_eq_true]
  | number n =>
    cases n with
    | finite x =>
      rw [parseToBaseUnits, WellFormedAmount]
      rcases lt_trichotomy x.value 0 with hneg | hzero | hpos
      · rw [if_pos hneg]
        exact iff_of_true rfl fun h => not_lt.mpr h.1 hneg
      · rw [if_neg hzero.not_lt, if_pos hzero, hzero]
        rw [statusOfUnits_some (by decide), if_neg (by decide)]
        exact iff_of_false (keptStatus_ne_invalid _) (by simp)
      · rw [if_neg (not_lt.mpr hpos.le), if_neg hpos.ne', htext]
        by_cases hplain : WrittenPlain x
        · obtain ⟨whole, frac, hparts, -⟩ := parts_of_number hpos hplain
          refine iff_of_false ?_ (not_not.mpr ⟨hpos.le, fun _ => hplain⟩)
          rw [Bool.not_eq_false, matchesDecimal_iff]
          exact ⟨whole, frac, hparts⟩
        · exact iff_of_true (not_decimal_of_number hpos hplain) fun h => hplain (h.2 hpos)
    | nan => exact iff_of_true rfl id
    | infinity => exact iff_of_true rfl id
    | negInfinity => exact iff_of_true rfl id

end Amounts

/-! ## The validator -/

/-- The shortcut says too small of an amount of an invalid format as well. -/
theorem shortcutAgrees_iff {amount : PayrollAmount}
    {assetOrDecimals : Option (AssetOrDecimals μ)} {customMin : Option Int}
    (hset : ∀ asset, assetOrDecimals = some (.asset asset) → 0 ≤ asset.decimals ∧ asset.decimals ≤ 18) :
    ShortcutAgrees host amount assetOrDecimals customMin ↔ WellFormedAmount amount := by
  have hres : ∃ symbol decimals, resolveAssetInfo host
      (shortcutEntry amount assetOrDecimals (customMin.getD 1)).asset
      (shortcutEntry amount assetOrDecimals (customMin.getD 1)).decimals none none = .ok (symbol, decimals) ∧
      0 ≤ decimals ∧ decimals ≤ 18 := by
    rcases assetOrDecimals with _ | asset | n
    · exact ⟨_, _, rfl, by decide⟩
    · have hvalid := hset asset rfl
      refine ⟨symbolOr asset.symbol, asset.decimals, ?_, hvalid⟩
      show (resolveAssetDecimals asset.decimals >>= fun decimals => pure (symbolOr asset.symbol, decimals)) = _
      rw [resolveAssetDecimals, assertValidDecimals_int.mpr hvalid]
      rfl
    · exact ⟨_, _, rfl, by decide⟩
  obtain ⟨symbol, decimals, hres, hdec⟩ := hres
  obtain ⟨issue, hissue, hstatus⟩ : ∃ issue, validatePayrollEntryMinimumAmount host
      (shortcutEntry amount assetOrDecimals (customMin.getD 1)) {} = .ok issue ∧
      issue.map MinimumAmountValidationIssue.status = statusOfUnits (parseToBaseUnits amount decimals.toNat)
        (minRequiredOf (shortcutEntry amount assetOrDecimals (customMin.getD 1)) {}) false := validate_status hres hdec
  have hinvalid : statusOfUnits (parseToBaseUnits amount decimals.toNat)
      (minRequiredOf (shortcutEntry amount assetOrDecimals (customMin.getD 1)) {}) false = some .invalid_amount ↔
        ¬ WellFormedAmount amount := status_invalid_iff amount decimals.toNat
  rw [ShortcutAgrees, isPayrollAmountBelowMinimum, hissue, ← not_iff_not, ← hinvalid]
  show ¬ (Except.ok issue.isSome = Except.ok true ↔ _) ↔ _
  rw [← hstatus]
  cases issue with
  | none => simp
  | some issue =>
    have hvalid : issue.status ≠ .valid := by
      intro heq
      rw [Option.map_some, heq] at hstatus
      exact statusOfUnits_ne_valid _ _ _ hstatus.symm
    simp only [Option.isSome_some, Except.ok.injEq, Option.some.injEq, exists_eq_left', Option.map_some,
      true_iff, TooSmall]
    cases h : issue.status <;> simp_all

theorem classifiesExactly_iff {symbol : String} {decimals : Int}
    (hres : resolveAssetInfo host entry.asset entry.decimals options.metadata options.decimals =
      .ok (symbol, decimals)) (hdec : 0 ≤ decimals ∧ decimals ≤ 18) :
    ClassifiesExactly host entry options decimals ↔
      ClassifiedByUnits decimals (entry.decimals.getD decimals) (minRequiredOf entry options)
        (options.allowZero.getD false) entry.amount := by
  obtain ⟨issue, hissue, hstatus⟩ := validate_status hres hdec
  rw [← status_iff entry.amount hdec.1, ClassifiesExactly, hissue]
  refine forall_congr' fun units => forall_congr' fun _ => ?_
  rw [← hstatus]
  simp only [Except.ok.injEq, exists_eq_left']

/-- The validator classifies an entry by its exact amount just for amounts that
are classified by their units, and the shortcut agrees with it just for those
that are well formed. -/
theorem classifies_exactly_iff {host : AssetHost μ} {entry : PayrollEntryAmountInput μ}
    {options : ValidateMinimumAmountOptions μ} {symbol : String} {decimals : Int}
    (hres : resolveAssetInfo host entry.asset entry.decimals options.metadata options.decimals =
      .ok (symbol, decimals)) (hdec : 0 ≤ decimals ∧ decimals ≤ 18)
    {amount : PayrollAmount} {assetOrDecimals : Option (AssetOrDecimals μ)} {customMin : Option Int}
    (hset : ∀ asset, assetOrDecimals = some (.asset asset) → 0 ≤ asset.decimals ∧ asset.decimals ≤ 18) :
    (ClassifiesExactly host entry options decimals ↔
        ClassifiedByUnits decimals (entry.decimals.getD decimals) (minRequiredOf entry options)
          (options.allowZero.getD false) entry.amount) ∧
      (ShortcutAgrees host amount assetOrDecimals customMin ↔ WellFormedAmount amount) :=
  ⟨classifiesExactly_iff hres hdec, shortcutAgrees_iff hset⟩

/-- No asset is registered. -/
def noAssets : AssetHost Unit where
  registry := {}
  toLowerCase := id
  toUpperCase := id

theorem resolve_noAssets : resolveAssetInfo noAssets none none none none = .ok ("ASSET", 7) := rfl

/-- One and a half units, of which the minimum is one base unit, are classified
by what they come to. -/
theorem one_and_a_half_classified :
    ClassifiesExactly noAssets { amount := .text "1.5" } {} 7 ∧ ShortcutAgrees noAssets (.text "1.5") none none := by
  have hset : ∀ asset : AssetMetadata Unit, none = some (AssetOrDecimals.asset asset) →
      0 ≤ asset.decimals ∧ asset.decimals ≤ 18 := by simp
  obtain ⟨hexact, hshortcut⟩ : (ClassifiesExactly noAssets { amount := .text "1.5" } {} 7 ↔ _) ∧
      (ShortcutAgrees noAssets (.text "1.5") none none ↔ _) :=
    classifies_exactly_iff resolve_noAssets (by decide) hset
  have hmatch : matchesDecimal (trimChars "1.5".toList) = true := by decide
  refine ⟨hexact.mpr ?_, hshortcut.mpr hmatch⟩
  intro value hvalue
  have hparts : DecimalParts "1.5".toList ['1'] ['5'] := ⟨by decide, .inr ⟨by decide, by decide⟩⟩
  rw [trimChars_of_parts hparts, textValue_of_parts hparts, Option.some.injEq] at hvalue
  have hvalue : value = 3 / 2 := by
    have hdigits : digitsValue (['1'] ++ ['5']) = 15 := rfl
    rw [← hvalue, decimalOf, hdigits]
    norm_num
  rw [hvalue]
  refine ⟨by decide, fun _ => .inl ⟨?_, Iff.rfl⟩⟩
  norm_num

/-- Five units less than nothing are said to be of an invalid format. -/
theorem negative_text_invalid :
    ¬ ClassifiesExactly noAssets { amount := .text "-5" } {} 7 ∧ ¬ ShortcutAgrees noAssets (.text "-5") none none := by
  constructor
  · rw [classifiesExactly_iff resolve_noAssets (by decide)]
    exact fun h => (h _ rfl).1 rfl
  · have hmatch : matchesDecimal (trimChars "-5".toList) = false := by decide
    rw [shortcutAgrees_iff (by simp), WellFormedAmount, hmatch]
    exact Bool.false_ne_true

end ZkPayroll.Payroll
