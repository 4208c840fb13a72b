import ZkPayroll.Assets.AmountRounding

/-!
# Parsing payroll amounts

`parsePayrollAmount` of `assets/amountParsing.ts`, which rounds on the digits of
the text: the digits that are too many are cut off, the first of them tells
whether the others are raised by one, and a carry goes to the digits before the
point.
-/

namespace ZkPayroll.Assets

open Framework ZkPayroll.Core Treasury

variable {ν : Type}

/-! ## Errors -/

inductive AmountParseErrorCode where
  | EMPTY_INPUT
  | INVALID_FORMAT
  | NEGATIVE_VALUE
  | ZERO_VALUE
  | BELOW_MINIMUM
  | EXCEEDS_MAXIMUM
  | EXCESS_PRECISION
  | OVERFLOW
  deriving DecidableEq

structure AmountParseError where
  message : String
  code : AmountParseErrorCode
  /-- The fields of the context, of which some may be `undefined`. -/
  context : List (String × Option String)
  deriving DecidableEq

/-- What `parsePayrollAmount` throws. -/
inductive ParseFailure where
  | amount (e : AmountParseError)
  | other (e : SdkError)
  deriving DecidableEq

/-! ## Options and results -/

structure AmountBounds where
  min : Option Int := none
  max : Option Int := none

structure ParsePayrollAmountOptions where
  bounds : Option AmountBounds := none
  rounding : Option RoundingMode := none

structure ParsedPayrollAmount (ν : Type) where
  amount : Int
  decimals : JsNumber ν
  wasRounded : Bool

/-! ## Texts -/

/-- `s.padStart(n, "0")`. -/
def padStart (n : Nat) (cs : List Char) : List Char := List.replicate (n - cs.length) '0' ++ cs

/-- `s.padEnd(n, "0")`. -/
def padEnd (n : Nat) (cs : List Char) : List Char := cs ++ List.replicate (n - cs.length) '0'

/-- `s.slice(-n)`; as `-0` is `0`, the text is kept where `n` is zero. -/
def sliceLast (n : Nat) (cs : List Char) : List Char := if n = 0 then cs else cs.drop (cs.length - n)

/-- `parseInt(c, 10)` of a digit. -/
def parseDigit (c : Char) : Nat := c.toNat - '0'.toNat

/-- `s.replace(/0+$/, "")`. -/
def dropTrailingZeros (cs : List Char) : List Char := (cs.reverse.dropWhile (· = '0')).reverse

def sanitizeInput (canonicalize : Char → Char) (input symbol : String) : List Char :=
  let plain := removeFirst canonicalize symbol.toList input.toList
  trimChars (plain.filter fun c => !(isCurrencySign c || c = ','))

/-- `/^(\d*\.?\d+|\d+\.?\d*)$/`. -/
def isPlainNumeral (cs : List Char) : Bool :=
  match cs.dropWhile Char.isDigit with
  | [] => !cs.isEmpty
  | '.' :: frac => frac.all Char.isDigit && (!(cs.takeWhile Char.isDigit).isEmpty || !frac.isEmpty)
  | _ => false

/-- `/^-?(\d*\.?\d+|\d+\.?\d*)$/`. -/
def matchesNumericPattern : List Char → Bool
  | [] => false
  | c :: cs => if c = '-' then isPlainNumeral cs else isPlainNumeral (c :: cs)

/-- The digits before the point and those after it. -/
def splitParts (cleaned : List Char) : List Char × List Char :=
  match cleaned.idxOf? '.' with
  | none => (cleaned, [])
  | some dotIndex =>
    (if cleaned.take dotIndex = [] then ['0'] else cleaned.take dotIndex, cleaned.drop (dotIndex + 1))

def isEffectivelyZero (wholePart fracPart : List Char) : Bool :=
  (wholePart = ['0'] || wholePart = []) && fracPart.all (· = '0')

/-! ## Rounding -/

def applyRounding (excessDigit : Nat) (currentFrac : List Char) (decimals : Nat) (mode : RoundingMode) :
    Except SdkError Int := do
  let fracBigInt ← toBigInt (padEnd decimals currentFrac)
  match mode with
  | .truncate => return fracBigInt
  | .halfUp => return if excessDigit ≥ 5 then fracBigInt + 1 else fracBigInt
  | .ceil => return if excessDigit > 0 then fracBigInt + 1 else fracBigInt
  | .floor => return fracBigInt

/-- The parts of the amount, and whether digits were cut off. -/
def fitPrecision (rounding : RoundingMode) (decimals : Nat) (scale : Int) (wholePart fracPart : List Char) :
    Except SdkError (List Char × List Char × Bool) :=
  if h : decimals < fracPart.length then do
    let excessDigit := parseDigit fracPart[decimals]
    let adjustedFrac ← applyRounding excessDigit (fracPart.take decimals) decimals rounding
    if adjustedFrac ≥ scale then
      let whole ← toBigInt (if wholePart = [] then ['0'] else wholePart)
      return (integerText (whole + 1), sliceLast decimals (padStart decimals (integerText adjustedFrac)), true)
    else return (wholePart, padStart decimals (integerText adjustedFrac), true)
  else .ok (wholePart, padEnd decimals fracPart, false)

/-! ## Bounds -/

def formatDebugAmount (rawAmount scale : Int) (decimals : Nat) (symbol : String) : String :=
  let whole := rawAmount.tdiv scale
  let frac := rawAmount.tmod scale
  let fracStr := String.ofList (dropTrailingZeros (padStart decimals (integerText frac)))
  if fracStr.length = 0 then s!"{whole} {symbol}" else s!"{whole}.{fracStr} {symbol}"

variable (input symbol : String)

/-- The context of an amount that is out of bounds. -/
def boundsContext (finalAmount : Int) (bounds : AmountBounds) : List (String × Option String) :=
  [("input", some input), ("assetSymbol", some symbol), ("parsedAmount", some (toString finalAmount)),
    ("min", bounds.min.map toString), ("max", bounds.max.map toString)]

section Bounds

variable (input symbol : String) (decimals : Nat) (scale finalAmount : Int) (bounds : AmountBounds)

def checkMinimum : Except ParseFailure Unit :=
  match bounds.min with
  | none => .ok ()
  | some min =>
    let amount := formatDebugAmount finalAmount scale decimals symbol
    let minimum := formatDebugAmount min scale decimals symbol
    throwIf (finalAmount < min) (.amount {
      message := s!"Amount {amount} is below the minimum of {minimum}"
      code := .BELOW_MINIMUM
      context := boundsContext input symbol finalAmount bounds })

def checkMaximum : Except ParseFailure Unit :=
  match bounds.max with
  | none => .ok ()
  | some max =>
    let amount := formatDebugAmount finalAmount scale decimals symbol
    let maximum := formatDebugAmount max scale decimals symbol
    throwIf (finalAmount > max) (.amount {
      message := s!"Amount {amount} exceeds the maximum of {maximum}"
      code := .EXCEEDS_MAXIMUM
      context := boundsContext input symbol finalAmount bounds })

def checkBounds : Except ParseFailure Unit := do
  checkMinimum input symbol decimals scale finalAmount bounds
  checkMaximum input symbol decimals scale finalAmount bounds

end Bounds

/-! ## Parsing -/

/-- `Number.MAX_SAFE_INTEGER`. -/
def maxSafeInteger : Int := 9007199254740991

/-- The amount of the parts, with the whole part checked. -/
def combineParts (scale : Int) (wholePart fracPart : List Char) : Except ParseFailure Int := do
  let wholeBigInt ← (toBigInt wholePart).mapError .other
  let fracBigInt ← (toBigInt fracPart).mapError .other
  throwIf (wholeBigInt > maxSafeInteger) (.amount {
    message := s!"Amount exceeds safe integer range for asset {symbol}: \"{input}\""
    code := .OVERFLOW
    context :=
      [("input", some input), ("assetSymbol", some symbol), ("wholePart", some (String.ofList wholePart))] })
  return wholeBigInt * scale + fracBigInt

/-- The checks of the cleaned text, up to the one for zero. -/
def checkText (cleaned : List Char) : Except ParseFailure (List Char × List Char) := do
  throwIf (cleaned.length = 0) (.amount {
    message := s!"Amount input is empty after sanitization: \"{input}\""
    code := .EMPTY_INPUT
    context := [("input", some input), ("assetSymbol", some symbol)] })
  throwIf (matchesNumericPattern cleaned = false) (.amount {
    message := s!"Amount input contains non-numeric characters: \"{input}\""
    code := .INVALID_FORMAT
    context := [("input", some input), ("cleaned", some (String.ofList cleaned)), ("assetSymbol", some symbol)] })
  throwIf (cleaned.head? = some '-') (.amount {
    message := s!"Amount cannot be negative: \"{input}\""
    code := .NEGATIVE_VALUE
    context := [("input", some input), ("assetSymbol", some symbol)] })
  let (wholePart, fracPart) := splitParts cleaned
  throwIf (isEffectivelyZero wholePart fracPart = true) (.amount {
    message := s!"Amount cannot be zero: \"{input}\""
    code := .ZERO_VALUE
    context := [("input", some input), ("assetSymbol", some symbol)] })
  return (wholePart, fracPart)

/-- The amount of checked parts, and whether digits were cut off. -/
def scaleParts (options : ParsePayrollAmountOptions) (decimals : Nat) (scale : Int)
    (parts : List Char × List Char) : Except ParseFailure (Int × Bool) := do
  let rounding := options.rounding.getD .halfUp
  let (wholePart, fracPart, wasRounded) ←
    (fitPrecision rounding decimals scale parts.1 parts.2).mapError ParseFailure.other
  let finalAmount ← combineParts input symbol scale wholePart fracPart
  checkBounds input symbol decimals scale finalAmount (options.bounds.getD {})
  return (finalAmount, wasRounded)

section Parse

variable [NumberFormat ν] [CommRing ν] [LinearOrder ν] [FloorRing ν]

def parsePayrollAmount (canonicalize : Char → Char) (input : String) (metadata : AmountMetadata ν)
    (options : ParsePayrollAmountOptions) : Method ParseFailure (ScaleCache ν) (ParsedPayrollAmount ν) := do
  let parts ← checkText input metadata.symbol (sanitizeInput canonicalize input metadata.symbol)
  -- no text is padded to an infinite length
  if metadata.decimals.eq .infinity then
    throw (ParseFailure.other { genericError "Invalid string length" with name := "RangeError" })
  else
    -- decimals that are no natural number are thrown at here, where the code has done nothing to be undone
    let scale ← cachedScale ParseFailure.other metadata.decimals
    let decimals := (metadata.decimals.toInteger.getD 0).toNat
    let (amount, wasRounded) ← scaleParts input metadata.symbol options decimals scale parts
    return { amount := amount, decimals := metadata.decimals, wasRounded := wasRounded }

end Parse

end ZkPayroll.Assets
