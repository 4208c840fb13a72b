import ZkPayroll.Framework.DecimalText
import ZkPayroll.Treasury.Readiness

/-!
# Amounts that are parsed

`parseAmount` and `getScale` of `assets/formatters.ts`. The map of scales is the
state; every scale in it is the power of ten that its key names. How a regular
expression folds the case of a letter is a parameter (`canonicalize`); a symbol
has no letters that a regular expression reads otherwise.
-/

namespace ZkPayroll.Assets

open Framework ZkPayroll.Core Treasury

variable {ν : Type}

/-- What `parseAmount` reads of the metadata of an asset. -/
structure AmountMetadata (ν : Type) where
  decimals : JsNumber ν
  symbol : String

structure ParseAmountOptions where
  strict : Bool := false

variable [NumberFormat ν] [CommRing ν] [LinearOrder ν] [FloorRing ν]

/-! ## Scales -/

/-- `_scaleCache`. -/
structure ScaleCache (ν : Type) [CommRing ν] [LinearOrder ν] [FloorRing ν] where
  entries : List (JsNumber ν × Int) := []
  scales : ∀ f ∈ entries, ∃ n : Nat, f.1.toInteger = some (n : Int) ∧ f.2 = 10 ^ n

variable (decimals : JsNumber ν)

/-- `BigInt(10) ** BigInt(decimals)`. -/
def powerOfTen : Except SdkError Nat := do
  let n ← orThrow (bigIntError (numberText decimals)) decimals.toInteger
  throwIf (n < 0) { genericError "Exponent must be non-negative" with name := "RangeError" }
  return n.toNat

/-- The decimals are a natural number. -/
def IsDecimals (d : Nat) : Prop := decimals.toInteger = some (d : Int)

omit [NumberFormat ν] in
theorem IsDecimals.unique {decimals : JsNumber ν} {d d' : Nat} (h : IsDecimals decimals d)
    (h' : IsDecimals decimals d') : d = d' := by
  have heq := h.symm.trans h'
  rw [Option.some.injEq] at heq
  omega

theorem powerOfTen_eq_ok {decimals : JsNumber ν} {n : Nat} : powerOfTen decimals = .ok n ↔ IsDecimals decimals n := by
  rw [powerOfTen, orThrow_bind_eq_ok, IsDecimals]
  constructor
  · rintro ⟨m, hm, h⟩
    obtain ⟨hneg, h⟩ := throwIf_bind_eq_ok.mp h
    cases h
    rw [hm, Int.toNat_of_nonneg (by omega)]
  · intro h
    refine ⟨n, h, throwIf_bind_eq_ok.mpr ⟨by omega, ?_⟩⟩
    rw [Int.toNat_natCast]
    rfl

omit [NumberFormat ν] in
/-- `_scaleCache.set(decimals, scale)`. -/
def ScaleCache.set (cache : ScaleCache ν) (decimals : JsNumber ν) (n : Nat) (h : IsDecimals decimals n) :
    ScaleCache ν where
  entries := setKey decimals (10 ^ n) cache.entries
  scales f hf := by
    rcases eq_or_mem_of_mem_setKey hf with rfl | hf
    · exact ⟨n, h, rfl⟩
    · exact cache.scales f hf

/-- The scale of the decimals, and the cache in which it is. -/
def getScale (cache : ScaleCache ν) : Except SdkError Int × ScaleCache ν :=
  match cache.entries.lookup decimals with
  | some scale => (.ok scale, cache)
  | none =>
    match h : powerOfTen decimals with
    | .error e => (.error e, cache)
    | .ok n => (.ok (10 ^ n), cache.set decimals n (powerOfTen_eq_ok.mp h))

/-! ## The cleaned text -/

/-- `s.replace(new RegExp(symbol, "i"), "")`. -/
def removeFirst (canonicalize : Char → Char) (symbol : List Char) : List Char → List Char
  | [] => []
  | c :: cs =>
    if ((c :: cs).take symbol.length).map canonicalize = symbol.map canonicalize then (c :: cs).drop symbol.length
    else c :: removeFirst canonicalize symbol cs

def isCurrencySign (c : Char) : Bool := c = '$' || c = '€' || c = '£' || c = '¥'

def cleanAmount (canonicalize : Char → Char) (symbol input : String) : List Char :=
  let plain := removeFirst canonicalize symbol.toList input.toList
  trimChars ((plain.filter fun c => !isCurrencySign c).filter (· ≠ ','))

/-! ## The amount -/

/-- `BigInt(s)` of a text without spaces around it. -/
def toBigInt (cs : List Char) : Except SdkError Int :=
  let text := String.ofList cs
  orThrow { genericError s!"Cannot convert {text} to a BigInt" with name := "SyntaxError" } (bigIntLiteral cs)

/-- The digits after the point, as many as there are decimals. -/
def fitFraction (decimals : Nat) (fracPart : List Char) : List Char :=
  if decimals < fracPart.length then fracPart.take decimals
  else fracPart ++ List.replicate (decimals - fracPart.length) '0'

/-- The amount of a cleaned text that is a number. -/
def parseCleaned (decimals : Nat) (scale : Int) (cleaned : List Char) : Except SdkError Int :=
  match cleaned.idxOf? '.' with
  | none => do
    let whole ← toBigInt cleaned
    return whole * scale
  | some dotIndex => do
    let wholePart := if cleaned.take dotIndex = [] then ['0'] else cleaned.take dotIndex
    let fracPart := fitFraction decimals (cleaned.drop (dotIndex + 1))
    let whole ← toBigInt wholePart
    let frac ← toBigInt fracPart
    return whole * scale + frac

/-- What is thrown where a text is no number. -/
def rejection (input symbol : String) : SdkError :=
  genericError s!"parseAmount: cannot parse \"{input}\" as a numeric amount for asset {symbol}."

/-- `parseAmount`, and the cache of scales after it. -/
def parseAmount (canonicalize : Char → Char) (input : String) (metadata : AmountMetadata ν)
    (options : ParseAmountOptions) (cache : ScaleCache ν) : Except SdkError Int × ScaleCache ν :=
  let cleaned := cleanAmount canonicalize metadata.symbol input
  if cleaned = [] ∨ (readNumber cleaned).isNone then
    if options.strict = false then (.error (rejection input metadata.symbol), cache) else (.ok 0, cache)
  else
    match getScale metadata.decimals cache with
    | (.error e, cache) => (.error e, cache)
    | (.ok scale, cache) =>
      let decimals := (metadata.decimals.toInteger.getD 0).toNat
      (parseCleaned decimals scale cleaned, cache)

/-! ## Scales of decimals -/

/-- The scale is the power of ten, whether it is in the cache or not. -/
theorem getScale_eq (cache : ScaleCache ν) :
    (∃ d cache', IsDecimals decimals d ∧ getScale decimals cache = (.ok (10 ^ d), cache')) ∨
      (∀ d, ¬IsDecimals decimals d) ∧ ∃ e, getScale decimals cache = (.error e, cache) ∧ e.name = "RangeError" := by
  unfold getScale
  cases hlookup : cache.entries.lookup decimals with
  | some scale =>
    obtain ⟨n, hn, hscale⟩ := cache.scales _ (lookup_mem hlookup)
    have hscale : scale = 10 ^ n := hscale
    exact .inl ⟨n, cache, hn, by rw [hscale]⟩
  | none =>
    dsimp only
    split
    · rename_i e hpower
      refine .inr ⟨fun d hd => ?_, e, rfl, ?_⟩
      · rw [powerOfTen_eq_ok.mpr hd] at hpower
        cases hpower
      · unfold powerOfTen at hpower
        cases hn : decimals.toInteger with
        | none =>
          rw [hn] at hpower
          cases hpower
          rfl
        | some n =>
          rw [hn, orThrow_bind_of_some rfl] at hpower
          by_cases hneg : n < 0
          · rw [throwIf_bind_of hneg] at hpower
            cases hpower
            rfl
          · rw [throwIf_bind_of_not hneg] at hpower
            cases hpower
    · rename_i n hpower
      exact .inl ⟨n, _, powerOfTen_eq_ok.mp hpower, rfl⟩

end ZkPayroll.Assets
