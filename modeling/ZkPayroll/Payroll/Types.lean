import ZkPayroll.Framework.Json

/-!
# Payroll entries and the commitment to them

`computeEntriesCommitment` of `fingerprint/batchFingerprint.ts`: the SHA-256
of the entries' normalised lines, sorted and joined by `|`
(`commitmentPreimage`). Sorting forgets the order of the entries
(`commitmentPreimage_perm`).

The entries of a payroll (`types/index.ts`) and what resume tokens read of
them, and the functions of the JavaScript platform that are parameters of the
model (`Host`).
-/

namespace ZkPayroll.Fingerprint

open Framework

/-- An amount: a `bigint` or an integral `number`, or a string. -/
inductive Amount where
  | integer (n : Int)
  | text (s : String)
  deriving DecidableEq

/-- `BatchEntryInput`. -/
structure BatchEntryInput where
  recipient : String
  amount : Option Amount
  deriving DecidableEq

/-- `String(amount)`. -/
def Amount.toText : Amount → String
  | .integer n => String.ofList (integerText n)
  | .text s => s

/-- What the commitment reads of an entry: `recipient:amount`, where
`toUpperCase` is `String.prototype.toUpperCase`. -/
def entryLine (toUpperCase : String → String) (e : BatchEntryInput) : String :=
  let amt := match e.amount with
    | some amount => amount.toText
    | none => "0"
  toUpperCase (trim e.recipient) ++ ":" ++ amt

/-- What `computeEntriesCommitment` hashes. -/
def commitmentPreimage (toUpperCase : String → String) (entries : List BatchEntryInput) : String :=
  if entries.isEmpty then "empty_batch"
  else "|".intercalate (sortStrings (entries.map (entryLine toUpperCase)))

/-- `computeEntriesCommitment(entries)`. -/
def computeEntriesCommitment (sha256 : String → List UInt8) (toUpperCase : String → String)
    (entries : List BatchEntryInput) : String :=
  String.ofList (hexEncode (sha256 (commitmentPreimage toUpperCase entries)))

/-- Lists with the same lines, in whatever order, have one pre-image. -/
theorem commitmentPreimage_perm {toUpperCase : String → String} {xs ys : List BatchEntryInput}
    (h : (xs.map (entryLine toUpperCase)).Perm (ys.map (entryLine toUpperCase))) :
    commitmentPreimage toUpperCase xs = commitmentPreimage toUpperCase ys := by
  have hl : xs.isEmpty = ys.isEmpty := by
    have := h.length_eq
    simp only [List.length_map] at this
    cases xs <;> cases ys <;> simp_all
  rw [commitmentPreimage, commitmentPreimage, hl, sortStrings_eq_iff.mpr h]

/-- Where SHA-256 does not collide, the commitment is as good as its
pre-image. -/
theorem computeEntriesCommitment_eq_iff {sha256 : String → List UInt8} (hsha : Function.Injective sha256)
    (toUpperCase : String → String) (xs ys : List BatchEntryInput) :
    computeEntriesCommitment sha256 toUpperCase xs = computeEntriesCommitment sha256 toUpperCase ys ↔
      commitmentPreimage toUpperCase xs = commitmentPreimage toUpperCase ys := by
  constructor
  · intro h
    exact hsha (hexEncode_injective (String.ofList_injective h))
  · intro h
    rw [computeEntriesCommitment, h, computeEntriesCommitment]

end ZkPayroll.Fingerprint

namespace ZkPayroll.Payroll

open Fingerprint

/-- SHA-256, of the UTF-8 of a string, and `String.prototype.toUpperCase`. -/
structure Host where
  sha256 : String → List UInt8
  toUpperCase : String → String

/-- What a resume token reads of an entry: its `recipient`, where that is a
string, and its `amount`. -/
class PayrollEntry (T : Type) where
  recipient : T → Option String
  amount : T → Option Amount

/-- `PaymentParams`. -/
structure PaymentParams where
  recipient : String
  amount : Int
  asset : String
  idempotencyKey : Option String := none
  deriving DecidableEq

instance : PayrollEntry PaymentParams where
  recipient p := some p.recipient
  amount p := some (.integer p.amount)

/-- `PaymentResult`. -/
structure PaymentResult where
  txHash : String
  publicSignals : List String
  deriving DecidableEq

end ZkPayroll.Payroll
