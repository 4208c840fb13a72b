import Mathlib.Algebra.Order.Floor.Defs
import Mathlib.Algebra.Order.Ring.Defs
import ZkPayroll.Framework.JsValue

/-!
# Arithmetic of numbers in memory

Sums, differences and comparisons of JavaScript numbers, which may be `NaN` or
infinite. Finite numbers are those of an ordered ring; they are not rounded.
-/

namespace ZkPayroll.Framework

variable {ν : Type}

namespace JsNumber

/-- `a < b`. -/
def lt [LE ν] [DecidableLE ν] (a b : JsNumber ν) : Bool := le a b && !le b a

def isNaN : JsNumber ν → Bool
  | .nan => true
  | _ => false

/-- `a + b`. -/
def add [Add ν] : JsNumber ν → JsNumber ν → JsNumber ν
  | .nan, _ | _, .nan | .infinity, .negInfinity | .negInfinity, .infinity => .nan
  | .infinity, _ | _, .infinity => .infinity
  | .negInfinity, _ | _, .negInfinity => .negInfinity
  | .finite a, .finite b => .finite (a + b)

/-- `a === b`. -/
def eq [DecidableEq ν] (a b : JsNumber ν) : Bool := !a.isNaN && decide (a = b)

/-- `-a`. -/
def neg [Neg ν] : JsNumber ν → JsNumber ν
  | .nan => .nan
  | .infinity => .negInfinity
  | .negInfinity => .infinity
  | .finite a => .finite (-a)

/-- `a - b`. -/
def sub [Add ν] [Neg ν] (a b : JsNumber ν) : JsNumber ν := add a (neg b)

/-- `a * k` for a positive number `k`. -/
def scale [Mul ν] (k : ν) : JsNumber ν → JsNumber ν
  | .finite a => .finite (a * k)
  | a => a

/-- `Math.max(a, b)`. -/
def max [LE ν] [DecidableLE ν] (a b : JsNumber ν) : JsNumber ν :=
  if a.isNaN || b.isNaN then .nan else if le a b then b else a

/-- `Math.min(a, b)`. -/
def min [LE ν] [DecidableLE ν] (a b : JsNumber ν) : JsNumber ν :=
  if a.isNaN || b.isNaN then .nan else if le a b then a else b

section Integers

variable [Ring ν] [LinearOrder ν] [FloorRing ν]

/-- `Math.floor(a)`. -/
def floor : JsNumber ν → JsNumber ν
  | .finite a => .finite (⌊a⌋ : ν)
  | a => a

/-- The integer that the number is, if `Number.isInteger(a)`. -/
def toInteger : JsNumber ν → Option Int
  | .finite a => if (⌊a⌋ : ν) = a then some ⌊a⌋ else none
  | _ => none

end Integers

theorem add_nan [Add ν] (a : JsNumber ν) : add a .nan = .nan := by
  cases a <;> rfl

variable [LinearOrder ν]
variable {a b : JsNumber ν}

/-- Numbers of which neither is `NaN` are compared one way or the other. -/
theorem le_of_not_lt (ha : a.isNaN = false) (hb : b.isNaN = false) (h : lt b a = false) :
    le a b = true := by
  cases a with
  | nan => cases ha
  | infinity =>
    cases b with
    | nan => cases hb
    | infinity => rfl
    | negInfinity => cases h
    | finite b => cases h
  | negInfinity =>
    cases b with
    | nan => cases hb
    | infinity => rfl
    | negInfinity => rfl
    | finite b => rfl
  | finite a =>
    cases b with
    | nan => cases hb
    | infinity => rfl
    | negInfinity => cases h
    | finite b =>
      simp only [lt, le, Bool.and_eq_false_iff, decide_eq_false_iff_not, Bool.not_eq_false', decide_eq_true_eq,
        not_le] at h ⊢
      exact h.elim le_of_lt id

/-- `NaN` is not compared. -/
theorem not_isNaN_of_le (h : le a b = true) : a.isNaN = false ∧ b.isNaN = false := by
  cases a with
  | nan => cases h
  | _ =>
    cases b with
    | nan => cases h
    | _ => exact ⟨rfl, rfl⟩

/-- Of two numbers that are not `NaN`, one that is not at most the other is above it. -/
theorem lt_of_not_le (ha : a.isNaN = false) (hb : b.isNaN = false) (h : le b a = false) :
    lt a b = true := by
  have hle : le a b = true := le_of_not_lt ha hb (by rw [lt, h, Bool.false_and])
  rw [lt, hle, h]
  rfl

theorem lt_eq_not_le (ha : a.isNaN = false) (hb : b.isNaN = false) : lt a b = !le b a := by
  cases hle : le b a with
  | true => rw [lt, hle, Bool.not_true, Bool.and_false]
  | false => rw [lt_of_not_le ha hb hle, Bool.not_false]

theorem le_refl {a : JsNumber ν} (ha : a.isNaN = false) : le a a = true := by
  cases a with
  | nan => cases ha
  | infinity => rfl
  | negInfinity => rfl
  | finite n => exact decide_eq_true le_rfl

theorem lt_self (a : JsNumber ν) : lt a a = false := by
  rw [lt, Bool.and_not_self]

theorem le_trans {a b c : JsNumber ν} (hab : le a b = true) (hbc : le b c = true) : le a c = true := by
  cases a with
  | nan => cases hab
  | negInfinity =>
    cases c with
    | nan => cases b <;> cases hbc
    | _ => rfl
  | infinity =>
    cases b with
    | infinity => exact hbc
    | _ => cases hab
  | finite a =>
    cases b with
    | nan => cases hab
    | negInfinity => cases hab
    | infinity =>
      cases c with
      | infinity => rfl
      | _ => cases hbc
    | finite b =>
      cases c with
      | nan => cases hbc
      | negInfinity => cases hbc
      | infinity => rfl
      | finite c => exact decide_eq_true ((of_decide_eq_true hab).trans (of_decide_eq_true hbc))

theorem le_antisymm (hab : le a b = true) (hba : le b a = true) : a = b := by
  cases a with
  | nan => cases hab
  | infinity =>
    cases b with
    | infinity => rfl
    | _ => cases hab
  | negInfinity =>
    cases b with
    | negInfinity => rfl
    | _ => cases hba
  | finite a =>
    cases b with
    | finite b => rw [(of_decide_eq_true hab).antisymm (of_decide_eq_true hba)]
    | nan => cases hab
    | infinity => cases hba
    | negInfinity => cases hab

/-! ### Numbers that are compared one after the other -/

/-- The numbers of `as` come before those of `bs`: the first that are not equal
decide. -/
def lexLess : List (JsNumber ν) → List (JsNumber ν) → Bool
  | a :: as, b :: bs => lt a b || (eq a b && lexLess as bs)
  | _, _ => false

theorem lexLess_self : ∀ as : List (JsNumber ν), lexLess as as = false
  | [] => rfl
  | a :: as => by rw [lexLess, lt_self, lexLess_self as, Bool.and_false, Bool.or_self]

/-- What does not come before numbers that do not come before others does not
come before these, if the numbers in the middle are not `NaN`. -/
theorem lexLess_eq_false_trans : ∀ {as bs cs : List (JsNumber ν)}, as.length = bs.length → bs.length = cs.length →
    (∀ b ∈ bs, b.isNaN = false) → lexLess bs as = false → lexLess cs bs = false → lexLess cs as = false
  | [], [], [], _, _, _, _, _ => rfl
  | a :: as, b :: bs, c :: cs, hlen, hlen', hnan, hba, hcb => by
    rw [lexLess, Bool.or_eq_false_iff] at hba hcb
    rw [lexLess, Bool.or_eq_false_iff]
    have hb := hnan b List.mem_cons_self
    have hle (ha : a.isNaN = false) (hc : c.isNaN = false) : le a b = true ∧ le b c = true :=
      ⟨le_of_not_lt ha hb hba.1, le_of_not_lt hb hc hcb.1⟩
    constructor
    · by_contra hlt
      rw [Bool.not_eq_false, lt, Bool.and_eq_true] at hlt
      obtain ⟨hc, ha⟩ := not_isNaN_of_le hlt.1
      obtain ⟨hab, hbc⟩ := hle ha hc
      rw [le_trans hab hbc] at hlt
      exact absurd hlt.2 (by decide)
    · by_contra hless
      rw [Bool.not_eq_false, Bool.and_eq_true, eq, Bool.and_eq_true, decide_eq_true_eq, Bool.not_eq_true'] at hless
      obtain ⟨⟨hc, rfl⟩, hless⟩ := hless
      obtain ⟨hab, hbc⟩ := hle hc hc
      obtain rfl := le_antisymm hab hbc
      have heq : eq c c = true := by simp [eq, hc]
      rw [heq, Bool.true_and] at hba hcb
      have hrest := lexLess_eq_false_trans (Nat.succ.inj hlen) (Nat.succ.inj hlen')
        (fun b hb => hnan b (List.mem_cons_of_mem _ hb)) hba.2 hcb.2
      rw [hrest] at hless
      cases hless

/-- The sum of a number with one between two finite numbers. -/
theorem isNaN_add_of_between [Add ν] {low high : ν} (ha : a.isNaN = false)
    (hlow : lt b (.finite low) = false) (hhigh : lt (.finite high) b = false) (hb : b.isNaN = false) :
    (add a b).isNaN = false := by
  cases b with
  | nan => cases hb
  | infinity => cases hhigh
  | negInfinity => cases hlow
  | finite n =>
    cases a with
    | nan => cases ha
    | _ => rfl

end JsNumber

end ZkPayroll.Framework
