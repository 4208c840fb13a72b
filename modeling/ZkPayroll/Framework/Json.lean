import Mathlib.Data.List.Basic
import ZkPayroll.Framework.Text
import ZkPayroll.Framework.Encoding

/-!
# JSON values and `JSON.stringify`

`Json ν` is a JSON value whose numbers are of type `ν`, written and read as
`NumberFormat ν` says; `stringify` is `JSON.stringify(v)`, and
`stringifyWith L` is `JSON.stringify(v, L)` with a list `L` of keys as
replacer. The list acts at every depth: what is written is the value
`restrict L v`, whose objects, however deep, keep only the keys of `L`.
`SameJson` is equality of values up to the order of the keys of their objects.
-/

namespace ZkPayroll.Framework

/-! ## Values -/

/-- A JSON value. The keys of an object are listed in property order. -/
inductive Json (ν : Type) where
  | null
  | bool (b : Bool)
  | num (n : ν)
  | str (s : String)
  | arr (items : List (Json ν))
  | obj (fields : List (String × Json ν))

/-- The characters that a JSON number can contain. -/
def isNumberChar (c : Char) : Bool :=
  c.isDigit || c == '-' || c == '+' || c == '.' || c == 'e' || c == 'E'

/-- How numbers are written in JSON and read from it. What is written starts
with a digit or a minus sign, consists of number characters, and reads back as
the same number. -/
class NumberFormat (ν : Type) where
  toText : ν → List Char
  ofText : List Char → Option ν
  ofText_toText (n : ν) : ofText (toText n) = some n
  toText_head (n : ν) : ∃ c cs, toText n = c :: cs ∧ (c = '-' ∨ c.isDigit = true)
  toText_chars (n : ν) : ∀ c ∈ toText n, isNumberChar c = true

/-! ## Integers -/

/-- An integer as `Number.prototype.toString` writes it. -/
def integerText : Int → List Char
  | .ofNat n => Nat.toDigits 10 n
  | .negSucc n => '-' :: Nat.toDigits 10 (n + 1)

def readInteger : List Char → Int
  | '-' :: cs => -(Nat.ofDigitChars 10 cs 0 : Int)
  | cs => (Nat.ofDigitChars 10 cs 0 : Int)

theorem toDigits_isDigit {n : Nat} : ∀ c ∈ Nat.toDigits 10 n, c.isDigit = true := fun _ h =>
  Nat.isDigit_of_mem_toDigits (by decide) (by decide) h

theorem toDigits_head (n : Nat) : ∃ c cs, Nat.toDigits 10 n = c :: cs ∧ c.isDigit = true := by
  obtain ⟨c, cs, h⟩ := List.exists_cons_of_ne_nil (Nat.toDigits_ne_nil (n := n) (b := 10))
  exact ⟨c, cs, h, toDigits_isDigit c (h ▸ List.mem_cons_self)⟩

theorem readInteger_integerText : ∀ n : Int, readInteger (integerText n) = n
  | .ofNat n => by
    obtain ⟨c, cs, h, hc⟩ := toDigits_head n
    have hm : c ≠ '-' := by rintro rfl; simp at hc
    rw [integerText, readInteger.eq_def]
    split
    · rename_i h'; rw [h] at h'; exact absurd (List.cons.inj h').1 hm
    · rw [Nat.ofDigitChars_ten_toDigits]; rfl
  | .negSucc n => by
    rw [integerText, readInteger, Nat.ofDigitChars_ten_toDigits]; rfl

theorem toString_injective : Function.Injective (toString : Nat → String) := by
  intro m n h
  have hdigits : Nat.toDigits 10 m = Nat.toDigits 10 n := String.ofList_injective h
  have hvalue := congrArg (fun cs => Nat.ofDigitChars 10 cs 0) hdigits
  simpa only [Nat.ofDigitChars_ten_toDigits] using hvalue

/-- Integers, written in decimal; an integer literal is one without leading
zeros, or `-0`. -/
instance : NumberFormat Int where
  toText := integerText
  ofText cs := if integerText (readInteger cs) = cs ∨ cs = ['-', '0'] then some (readInteger cs) else none
  ofText_toText n := by simp [readInteger_integerText]
  toText_head
    | .ofNat n => by
      obtain ⟨c, cs, h, hc⟩ := toDigits_head n
      exact ⟨c, cs, h, .inr hc⟩
    | .negSucc _ => ⟨_, _, rfl, .inl rfl⟩
  toText_chars
    | .ofNat n, c, h => by simp [isNumberChar, toDigits_isDigit c h]
    | .negSucc n, c, h => by
      rcases List.mem_cons.mp h with rfl | h
      · decide
      · simp [isNumberChar, toDigits_isDigit c h]

section Values

variable {ν : Type} [DecidableEq ν]

mutual

/-- Values are compared part by part. -/
def decEqJson : (v w : Json ν) → Decidable (v = w)
  | .null, .null => isTrue rfl
  | .bool a, .bool b => decidable_of_iff (a = b) (by simp)
  | .num a, .num b => decidable_of_iff (a = b) (by simp)
  | .str a, .str b => decidable_of_iff (a = b) (by simp)
  | .arr a, .arr b =>
    match decEqItems a b with
    | isTrue h => isTrue (h ▸ rfl)
    | isFalse h => isFalse fun h' => h (by simpa using h')
  | .obj a, .obj b =>
    match decEqFields a b with
    | isTrue h => isTrue (h ▸ rfl)
    | isFalse h => isFalse fun h' => h (by simpa using h')
  | .null, .bool _ | .null, .num _ | .null, .str _ | .null, .arr _ | .null, .obj _
  | .bool _, .null | .bool _, .num _ | .bool _, .str _ | .bool _, .arr _ | .bool _, .obj _
  | .num _, .null | .num _, .bool _ | .num _, .str _ | .num _, .arr _ | .num _, .obj _
  | .str _, .null | .str _, .bool _ | .str _, .num _ | .str _, .arr _ | .str _, .obj _
  | .arr _, .null | .arr _, .bool _ | .arr _, .num _ | .arr _, .str _ | .arr _, .obj _
  | .obj _, .null | .obj _, .bool _ | .obj _, .num _ | .obj _, .str _ | .obj _, .arr _ =>
    isFalse nofun

def decEqItems : (v w : List (Json ν)) → Decidable (v = w)
  | [], [] => isTrue rfl
  | [], _ :: _ => isFalse nofun
  | _ :: _, [] => isFalse nofun
  | v :: vs, w :: ws =>
    match decEqJson v w, decEqItems vs ws with
    | isTrue h, isTrue h' => isTrue (h ▸ h' ▸ rfl)
    | isFalse h, _ => isFalse fun e => h (List.cons.inj e).1
    | _, isFalse h => isFalse fun e => h (List.cons.inj e).2

def decEqFields : (v w : List (String × Json ν)) → Decidable (v = w)
  | [], [] => isTrue rfl
  | [], _ :: _ => isFalse nofun
  | _ :: _, [] => isFalse nofun
  | (k, v) :: vs, (l, w) :: ws =>
    match decEq k l, decEqJson v w, decEqFields vs ws with
    | isTrue h, isTrue h', isTrue h'' => isTrue (h ▸ h' ▸ h'' ▸ rfl)
    | isFalse h, _, _ => isFalse fun e => h (congrArg Prod.fst (List.cons.inj e).1)
    | _, isFalse h, _ => isFalse fun e => h (congrArg Prod.snd (List.cons.inj e).1)
    | _, _, isFalse h => isFalse fun e => h (List.cons.inj e).2

end

instance : DecidableEq (Json ν) := decEqJson

end Values

variable {ν : Type}

/-- `Object.keys(v)`: the keys of an object, the indices of an array or a
string. -/
def objectKeys : Json ν → List String
  | .obj fields => fields.map Prod.fst
  | .arr items => (List.range items.length).map toString
  | .str s => (List.range (codeUnits s).length).map toString
  | _ => []

/-- The value of property `key` of an object: its own, or the inherited
`__proto__`, of which only its own `null` prototype is not a function. -/
def getProperty (fields : List (String × Json ν)) (key : String) : Option (Json ν) :=
  match fields.lookup key with
  | some v => some v
  | none => if key = "__proto__" then some (.obj [("__proto__", .null)]) else none

/-! ## `JSON.stringify` -/

/-- A character inside a JSON string. -/
def escapeChar (c : Char) : List Char :=
  if c = '"' then ['\\', '"']
  else if c = '\\' then ['\\', '\\']
  else if c = '\x08' then ['\\', 'b']
  else if c = '\t' then ['\\', 't']
  else if c = '\n' then ['\\', 'n']
  else if c = '\x0c' then ['\\', 'f']
  else if c = '\r' then ['\\', 'r']
  else if c.toNat < 0x20 then ['\\', 'u', '0', '0', hexDigit (c.toNat / 16), hexDigit (c.toNat % 16)]
  else [c]

/-- A hexadecimal digit neither ends a string nor escapes. -/
theorem hexDigit_ne (n : Nat) (hn : n < 16) : hexDigit n ≠ '"' ∧ hexDigit n ≠ '\\' := by
  revert n
  decide

/-- A string as JSON writes it, without the quote that opens it. -/
def quoteTail (s : String) : List Char := s.toList.flatMap escapeChar ++ ['"']

section Stringify

variable [NumberFormat ν]

mutual

/-- The text of a value, as characters. -/
def stringifyChars : Json ν → List Char
  | .null => "null".toList
  | .bool true => "true".toList
  | .bool false => "false".toList
  | .num n => NumberFormat.toText n
  | .str s => '"' :: quoteTail s
  | .arr [] => ['[', ']']
  | .arr (v :: items) => '[' :: stringifyChars v ++ stringifyItems items
  | .obj [] => ['{', '}']
  | .obj ((k, v) :: fields) => '{' :: '"' :: quoteTail k ++ ':' :: stringifyChars v ++ stringifyFields fields

/-- The items of an array after the first, and its bracket. -/
def stringifyItems : List (Json ν) → List Char
  | [] => [']']
  | v :: items => ',' :: stringifyChars v ++ stringifyItems items

/-- The fields of an object after the first, and its brace. -/
def stringifyFields : List (String × Json ν) → List Char
  | [] => ['}']
  | (k, v) :: fields => ',' :: '"' :: quoteTail k ++ ':' :: stringifyChars v ++ stringifyFields fields

end

/-- `JSON.stringify(v)`. -/
def stringify (v : Json ν) : String := String.ofList (stringifyChars v)

theorem stringifyFields_last : ∀ fields : List (String × Json ν), ∃ cs, stringifyFields fields = cs ++ ['}']
  | [] => ⟨[], rfl⟩
  | (k, v) :: fields => by
    obtain ⟨cs, h⟩ := stringifyFields_last fields
    rw [stringifyFields, h]
    exact ⟨',' :: '"' :: quoteTail k ++ ':' :: stringifyChars v ++ cs, by simp⟩

/-- What is written of an object ends in its brace. -/
theorem stringifyChars_obj_last :
    ∀ fields : List (String × Json ν), ∃ cs, stringifyChars (.obj fields) = cs ++ ['}']
  | [] => ⟨['{'], rfl⟩
  | (k, v) :: fields => by
    obtain ⟨cs, h⟩ := stringifyFields_last fields
    rw [stringifyChars, h]
    exact ⟨'{' :: '"' :: quoteTail k ++ ':' :: stringifyChars v ++ cs, by simp⟩

end Stringify

/-! ## A list of keys as replacer -/

/-- The fields that an object is written with under the property list `keys`:
its properties of these names, in this order. -/
def selectFields (keys : List String) (fields : List (String × Json ν)) : List (String × Json ν) :=
  keys.filterMap fun k => (getProperty fields k).map fun v => (k, v)

mutual

/-- The value that `JSON.stringify(v, keys)` writes: the property list `keys`
selects the fields of every object in `v`, at every depth. -/
def restrict (keys : List String) : Json ν → Json ν
  | .arr items => .arr (restrictItems keys items)
  | .obj fields => .obj (selectFields keys (restrictFields keys fields))
  | v => v

/-- Item by item. -/
def restrictItems (keys : List String) : List (Json ν) → List (Json ν)
  | [] => []
  | v :: items => restrict keys v :: restrictItems keys items

/-- Field by field. -/
def restrictFields (keys : List String) : List (String × Json ν) → List (String × Json ν)
  | [] => []
  | (k, v) :: fields => (k, restrict keys v) :: restrictFields keys fields

end

/-- `JSON.stringify(v, keys)`; a key listed twice counts once. -/
def stringifyWith [NumberFormat ν] (keys : List String) (v : Json ν) : String :=
  stringify (restrict keys.dedup v)

/-! ## Equality up to the order of keys -/

/-- The order of the fields of an object by their keys. -/
def leKey (f g : String × Json ν) : Prop := leUnits f.1 g.1

instance : DecidableRel (leKey (ν := ν)) := fun f g => inferInstanceAs (Decidable (leUnits f.1 g.1))

mutual

/-- The value with the keys of every object, at every depth, in order. -/
def sortKeys : Json ν → Json ν
  | .arr items => .arr (sortKeysItems items)
  | .obj fields => .obj ((sortKeysFields fields).insertionSort leKey)
  | v => v

/-- Item by item. -/
def sortKeysItems : List (Json ν) → List (Json ν)
  | [] => []
  | v :: items => sortKeys v :: sortKeysItems items

/-- Field by field. -/
def sortKeysFields : List (String × Json ν) → List (String × Json ν)
  | [] => []
  | (k, v) :: fields => (k, sortKeys v) :: sortKeysFields fields

end

/-- The same value up to the order of the keys of objects, at every depth. -/
def SameJson (v w : Json ν) : Prop := sortKeys v = sortKeys w

instance [DecidableEq ν] (v w : Json ν) : Decidable (SameJson v w) :=
  inferInstanceAs (Decidable (sortKeys v = sortKeys w))

@[refl] theorem SameJson.refl (v : Json ν) : SameJson v v := rfl

theorem SameJson.symm {v w : Json ν} (h : SameJson v w) : SameJson w v := Eq.symm h

theorem SameJson.trans {u v w : Json ν} (h : SameJson u v) (h' : SameJson v w) : SameJson u w := Eq.trans h h'

end ZkPayroll.Framework
