import Mathlib.Data.List.Dedup
import ZkPayroll.Framework.Json
import ZkPayroll.Framework.Maps

/-!
# `JSON.parse`

`parseJson` is `JSON.parse`: white space between tokens, every escape, the
last of several fields with one key. `parseJson_stringify` reads back what
`stringify` writes, for values whose objects have distinct keys
(`DistinctKeys`), as JavaScript objects do; so `stringify` is injective on
them (`stringify_injective`). Escaped lone surrogates, which no `String` has,
are an error here.
-/

namespace ZkPayroll.Framework

variable {ν : Type}

/-! ## The parser -/

variable (c : Char)

def isJsonSpace : Bool := c == ' ' || c == '\t' || c == '\n' || c == '\r'

/-- What follows white space. -/
def skipSpace (cs : List Char) : List Char := cs.dropWhile isJsonSpace

/-- The character of an escape of one letter. -/
def unescape : Option Char :=
  if c = '"' ∨ c = '\\' ∨ c = '/' then some c
  else if c = 'b' then some '\x08'
  else if c = 't' then some '\t'
  else if c = 'n' then some '\n'
  else if c = 'f' then some '\x0c'
  else if c = 'r' then some '\r'
  else none

def hexNumber (a b c d : Char) : Option Nat :=
  match hexValue a, hexValue b, hexValue c, hexValue d with
  | some a, some b, some c, some d => some (a * 4096 + b * 256 + c * 16 + d)
  | _, _, _, _ => none

/-- The character of one or two units: a surrogate pair makes one character. -/
def pairUnits (high low : Nat) : Option Char :=
  if 0xD800 ≤ high ∧ high < 0xDC00 ∧ 0xDC00 ≤ low ∧ low < 0xE000 then
    some (Char.ofNat (0x10000 + (high - 0xD800) * 0x400 + (low - 0xDC00)))
  else none

def consChar : List Char × List Char → List Char × List Char
  | (s, rest) => (c :: s, rest)

/-- Reads a string after its opening quote; gives its characters and what
follows its closing quote. -/
def parseStringTail : List Char → Option (List Char × List Char)
  | [] => none
  | c :: cs =>
    if c = '"' then some ([], cs)
    else if c = '\\' then
      match cs with
      | [] => none
      | e :: cs =>
        if e = 'u' then
          match cs with
          | h₁ :: h₂ :: h₃ :: h₄ :: cs =>
            match hexNumber h₁ h₂ h₃ h₄ with
            | none => none
            | some n =>
              if 0xD800 ≤ n ∧ n < 0xE000 then
                match cs with
                | s :: u :: l₁ :: l₂ :: l₃ :: l₄ :: cs =>
                  if s = '\\' ∧ u = 'u' then
                    match (hexNumber l₁ l₂ l₃ l₄).bind (pairUnits n) with
                    | none => none
                    | some c => (parseStringTail cs).map (consChar c)
                  else none
                | _ => none
              else (parseStringTail cs).map (consChar (Char.ofNat n))
          | _ => none
        else
          match unescape e with
          | none => none
          | some c => (parseStringTail cs).map (consChar c)
    else if c.toNat < 0x20 then none
    else (parseStringTail cs).map (consChar c)

/-- What follows `pat` at the start of `cs`. -/
def expect : (pat cs : List Char) → Option (List Char)
  | [], cs => some cs
  | p :: pat, c :: cs => if c = p then expect pat cs else none
  | _ :: _, [] => none

/-- The object that fields read in order make: a key that comes again keeps its
place. -/
def collectFields (fields : List (String × Json ν)) : List (String × Json ν) :=
  fields.foldl (fun acc f => setKey f.1 f.2 acc) []

section Parse

variable [NumberFormat ν]

mutual

/-- Reads a value; gives it and what follows it. -/
def parseValue : Nat → List Char → Option (Json ν × List Char)
  | 0, _ => none
  | fuel + 1, cs =>
    match skipSpace cs with
    | [] => none
    | c :: cs =>
      if c = '"' then (parseStringTail cs).map fun (s, cs) => (.str (String.ofList s), cs)
      else if c = '[' then
        match expect [']'] (skipSpace cs) with
        | some cs => some (.arr [], cs)
        | none =>
          (parseValue fuel cs).bind fun (v, cs) =>
            (parseItems fuel cs).map fun (items, cs) => (.arr (v :: items), cs)
      else if c = '{' then
        match expect ['}'] (skipSpace cs) with
        | some cs => some (.obj [], cs)
        | none =>
          (parseField fuel cs).bind fun (f, cs) =>
            (parseFields fuel cs).map fun (fields, cs) => (.obj (collectFields (f :: fields)), cs)
      else if c = 'n' then (expect "ull".toList cs).map fun cs => (.null, cs)
      else if c = 't' then (expect "rue".toList cs).map fun cs => (.bool true, cs)
      else if c = 'f' then (expect "alse".toList cs).map fun cs => (.bool false, cs)
      else if c = '-' ∨ c.isDigit then
        (NumberFormat.ofText ((c :: cs).takeWhile isNumberChar)).map fun n =>
          (.num n, (c :: cs).dropWhile isNumberChar)
      else none

/-- Reads the items of an array after the first, and its bracket. -/
def parseItems : Nat → List Char → Option (List (Json ν) × List Char)
  | 0, _ => none
  | fuel + 1, cs =>
    match skipSpace cs with
    | [] => none
    | c :: cs =>
      if c = ']' then some ([], cs)
      else if c = ',' then
        (parseValue fuel cs).bind fun (v, cs) =>
          (parseItems fuel cs).map fun (items, cs) => (v :: items, cs)
      else none

/-- Reads a field. -/
def parseField : Nat → List Char → Option ((String × Json ν) × List Char)
  | 0, _ => none
  | fuel + 1, cs =>
    (expect ['"'] (skipSpace cs)).bind fun cs => (parseStringTail cs).bind fun (k, cs) =>
      (expect [':'] (skipSpace cs)).bind fun cs =>
        (parseValue fuel cs).map fun (v, cs) => ((String.ofList k, v), cs)

/-- Reads the fields of an object after the first, and its brace. -/
def parseFields : Nat → List Char → Option (List (String × Json ν) × List Char)
  | 0, _ => none
  | fuel + 1, cs =>
    match skipSpace cs with
    | [] => none
    | c :: cs =>
      if c = '}' then some ([], cs)
      else if c = ',' then
        (parseField fuel cs).bind fun (f, cs) =>
          (parseFields fuel cs).map fun (fields, cs) => (f :: fields, cs)
      else none

end

/-- `JSON.parse(s)`; `none` where it throws. Every call reads a character, so
the fuel is never short. -/
def parseJson (s : String) : Option (Json ν) :=
  match parseValue (2 * s.toList.length + 1) s.toList with
  | some (v, cs) => if skipSpace cs = [] then some v else none
  | none => none

end Parse

/-! ## Strings read back -/

theorem hexNumber_escape {n : Nat} (h : n < 0x20) :
    hexNumber '0' '0' (hexDigit (n / 16)) (hexDigit (n % 16)) = some n := by
  have h0 : hexValue '0' = some 0 := by decide
  simp only [hexNumber, h0, hexValue_hexDigit _ (show n / 16 < 16 by omega),
    hexValue_hexDigit _ (Nat.mod_lt n (by decide : 16 > 0))]
  congr 1
  omega

theorem parseStringTail_quote (cs : List Char) : parseStringTail ('"' :: cs) = some ([], cs) := by
  rw [parseStringTail.eq_def]; simp

theorem parseStringTail_escape {e c : Char} (he : e ≠ 'u') (hc : unescape e = some c) (cs : List Char) :
    parseStringTail ('\\' :: e :: cs) = (parseStringTail cs).map (consChar c) := by
  rw [parseStringTail.eq_def]; simp [he, hc]

theorem parseStringTail_control {n : Nat} (h : n < 0x20) (cs : List Char) :
    parseStringTail ('\\' :: 'u' :: '0' :: '0' :: hexDigit (n / 16) :: hexDigit (n % 16) :: cs) =
      (parseStringTail cs).map (consChar (Char.ofNat n)) := by
  have hs : ¬ (0xD800 ≤ n ∧ n < 0xE000) := by omega
  rw [parseStringTail.eq_def]; simp [hexNumber_escape h, hs]

theorem parseStringTail_plain {c : Char} (h₁ : c ≠ '"') (h₂ : c ≠ '\\') (h₃ : ¬ c.toNat < 0x20)
    (cs : List Char) : parseStringTail (c :: cs) = (parseStringTail cs).map (consChar c) := by
  rw [parseStringTail.eq_def]; simp only [if_neg h₁, if_neg h₂, if_neg h₃]

theorem parseStringTail_escapeChar (cs : List Char) :
    parseStringTail (escapeChar c ++ cs) = (parseStringTail cs).map (consChar c) := by
  unfold escapeChar
  by_cases hq : c = '"'
  · subst hq; exact parseStringTail_escape (by decide) (by decide) cs
  by_cases hb : c = '\\'
  · subst hb; exact parseStringTail_escape (by decide) (by decide) cs
  rw [if_neg hq, if_neg hb]
  repeat' split
  · subst_vars; exact parseStringTail_escape (by decide) (by decide) cs
  · subst_vars; exact parseStringTail_escape (by decide) (by decide) cs
  · subst_vars; exact parseStringTail_escape (by decide) (by decide) cs
  · subst_vars; exact parseStringTail_escape (by decide) (by decide) cs
  · subst_vars; exact parseStringTail_escape (by decide) (by decide) cs
  · rename_i h
    have hc := parseStringTail_control h cs
    rw [Char.ofNat_toNat] at hc
    exact hc
  · rename_i h
    exact parseStringTail_plain hq hb h cs

theorem parseStringTail_quoteTail (s : String) (cs : List Char) :
    parseStringTail (quoteTail s ++ cs) = some (s.toList, cs) := by
  have h : ∀ l : List Char, parseStringTail (l.flatMap escapeChar ++ '"' :: cs) = some (l, cs) := by
    intro l
    induction l with
    | nil => exact parseStringTail_quote cs
    | cons c l ih =>
      rw [List.flatMap_cons, List.append_assoc, parseStringTail_escapeChar, ih]
      rfl
  simpa [quoteTail] using h s.toList

/-! ## Values read back -/

mutual

/-- The keys of every object of the value are distinct. -/
def DistinctKeys : Json ν → Prop
  | .arr items => DistinctItems items
  | .obj fields => (fields.map Prod.fst).Nodup ∧ DistinctFields fields
  | _ => True

/-- Item by item. -/
def DistinctItems : List (Json ν) → Prop
  | [] => True
  | v :: items => DistinctKeys v ∧ DistinctItems items

/-- Field by field. -/
def DistinctFields : List (String × Json ν) → Prop
  | [] => True
  | (_, v) :: fields => DistinctKeys v ∧ DistinctFields fields

end

variable {fields : List (String × Json ν)}

theorem collectFields_of_nodup (h : (fields.map Prod.fst).Nodup) :
    collectFields fields = fields := by
  have hf : ∀ (l acc : List (String × Json ν)), ((acc ++ l).map Prod.fst).Nodup →
      l.foldl (fun acc f => setKey f.1 f.2 acc) acc = acc ++ l := by
    intro l
    induction l with
    | nil => simp
    | cons f l ih =>
      intro acc hn
      have hk : f.1 ∉ acc.map Prod.fst := by
        simp only [List.map_append, List.map_cons, List.nodup_append] at hn
        exact fun hm => hn.2.2 _ hm _ List.mem_cons_self rfl
      rw [List.foldl_cons, setKey_of_notMem hk, ih _ (by simpa using hn)]
      simp
  simpa [collectFields] using hf fields [] h

mutual

/-- The calls of the parser that read the value. -/
def readCost : Json ν → Nat
  | .arr (v :: items) => readCost v + readCostItems items + 1
  | .obj ((_, v) :: fields) => readCost v + readCostFields fields + 2
  | _ => 1

/-- The steps that reading the items takes. -/
def readCostItems : List (Json ν) → Nat
  | [] => 1
  | v :: items => readCost v + readCostItems items + 1

/-- The steps that reading the fields takes. -/
def readCostFields : List (String × Json ν) → Nat
  | [] => 1
  | (_, v) :: fields => readCost v + readCostFields fields + 2

end

variable [NumberFormat ν]

/-- What follows a value does not continue a number. -/
def EndsNumber (cs : List Char) : Prop := ∀ c ∈ cs.head?, isNumberChar c = false

theorem isDigit_toNat {c : Char} (h : c.isDigit = true) : 48 ≤ c.toNat ∧ c.toNat ≤ 57 := by
  simpa [Char.isDigit, UInt32.le_iff_toNat_le] using h

/-- A value is written with a first character that is not white space and does
not close a bracket. -/
theorem stringifyChars_head (v : Json ν) :
    ∃ c cs, stringifyChars v = c :: cs ∧ isJsonSpace c = false ∧ c ≠ ']' ∧ c ≠ '}' := by
  have hn : ∀ c : Char, c = '-' ∨ c.isDigit = true → isJsonSpace c = false ∧ c ≠ ']' ∧ c ≠ '}' := by
    rintro c (rfl | h)
    · decide
    · have := isDigit_toNat h
      refine ⟨?_, ?_, ?_⟩
      · simp only [isJsonSpace, Bool.or_eq_false_iff, beq_eq_false_iff_ne]
        refine ⟨⟨⟨?_, ?_⟩, ?_⟩, ?_⟩ <;> (rintro rfl; revert this; decide)
      · rintro rfl; revert this; decide
      · rintro rfl; revert this; decide
  match v with
  | .null => exact ⟨_, _, rfl, by decide, by decide, by decide⟩
  | .bool true => exact ⟨_, _, rfl, by decide, by decide, by decide⟩
  | .bool false => exact ⟨_, _, rfl, by decide, by decide, by decide⟩
  | .num n =>
    obtain ⟨c, cs, h, hc⟩ := NumberFormat.toText_head n
    exact ⟨c, cs, by simpa [stringifyChars] using h, hn c hc⟩
  | .str s => exact ⟨_, _, rfl, by decide, by decide, by decide⟩
  | .arr [] => exact ⟨_, _, rfl, by decide, by decide, by decide⟩
  | .arr (_ :: _) => exact ⟨_, _, by rw [stringifyChars]; rfl, by decide, by decide, by decide⟩
  | .obj [] => exact ⟨_, _, rfl, by decide, by decide, by decide⟩
  | .obj (_ :: _) => exact ⟨_, _, by rw [stringifyChars]; rfl, by decide, by decide, by decide⟩

theorem skipSpace_cons {c : Char} (h : isJsonSpace c = false) (cs : List Char) :
    skipSpace (c :: cs) = c :: cs := by
  simp [skipSpace, h]

theorem expect_bracket_stringifyChars (v : Json ν) (cs : List Char) :
    expect [']'] (skipSpace (stringifyChars v ++ cs)) = none := by
  obtain ⟨c, cs', h, hs, hb, -⟩ := stringifyChars_head v
  rw [h, List.cons_append, skipSpace_cons hs, expect, if_neg hb]

theorem parseValue_num {fuel : Nat} (n : ν) {cs : List Char} (he : EndsNumber cs) :
    parseValue (fuel + 1) (NumberFormat.toText n ++ cs) = some (.num n, cs) := by
  obtain ⟨c, ds, h, hc⟩ := NumberFormat.toText_head n
  have hall := NumberFormat.toText_chars n
  have hne : ∀ d : Char, d ≠ '-' → d.isDigit = false → c ≠ d := by
    rintro d h₁ h₂ rfl
    rcases hc with hc | hc
    · exact h₁ hc
    · simp [h₂] at hc
  have hsp : isJsonSpace c = false := by
    simp only [isJsonSpace, Bool.or_eq_false_iff, beq_eq_false_iff_ne]
    exact ⟨⟨⟨hne _ (by decide) (by decide), hne _ (by decide) (by decide)⟩,
      hne _ (by decide) (by decide)⟩, hne _ (by decide) (by decide)⟩
  have hd : cs.takeWhile isNumberChar = [] ∧ cs.dropWhile isNumberChar = cs := by
    cases cs with
    | nil => exact ⟨rfl, rfl⟩
    | cons e cs => simp [he e (by simp)]
  rw [parseValue, h, List.cons_append, skipSpace_cons hsp]
  simp only [if_neg (hne '"' (by decide) (by decide)), if_neg (hne '[' (by decide) (by decide)),
    if_neg (hne '{' (by decide) (by decide)), if_neg (hne 'n' (by decide) (by decide)),
    if_neg (hne 't' (by decide) (by decide)), if_neg (hne 'f' (by decide) (by decide)), if_pos hc]
  rw [← List.cons_append, ← h, List.takeWhile_append_of_pos hall, List.dropWhile_append_of_pos hall,
    hd.1, hd.2, List.append_nil, NumberFormat.ofText_toText, Option.map_some]

theorem endsNumber_stringifyItems (items : List (Json ν)) (cs : List Char) :
    EndsNumber (stringifyItems items ++ cs) := by
  cases items <;> simp [EndsNumber, stringifyItems, isNumberChar]

theorem endsNumber_stringifyFields (fields : List (String × Json ν)) (cs : List Char) :
    EndsNumber (stringifyFields fields ++ cs) := by
  rcases fields with _ | ⟨⟨k, v⟩, fields⟩ <;> simp [EndsNumber, stringifyFields, isNumberChar]

mutual

theorem parseValue_stringifyChars : ∀ (v : Json ν), DistinctKeys v → ∀ (fuel : Nat) (cs : List Char),
    readCost v ≤ fuel → EndsNumber cs → parseValue fuel (stringifyChars v ++ cs) = some (v, cs)
  | v, hv, 0, cs, hf, he => by
    exfalso
    revert hf
    unfold readCost
    split <;> simp
  | .null, _, fuel + 1, cs, _, _ => by
    simp [stringifyChars, parseValue, skipSpace_cons (show isJsonSpace 'n' = false by decide), expect]
  | .bool true, _, fuel + 1, cs, _, _ => by
    simp [stringifyChars, parseValue, skipSpace_cons (show isJsonSpace 't' = false by decide), expect]
  | .bool false, _, fuel + 1, cs, _, _ => by
    simp [stringifyChars, parseValue, skipSpace_cons (show isJsonSpace 'f' = false by decide), expect]
  | .num n, _, fuel + 1, cs, _, he => by
    rw [stringifyChars, parseValue_num n he]
  | .str s, _, fuel + 1, cs, _, _ => by
    simp [stringifyChars, parseValue, skipSpace_cons (show isJsonSpace '"' = false by decide),
      parseStringTail_quoteTail]
  | .arr [], _, fuel + 1, cs, _, _ => by
    simp [stringifyChars, parseValue, skipSpace_cons (show isJsonSpace '[' = false by decide),
      skipSpace_cons (show isJsonSpace ']' = false by decide), expect]
  | .arr (v :: items), hv, fuel + 1, cs, hf, _ => by
    simp only [DistinctKeys, DistinctItems] at hv
    simp only [readCost] at hf
    have h₁ := parseValue_stringifyChars v hv.1 fuel (stringifyItems items ++ cs) (by omega)
      (endsNumber_stringifyItems _ _)
    have h₂ := parseItems_stringifyItems items hv.2 fuel cs (by omega)
    rw [stringifyChars, parseValue, List.append_assoc, List.cons_append,
      skipSpace_cons (show isJsonSpace '[' = false by decide)]
    simp [expect_bracket_stringifyChars, h₁, h₂]
  | .obj [], _, fuel + 1, cs, _, _ => by
    simp [stringifyChars, parseValue, skipSpace_cons (show isJsonSpace '{' = false by decide),
      skipSpace_cons (show isJsonSpace '}' = false by decide), expect]
  | .obj ((k, v) :: fields), hv, fuel + 1, cs, hf, _ => by
    simp only [DistinctKeys, DistinctFields] at hv
    simp only [readCost] at hf
    have h₁ := parseField_stringify k v hv.2.1 fuel (stringifyFields fields ++ cs) (by omega)
      (endsNumber_stringifyFields _ _)
    have h₂ := parseFields_stringifyFields fields hv.2.2 fuel cs (by omega)
    rw [stringifyChars, parseValue]
    simp only [List.append_assoc, List.cons_append,
      skipSpace_cons (show isJsonSpace '{' = false by decide),
      skipSpace_cons (show isJsonSpace '"' = false by decide)]
    simp only [List.append_assoc, List.cons_append] at h₁
    simp [expect, h₁, h₂, collectFields_of_nodup hv.1]

theorem parseItems_stringifyItems : ∀ (items : List (Json ν)), DistinctItems items →
    ∀ (fuel : Nat) (cs : List Char), readCostItems items ≤ fuel →
    parseItems fuel (stringifyItems items ++ cs) = some (items, cs)
  | [], _, fuel, cs, hf => by
    obtain ⟨fuel, rfl⟩ := Nat.exists_eq_add_of_le' (show 1 ≤ fuel by simpa [readCostItems] using hf)
    simp [stringifyItems, parseItems, skipSpace_cons (show isJsonSpace ']' = false by decide)]
  | v :: items, hv, fuel, cs, hf => by
    simp only [readCostItems] at hf
    obtain ⟨fuel, rfl⟩ := Nat.exists_eq_add_of_le' (show 1 ≤ fuel by omega)
    simp only [DistinctItems] at hv
    have h₁ := parseValue_stringifyChars v hv.1 fuel (stringifyItems items ++ cs) (by omega)
      (endsNumber_stringifyItems _ _)
    have h₂ := parseItems_stringifyItems items hv.2 fuel cs (by omega)
    rw [stringifyItems, parseItems, List.append_assoc, List.cons_append,
      skipSpace_cons (show isJsonSpace ',' = false by decide)]
    simp [h₁, h₂]

theorem parseField_stringify : ∀ (k : String) (v : Json ν), DistinctKeys v →
    ∀ (fuel : Nat) (cs : List Char), readCost v + 1 ≤ fuel → EndsNumber cs →
    parseField fuel ('"' :: quoteTail k ++ ':' :: stringifyChars v ++ cs) = some ((k, v), cs)
  | k, v, hv, fuel, cs, hf, he => by
    obtain ⟨fuel, rfl⟩ := Nat.exists_eq_add_of_le' (show 1 ≤ fuel by omega)
    have h := parseValue_stringifyChars v hv fuel cs (by omega) he
    simp [parseField, skipSpace_cons (show isJsonSpace '"' = false by decide),
      skipSpace_cons (show isJsonSpace ':' = false by decide), expect, parseStringTail_quoteTail, h]

theorem parseFields_stringifyFields : ∀ (fields : List (String × Json ν)), DistinctFields fields →
    ∀ (fuel : Nat) (cs : List Char), readCostFields fields ≤ fuel →
    parseFields fuel (stringifyFields fields ++ cs) = some (fields, cs)
  | [], _, fuel, cs, hf => by
    obtain ⟨fuel, rfl⟩ := Nat.exists_eq_add_of_le' (show 1 ≤ fuel by simpa [readCostFields] using hf)
    simp [stringifyFields, parseFields, skipSpace_cons (show isJsonSpace '}' = false by decide)]
  | (k, v) :: fields, hv, fuel, cs, hf => by
    simp only [readCostFields] at hf
    obtain ⟨fuel, rfl⟩ := Nat.exists_eq_add_of_le' (show 1 ≤ fuel by omega)
    simp only [DistinctFields] at hv
    have h₁ := parseField_stringify k v hv.1 fuel (stringifyFields fields ++ cs) (by omega)
      (endsNumber_stringifyFields _ _)
    have h₂ := parseFields_stringifyFields fields hv.2 fuel cs (by omega)
    rw [stringifyFields, parseFields]
    simp only [List.append_assoc, List.cons_append,
      skipSpace_cons (show isJsonSpace ',' = false by decide)]
    simp only [List.append_assoc, List.cons_append] at h₁
    simp [h₁, h₂]

end

mutual

/-- The text of a value is long enough for the calls that read it. -/
theorem readCost_le : ∀ v : Json ν, readCost v ≤ 2 * (stringifyChars v).length
  | .null | .bool true | .bool false | .arr [] | .obj [] => by simp [readCost, stringifyChars]
  | .num n => by
    obtain ⟨c, cs, h, -⟩ := NumberFormat.toText_head n
    simp [readCost, stringifyChars, h]
    omega
  | .str s => by simp [readCost, stringifyChars]; omega
  | .arr (v :: items) => by
    have h₁ := readCost_le v
    have h₂ := readCostItems_le items
    simp only [readCost, stringifyChars, List.length_append, List.length_cons]
    omega
  | .obj ((k, v) :: fields) => by
    have h₁ := readCost_le v
    have h₂ := readCostFields_le fields
    simp only [readCost, stringifyChars, List.length_append, List.length_cons]
    omega

theorem readCostItems_le : ∀ items : List (Json ν),
    readCostItems items ≤ 2 * (stringifyItems items).length
  | [] => by simp [readCostItems, stringifyItems]
  | v :: items => by
    have h₁ := readCost_le v
    have h₂ := readCostItems_le items
    simp only [readCostItems, stringifyItems, List.length_append, List.length_cons]
    omega

theorem readCostFields_le : ∀ fields : List (String × Json ν),
    readCostFields fields ≤ 2 * (stringifyFields fields).length
  | [] => by simp [readCostFields, stringifyFields]
  | (k, v) :: fields => by
    have h₁ := readCost_le v
    have h₂ := readCostFields_le fields
    simp only [readCostFields, stringifyFields, List.length_append, List.length_cons]
    omega

end

/-- Parsing what was stringified gives the value back. -/
theorem parseJson_stringify {v : Json ν} (hv : DistinctKeys v) : parseJson (stringify v) = some v := by
  have hc := readCost_le v
  have h := parseValue_stringifyChars v hv (2 * (stringifyChars v).length + 1) [] (by omega)
    (by simp [EndsNumber])
  rw [List.append_nil] at h
  simp [parseJson, stringify, h, skipSpace]

theorem stringify_injective {v w : Json ν} (hv : DistinctKeys v) (hw : DistinctKeys w)
    (h : stringify v = stringify w) : v = w := by
  have := parseJson_stringify hv
  rw [h, parseJson_stringify hw] at this
  exact (Option.some.inj this).symm

/-! ## Restricted values -/

omit [NumberFormat ν]

theorem map_fst_selectFields_sublist (fields : List (String × Json ν)) :
    ∀ keys : List String, ((selectFields keys fields).map Prod.fst).Sublist keys
  | [] => List.Sublist.refl _
  | k :: keys => by
    have ih := map_fst_selectFields_sublist fields keys
    simp only [selectFields] at ih ⊢
    cases h : getProperty fields k with
    | none => simpa [h] using ih.cons k
    | some v => simpa [h] using ih.cons_cons k

theorem distinctKeys_getProperty {k : String} {w : Json ν}
    (hf : DistinctFields fields) (h : getProperty fields k = some w) : DistinctKeys w := by
  have hl : ∀ (l : List (String × Json ν)), DistinctFields l → ∀ w, l.lookup k = some w →
      DistinctKeys w := by
    intro l
    induction l with
    | nil => simp
    | cons f l ih =>
      obtain ⟨k', v⟩ := f
      intro hd w hw
      simp only [DistinctFields] at hd
      rw [List.lookup_cons] at hw
      split at hw
      · cases hw; exact hd.1
      · exact ih hd.2 w hw
  unfold getProperty at h
  split at h
  · rename_i v hv; cases h; exact hl fields hf _ hv
  · split at h
    · cases h; simp [DistinctKeys, DistinctFields]
    · cases h

theorem distinctFields_iff : DistinctFields fields ↔ ∀ f ∈ fields, DistinctKeys f.2 := by
  induction fields with
  | nil => simp [DistinctFields]
  | cons f fields ih => simp [DistinctFields, ih]

mutual

/-- A restricted value has distinct keys, as the property list does. -/
theorem distinctKeys_restrict {keys : List String} (hk : keys.Nodup) :
    ∀ v : Json ν, DistinctKeys (restrict keys v)
  | .null | .bool _ | .num _ | .str _ => by simp [restrict, DistinctKeys]
  | .arr items => by
    simp only [restrict, DistinctKeys]
    exact distinctItems_restrict hk items
  | .obj fields => by
    simp only [restrict, DistinctKeys]
    refine ⟨(map_fst_selectFields_sublist _ keys).nodup hk, distinctFields_iff.mpr fun f hf => ?_⟩
    obtain ⟨k, -, hs⟩ := List.mem_filterMap.mp hf
    obtain ⟨v, hv, rfl⟩ := Option.map_eq_some_iff.mp hs
    exact distinctKeys_getProperty (distinctFields_restrict hk fields) hv

theorem distinctItems_restrict {keys : List String} (hk : keys.Nodup) :
    ∀ items : List (Json ν), DistinctItems (restrictItems keys items)
  | [] => trivial
  | v :: items => ⟨distinctKeys_restrict hk v, distinctItems_restrict hk items⟩

theorem distinctFields_restrict {keys : List String} (hk : keys.Nodup) :
    ∀ fields : List (String × Json ν), DistinctFields (restrictFields keys fields)
  | [] => trivial
  | (_, v) :: fields => ⟨distinctKeys_restrict hk v, distinctFields_restrict hk fields⟩

end

/-- Two values are written alike under property lists exactly when the lists
leave the same of them. -/
theorem stringifyWith_eq_iff [NumberFormat ν] {keys keys' : List String} {v w : Json ν} :
    stringifyWith keys v = stringifyWith keys' w ↔ restrict keys.dedup v = restrict keys'.dedup w := by
  constructor
  · exact stringify_injective (distinctKeys_restrict keys.nodup_dedup v)
      (distinctKeys_restrict keys'.nodup_dedup w)
  · exact fun h => congrArg stringify h

/-! ## The length of what is read -/

/-- A string is shorter than what it is read from. -/
theorem length_lt_of_parseStringTail {cs s rest : List Char} (h : parseStringTail cs = some (s, rest)) :
    s.length < cs.length := by
  have hcons {c : Char} {cs s : List Char} (ih : ∀ {s}, parseStringTail cs = some (s, rest) → s.length < cs.length)
      (h : (parseStringTail cs).map (consChar c) = some (s, rest)) : s.length < cs.length + 1 := by
    obtain ⟨⟨t, r⟩, ho, heq⟩ := Option.map_eq_some_iff.mp h
    obtain ⟨rfl, rfl⟩ := Prod.mk.inj heq
    exact Nat.succ_lt_succ (ih ho)
  fun_induction parseStringTail cs generalizing s
  case case2 => 
    obtain ⟨rfl, -⟩ := Prod.mk.inj (Option.some.inj h)
    exact Nat.zero_lt_succ _
  case case6 ih | case9 ih | case12 ih | case14 ih =>
    have := hcons ih h
    simp only [List.length_cons]
    omega
  all_goals cases h

theorem length_lt_of_parseValue [NumberFormat ν] {fuel : Nat} {cs rest : List Char} {t : String}
    (h : parseValue (ν := ν) fuel cs = some (.str t, rest)) : t.toList.length < cs.length := by
  cases fuel with
  | zero => cases h
  | succ fuel =>
    have hspace : (skipSpace cs).length ≤ cs.length := (List.dropWhile_suffix _).length_le
    rw [parseValue] at h
    split at h
    · cases h
    · rename_i c cs' hskip
      rw [hskip, List.length_cons] at hspace
      split_ifs at h
      · obtain ⟨⟨s, r⟩, hs, heq⟩ := Option.map_eq_some_iff.mp h
        obtain ⟨hstr, -⟩ := Prod.mk.inj heq
        have hlt := length_lt_of_parseStringTail hs
        rw [← Json.str.inj hstr, String.toList_ofList]
        omega
      · split at h
        · cases h
        · obtain ⟨p, -, hitems⟩ := Option.bind_eq_some_iff.mp h
          obtain ⟨q, -, heq⟩ := Option.map_eq_some_iff.mp hitems
          cases heq
      · split at h
        · cases h
        · obtain ⟨p, -, hfields⟩ := Option.bind_eq_some_iff.mp h
          obtain ⟨q, -, heq⟩ := Option.map_eq_some_iff.mp hfields
          cases heq
      all_goals
        obtain ⟨p, -, heq⟩ := Option.map_eq_some_iff.mp h
        cases heq

/-- A string is shorter than the text that it is read from. -/
theorem length_lt_of_parseJson [NumberFormat ν] {s t : String} (h : parseJson (ν := ν) s = some (.str t)) :
    t.toList.length < s.toList.length := by
  unfold parseJson at h
  split at h
  · rename_i v cs hv
    split at h
    · cases h
      exact length_lt_of_parseValue hv
    · cases h
  · cases h

end ZkPayroll.Framework
