import ZkPayroll.Draft.DraftSerializer
import ZkPayroll.Framework.JsonParse

/-!
# Indented JSON texts

Without the white space between its tokens (`compact`), the text that
`JSON.stringify(v, null, 2)` writes is that of `JSON.stringify(v)`
(`compact_indentedChars`), so it determines the value.
-/

namespace ZkPayroll.Draft

open Framework

/-- Where a reader of a JSON text is. -/
inductive TextState where
  | outside
  | inString
  | escaped

/-- A JSON text without the white space between its tokens. -/
def compact : TextState → List Char → List Char
  | _, [] => []
  | .outside, c :: cs =>
    if c = '"' then c :: compact .inString cs
    else if isJsonSpace c then compact .outside cs
    else c :: compact .outside cs
  | .inString, c :: cs =>
    c :: compact (if c = '"' then .outside else if c = '\\' then .escaped else .inString) cs
  | .escaped, c :: cs => c :: compact .inString cs

theorem compact_token {c : Char} (hq : c ≠ '"') (hs : isJsonSpace c = false) (cs : List Char) :
    compact .outside (c :: cs) = c :: compact .outside cs := by
  rw [compact, if_neg hq, hs]
  rfl

theorem compact_space {c : Char} (hs : isJsonSpace c = true) (cs : List Char) :
    compact .outside (c :: cs) = compact .outside cs := by
  have hq : c ≠ '"' := by
    rintro rfl
    cases hs
  rw [compact, if_neg hq, if_pos hs]

theorem compact_plain {c : Char} (hq : c ≠ '"') (hb : c ≠ '\\') (cs : List Char) :
    compact .inString (c :: cs) = c :: compact .inString cs := by
  rw [compact, if_neg hq, if_neg hb]

theorem compact_escape (c : Char) (cs : List Char) :
    compact .inString ('\\' :: c :: cs) = '\\' :: c :: compact .inString cs := rfl

theorem compact_escapeChar (c : Char) (cs : List Char) :
    compact .inString (escapeChar c ++ cs) = escapeChar c ++ compact .inString cs := by
  unfold escapeChar
  split_ifs with h₁ h₂ h₃ h₄ h₅ h₆ h₇ h₈
  · exact compact_escape '"' cs
  · exact compact_escape '\\' cs
  · exact compact_escape 'b' cs
  · exact compact_escape 't' cs
  · exact compact_escape 'n' cs
  · exact compact_escape 'f' cs
  · exact compact_escape 'r' cs
  · have hhigh := hexDigit_ne (c.toNat / 16) (by omega)
    have hlow := hexDigit_ne (c.toNat % 16) (by omega)
    show compact .inString ('\\' :: 'u' :: '0' :: '0' :: hexDigit (c.toNat / 16) :: hexDigit (c.toNat % 16) :: cs) = _
    rw [compact_escape, compact_plain (by decide) (by decide), compact_plain (by decide) (by decide),
      compact_plain hhigh.1 hhigh.2, compact_plain hlow.1 hlow.2]
    rfl
  · exact compact_plain h₁ h₂ cs

theorem compact_quoteTail (s : String) (cs : List Char) :
    compact .inString (quoteTail s ++ cs) = quoteTail s ++ compact .outside cs := by
  have hchars : ∀ l cs : List Char, compact .inString (l.flatMap escapeChar ++ cs) =
      l.flatMap escapeChar ++ compact .inString cs := by
    intro l cs
    induction l with
    | nil => rfl
    | cons c l ih => rw [List.flatMap_cons, List.append_assoc, compact_escapeChar, ih, List.append_assoc]
  rw [quoteTail, List.append_assoc, hchars, List.append_assoc]
  rfl

theorem compact_quoted (s : String) (cs : List Char) :
    compact .outside ('"' :: (quoteTail s ++ cs)) = '"' :: (quoteTail s ++ compact .outside cs) := by
  rw [← compact_quoteTail]
  rfl

/-- A character that is neither a blank nor begins a text. -/
def isToken (c : Char) : Bool := c != '"' && !isJsonSpace c

theorem compact_tokens {l : List Char} (h : l.all isToken = true) (cs : List Char) :
    compact .outside (l ++ cs) = l ++ compact .outside cs := by
  induction l with
  | nil => rfl
  | cons c l ih =>
    rw [List.all_cons, Bool.and_eq_true] at h
    obtain ⟨hc, hl⟩ := h
    simp only [isToken, Bool.and_eq_true, bne_iff_ne, ne_eq, Bool.not_eq_true'] at hc
    rw [List.cons_append, compact_token hc.1 hc.2, ih hl, List.cons_append]

theorem compact_newLine (indent : Nat) (cs : List Char) :
    compact .outside (newLine indent ++ cs) = compact .outside cs := by
  have hspaces : ∀ n, compact .outside (List.replicate n ' ' ++ cs) = compact .outside cs := by
    intro n
    induction n with
    | zero => rfl
    | succ n ih => rw [List.replicate_succ, List.cons_append, compact_space (by decide), ih]
  rw [newLine, List.cons_append, compact_space (by decide), hspaces]

section Values

variable {ν : Type} [NumberFormat ν]

theorem isToken_of_isNumberChar {c : Char} (h : isNumberChar c = true) : isToken c = true := by
  simp only [isToken, Bool.and_eq_true, bne_iff_ne, ne_eq, Bool.not_eq_true']
  constructor
  · rintro rfl
    revert h
    decide
  · by_contra hs
    simp only [isJsonSpace, Bool.not_eq_false, Bool.or_eq_true, beq_iff_eq] at hs
    rcases hs with ((rfl | rfl) | rfl) | rfl <;> revert h <;> decide

mutual

theorem compact_indentedChars : ∀ (v : Json ν) (indent : Nat) (cs : List Char),
    compact .outside (indentedChars indent v ++ cs) = stringifyChars v ++ compact .outside cs
  | .null, _, cs => compact_tokens (l := "null".toList) rfl cs
  | .bool true, _, cs => compact_tokens (l := "true".toList) rfl cs
  | .bool false, _, cs => compact_tokens (l := "false".toList) rfl cs
  | .num n, _, cs =>
    compact_tokens (List.all_eq_true.mpr fun c hc => isToken_of_isNumberChar (NumberFormat.toText_chars n c hc)) cs
  | .str s, _, cs => by
    simp only [indentedChars, stringifyChars, List.cons_append]
    exact compact_quoted s cs
  | .arr [], _, cs => compact_tokens (l := ['[', ']']) rfl cs
  | .obj [], _, cs => compact_tokens (l := ['{', '}']) rfl cs
  | .arr (v :: items), indent, cs => by
    simp only [indentedChars, stringifyChars, List.cons_append, List.append_assoc]
    rw [compact_token (by decide) (by decide), compact_newLine, compact_indentedChars v, compact_indentedItems items]
  | .obj ((k, v) :: fields), indent, cs => by
    simp only [indentedChars, stringifyChars, List.cons_append, List.append_assoc]
    rw [compact_token (by decide) (by decide), compact_newLine, compact_quoted, compact_token (by decide) (by decide),
      compact_space (by decide), compact_indentedChars v, compact_indentedFields fields]

theorem compact_indentedItems : ∀ (items : List (Json ν)) (indent : Nat) (cs : List Char),
    compact .outside (indentedItems indent items ++ cs) = stringifyItems items ++ compact .outside cs
  | [], indent, cs => by
    rw [indentedItems, List.append_assoc, compact_newLine]
    exact compact_tokens rfl cs
  | v :: items, indent, cs => by
    simp only [indentedItems, stringifyItems, List.cons_append, List.append_assoc]
    rw [compact_token (by decide) (by decide), compact_newLine, compact_indentedChars v, compact_indentedItems items]

theorem compact_indentedFields : ∀ (fields : List (String × Json ν)) (indent : Nat) (cs : List Char),
    compact .outside (indentedFields indent fields ++ cs) = stringifyFields fields ++ compact .outside cs
  | [], indent, cs => by
    rw [indentedFields, List.append_assoc, compact_newLine]
    exact compact_tokens rfl cs
  | (k, v) :: fields, indent, cs => by
    simp only [indentedFields, stringifyFields, List.cons_append, List.append_assoc]
    rw [compact_token (by decide) (by decide), compact_newLine, compact_quoted, compact_token (by decide) (by decide),
      compact_space (by decide), compact_indentedChars v, compact_indentedFields fields]

end

/-- Values that are written alike with indentation are written alike without. -/
theorem stringify_eq_of_indentedChars {v w : Json ν} (h : indentedChars 0 v = indentedChars 0 w) :
    stringify v = stringify w := by
  have hv := compact_indentedChars v 0 []
  rw [h, compact_indentedChars w 0 []] at hv
  rw [stringify, stringify, List.append_cancel_right hv]

end Values

end ZkPayroll.Draft
