import ZkPayroll.Framework.Firsts
import ZkPayroll.Redaction.RedactionEngine

/-!
# What a redacted error tells

`redactError` with options. The message is redacted field by field; the stack is
kept as it is, so that it tells what the message does not. Messages that differ
only in the values of sensitive assignments (`SameButValues`) have one redacted
text: a pass for one field replaces the values of its assignments, and neither
makes nor hides an assignment elsewhere (`begins_redactField`), so that what the
passes that are left have to replace gets less (`SameButValues.redactField`).
An assignment that begins inside the value of another ends with it (`IsValue`);
one that goes beyond is taken apart, or not, by the order of the fields.
-/

namespace ZkPayroll.Redaction

open Framework ZkPayroll.Core

/-! ## Options -/

/-- What `redactError` reads of the options. -/
structure RedactErrorOptions where
  additionalFields : List String := []
  placeholder : Option String := none

variable (options : RedactErrorOptions)

/-- The set of fields, in the order of the passes. -/
def sensitiveFields : List String :=
  firsts id [] (defaultSensitiveFields ++ options.additionalFields)

/-- What a value is replaced by. -/
def placeholderOf : List Char := (options.placeholder.getD "[redacted]").toList

/-- The passes for the fields, one after the other. A field is a word, and the
placeholder has no `$`, which would be a pattern of the replacement. -/
def redactMessageWith (message : String) : String :=
  String.ofList <| (sensitiveFields options).foldl
    (fun cs field => redactField field.toList (placeholderOf options) 0 cs) message.toList

/-- The message of the error that a constructor makes. -/
def constructedMessage (kind : ErrorClass) (message : String) : String :=
  match kind with
  | .batchValidationFailed => s!"Batch validation failed with {(codeUnits message).length} error(s)"
  | _ => message

/-- `redactError(error, options)` -/
def redactErrorWith (error : SdkError) : SdkError :=
  { redactError error with message := constructedMessage error.kind (redactMessageWith options error.message) }

/-! ## Assignments -/

/-- What stands between a label and its value. -/
def isSeparator (c : Char) : Bool := c == ':' || c == '='

/-- An assignment to the field begins here. -/
def begins (field cs : List Char) : Bool := (matchAssignment field cs).isSome

/-- A value follows, after white space. -/
def seesValue : List Char → Bool
  | [] => false
  | c :: cs => if isSpace c then seesValue cs else isValueChar c

/-- A separator and a value follow. -/
def seesSeparator : List Char → Bool
  | [] => false
  | c :: cs => if isSpace c then seesSeparator cs else isSeparator c && seesValue cs

/-- A character of a word. -/
def isWordChar (c : Char) : Bool :=
  (48 ≤ c.toNat && c.toNat ≤ 57) || (65 ≤ c.toNat && c.toNat ≤ 90) || c.toNat == 95 || (97 ≤ c.toNat && c.toNat ≤ 122)

/-- A field's name is a word. -/
def IsWord (field : List Char) : Prop := field ≠ [] ∧ ∀ c ∈ field, isWordChar c = true

theorem seesValue_eq (cs : List Char) : seesValue cs = (cs.dropWhile isSpace).head?.any isValueChar := by
  induction cs with
  | nil => rfl
  | cons c cs ih =>
    rw [seesValue, List.dropWhile_cons]
    split
    · exact ih
    · rfl

theorem seesSeparator_eq (cs : List Char) :
    seesSeparator cs =
      match cs.dropWhile isSpace with
      | [] => false
      | c :: rest => isSeparator c && seesValue rest := by
  induction cs with
  | nil => rfl
  | cons c cs ih =>
    rw [seesSeparator, List.dropWhile_cons]
    split
    · exact ih
    · rfl

theorem length_takeWhile_pos {cs : List Char} :
    0 < (cs.takeWhile isValueChar).length ↔ cs.head?.any isValueChar = true := by
  cases cs with
  | nil => simp
  | cons c cs =>
    rw [List.takeWhile_cons]
    split <;> simp [*]

theorem begins_eq (field cs : List Char) :
    begins field cs = (dropPrefixInsensitive (field.map lowerAscii) cs).any seesSeparator := by
  rw [begins, matchAssignment]
  cases dropPrefixInsensitive (field.map lowerAscii) cs with
  | none => rfl
  | some rest =>
    rw [Option.any_some, seesSeparator_eq]
    dsimp only
    cases hrest : rest.dropWhile isSpace with
    | nil => rfl
    | cons c rest' =>
      have hvalue : 0 < ((rest'.dropWhile isSpace).takeWhile isValueChar).length ↔ seesValue rest' = true := by
        rw [length_takeWhile_pos, seesValue_eq]
      have hsep : (c = ':' ∨ c = '=') ↔ isSeparator c = true := by simp [isSeparator]
      simp only [hvalue, hsep]
      split
      next h => simp [h]
      next h => simpa using h

/-! ## Words -/

variable {c : Char}

theorem isWordChar_of_lower (h : isWordChar (lowerAscii c) = true) : isWordChar c = true := by
  by_cases hupper : 65 ≤ c.toNat ∧ c.toNat ≤ 90
  · simp [isWordChar, hupper]
  · rwa [lowerAscii, if_neg hupper] at h

theorem wordChar_lt (h : isWordChar c = true) : c.toNat < 128 := by
  simp [isWordChar] at h
  omega

theorem isWordChar_lower (h : isWordChar c = true) : isWordChar (lowerAscii c) = true := by
  have hlt := wordChar_lt h
  revert h
  apply of_codePoints (P := fun c => isWordChar c = true → isWordChar (lowerAscii c) = true) _ hlt
  decide

/-- A letter of a word is a character of a value, and not one of those between a
field and its value. -/
theorem value_of_word (h : isWordChar c = true) :
    isValueChar c = true ∧ isSpace c = false ∧ isSeparator c = false := by
  have hlt := wordChar_lt h
  revert h
  apply of_codePoints (P := fun c => isWordChar c = true →
    isValueChar c = true ∧ isSpace c = false ∧ isSeparator c = false) _ hlt
  decide

/-- What is no character of a value, or is a separator, is in no word. -/
theorem lower_ne_of_not_word {field : List Char} {p c : Char} (hf : IsWord field) (hp : p ∈ field.map lowerAscii)
    (hc : isWordChar c = false) : lowerAscii c ≠ p := by
  intro heq
  obtain ⟨d, hd, rfl⟩ := List.mem_map.mp hp
  have hword := isWordChar_of_lower (heq ▸ isWordChar_lower (hf.2 d hd))
  rw [hc] at hword
  cases hword

/-! ## Labels -/

/-- A field, and what is between it and its value. -/
structure Label where
  name : List Char
  separator : Char
  gap : List Char
  name_free : ∀ c ∈ name, isSeparator c = false
  separates : isSeparator separator = true
  gap_space : ∀ c ∈ gap, isSpace c = true

/-- The label as it is written. -/
def Label.text (label : Label) : List Char := label.name ++ label.separator :: label.gap

/-- An assignment to the field begins in the label. -/
def Label.owns (field : List Char) (label : Label) : Bool :=
  label.name.tails.any fun s => begins field (s ++ label.separator :: (label.gap ++ ['x']))

/-- A value, as far as it goes. The assignments that begin in it end with it. -/
structure IsValue (fields : List (List Char)) (value rest : List Char) : Prop where
  ne_nil : value ≠ []
  chars : ∀ c ∈ value, isValueChar c = true
  ends : ∀ c ∈ rest.head?, isValueChar c = false
  inside : ∀ s, s ≠ [] → s <:+ value → ∀ field ∈ fields, begins field (s ++ rest) = begins field s

theorem not_space_of_separator (h : isSeparator c = true) : isSpace c = false ∧ isWordChar c = false := by
  simp only [isSeparator, Bool.or_eq_true, beq_iff_eq] at h
  rcases h with rfl | rfl
  · decide
  · decide

theorem not_space_of_value (h : isValueChar c = true) : isSpace c = false := by
  simp only [isValueChar, Bool.not_eq_true', Bool.or_eq_false_iff] at h
  exact h.1.1

section Congruence

variable {separator : Char} {t t' : List Char}

theorem seesValue_congr (hs : isSeparator separator = true) (pre : List Char) :
    seesValue (pre ++ separator :: t) = seesValue (pre ++ separator :: t') := by
  induction pre with
  | nil => simp [seesValue, (not_space_of_separator hs).1]
  | cons c pre ih => simp only [List.cons_append, seesValue, ih]

theorem seesSeparator_congr (hs : isSeparator separator = true) (ht : seesValue t = true) (ht' : seesValue t' = true)
    (pre : List Char) : seesSeparator (pre ++ separator :: t) = seesSeparator (pre ++ separator :: t') := by
  induction pre with
  | nil => simp [seesSeparator, (not_space_of_separator hs).1, ht, ht']
  | cons c pre ih =>
    have hvalue : seesValue (pre ++ separator :: t) = seesValue (pre ++ separator :: t') := seesValue_congr hs pre
    simp only [List.cons_append, seesSeparator, ih, hvalue]

/-- Whether an assignment begins depends on no more than that a value follows
its separator. -/
theorem begins_congr {field : List Char} (hf : IsWord field) (hs : isSeparator separator = true)
    (ht : seesValue t = true) (ht' : seesValue t' = true) (pre : List Char) :
    begins field (pre ++ separator :: t) = begins field (pre ++ separator :: t') := by
  have hprefix : ∀ pattern pre, (∀ p ∈ pattern, lowerAscii separator ≠ p) →
      (dropPrefixInsensitive pattern (pre ++ separator :: t)).any seesSeparator =
        (dropPrefixInsensitive pattern (pre ++ separator :: t')).any seesSeparator := by
    intro pattern
    induction pattern with
    | nil => exact fun pre _ => seesSeparator_congr hs ht ht' pre
    | cons p pattern ih =>
      intro pre hne
      cases pre with
      | nil => simp [dropPrefixInsensitive, hne p List.mem_cons_self]
      | cons c pre =>
        simp only [List.cons_append, dropPrefixInsensitive]
        split
        · exact ih pre fun q hq => hne q (List.mem_cons_of_mem p hq)
        · rfl
  rw [begins_eq, begins_eq]
  exact hprefix _ pre fun p hp => lower_ne_of_not_word hf hp (not_space_of_separator hs).2

end Congruence

/-- No assignment begins at what is not in a word. -/
theorem begins_of_not_word {field : List Char} (hf : IsWord field) (hc : isWordChar c = false)
    (cs : List Char) : begins field (c :: cs) = false := by
  obtain ⟨d, field', rfl⟩ := List.exists_cons_of_ne_nil hf.1
  rw [begins_eq, List.map_cons, dropPrefixInsensitive, if_neg (lower_ne_of_not_word hf List.mem_cons_self hc)]
  rfl

theorem seesValue_gap {gap value : List Char} (hgap : ∀ c ∈ gap, isSpace c = true) {v : Char}
    (hv : isValueChar v = true) : seesValue (gap ++ v :: value) = true := by
  induction gap with
  | nil => simp [seesValue, hv, not_space_of_value hv]
  | cons c gap ih =>
    rw [List.cons_append, seesValue, if_pos (hgap c List.mem_cons_self)]
    exact ih fun d hd => hgap d (List.mem_cons_of_mem c hd)

theorem Label.text_append (label : Label) (t : List Char) :
    label.text ++ t = label.name ++ label.separator :: (label.gap ++ t) := by
  rw [text, List.append_assoc, List.cons_append]

/-- A word leaves a rest of the name before a separator. -/
theorem dropPrefixInsensitive_name {separator : Char} {t : List Char} : ∀ {pattern name r : List Char},
    (∀ p ∈ pattern, lowerAscii separator ≠ p) → (∀ c ∈ name, isSeparator c = false) →
      dropPrefixInsensitive pattern (name ++ separator :: t) = some r →
        ∃ name', (∀ c ∈ name', isSeparator c = false) ∧ r = name' ++ separator :: t
  | [], name, r, _, hname, h => ⟨name, hname, (Option.some.inj h).symm⟩
  | p :: pattern, [], r, hne, _, h => by
    rw [List.nil_append, dropPrefixInsensitive, if_neg (hne p List.mem_cons_self)] at h
    cases h
  | p :: pattern, c :: name, r, hne, hname, h => by
    rw [List.cons_append, dropPrefixInsensitive] at h
    split at h
    · exact dropPrefixInsensitive_name (fun q hq => hne q (List.mem_cons_of_mem p hq))
        (fun d hd => hname d (List.mem_cons_of_mem c hd)) h
    · cases h

/-- The separator that is seen after white space is the first one. -/
theorem dropWhile_name {separator : Char} (hs : isSeparator separator = true) {t : List Char} : ∀ {name : List Char},
    (∀ c ∈ name, isSeparator c = false) → seesSeparator (name ++ separator :: t) = true →
      (name ++ separator :: t).dropWhile isSpace = separator :: t
  | [], _, _ => List.dropWhile_cons_of_neg (by simp [(not_space_of_separator hs).1])
  | c :: name, hname, h => by
    rw [List.cons_append, seesSeparator] at h
    rw [List.cons_append]
    split at h
    next hc =>
      rw [List.dropWhile_cons_of_pos hc]
      exact dropWhile_name hs (fun d hd => hname d (List.mem_cons_of_mem c hd)) h
    next => simp [hname c List.mem_cons_self] at h

theorem dropWhile_gap {gap value rest : List Char} (hgap : ∀ c ∈ gap, isSpace c = true) (hne : value ≠ [])
    (hchars : ∀ c ∈ value, isValueChar c = true) : (gap ++ (value ++ rest)).dropWhile isSpace = value ++ rest := by
  obtain ⟨v, value', rfl⟩ := List.exists_cons_of_ne_nil hne
  rw [List.dropWhile_append_of_pos hgap]
  exact List.dropWhile_cons_of_neg (by simp [not_space_of_value (hchars v List.mem_cons_self)])

theorem takeWhile_value {value rest : List Char} (hchars : ∀ c ∈ value, isValueChar c = true)
    (hends : ∀ c ∈ rest.head?, isValueChar c = false) : (value ++ rest).takeWhile isValueChar = value := by
  rw [List.takeWhile_append_of_pos hchars]
  cases rest with
  | nil => rw [List.takeWhile_nil, List.append_nil]
  | cons c rest => rw [List.takeWhile_cons_of_neg (by simp [hends c rfl]), List.append_nil]

/-- The match of a field is its label, and the value after it. -/
theorem Label.matchAssignment_eq (label : Label) {field value rest : List Char} (hf : IsWord field) (hne : value ≠ [])
    (hchars : ∀ c ∈ value, isValueChar c = true) (hends : ∀ c ∈ rest.head?, isValueChar c = false)
    (h : begins field (label.text ++ (value ++ rest)) = true) :
    matchAssignment field (label.text ++ (value ++ rest)) = some (label.text, value.length) := by
  rw [begins_eq, text_append] at h
  rw [matchAssignment, text_append]
  cases hdrop : dropPrefixInsensitive (field.map lowerAscii)
      (label.name ++ label.separator :: (label.gap ++ (value ++ rest))) with
  | none =>
    rw [hdrop] at h
    cases h
  | some r =>
    rw [hdrop, Option.any_some] at h
    obtain ⟨name', hname', rfl⟩ := dropPrefixInsensitive_name
      (fun p hp => lower_ne_of_not_word hf hp (not_space_of_separator label.separates).2) label.name_free hdrop
    dsimp only
    rw [dropWhile_name label.separates hname' h]
    dsimp only
    have hsep : label.separator = ':' ∨ label.separator = '=' := by simpa [isSeparator] using label.separates
    have hlen : (label.text ++ (value ++ rest)).length - (value ++ rest).length = label.text.length := by
      rw [List.length_append, Nat.add_sub_cancel]
    rw [dropWhile_gap label.gap_space hne hchars, takeWhile_value hchars hends,
      if_pos ⟨hsep, List.length_pos_iff.mpr hne⟩, ← text_append, hlen, List.take_left]

theorem not_separator_of_space (h : isSpace c = true) : isSeparator c = false := by
  cases hs : isSeparator c with
  | false => rfl
  | true => rw [(not_space_of_separator hs).1] at h; cases h

theorem seesSeparator_split : ∀ {cs : List Char}, seesSeparator cs = true →
    ∃ name separator t, (∀ c ∈ name, isSeparator c = false) ∧ isSeparator separator = true ∧ seesValue t = true ∧
      cs = name ++ separator :: t
  | [], h => by cases h
  | c :: cs, h => by
    rw [seesSeparator] at h
    split at h
    next hc =>
      obtain ⟨name, separator, t, hname, hs, ht, rfl⟩ := seesSeparator_split h
      exact ⟨c :: name, separator, t, List.forall_mem_cons.mpr ⟨not_separator_of_space hc, hname⟩, hs, ht, rfl⟩
    next =>
      obtain ⟨hs, ht⟩ := Bool.and_eq_true_iff.mp h
      exact ⟨[], c, cs, List.forall_mem_nil _, hs, ht, rfl⟩

theorem dropPrefixInsensitive_split : ∀ {pattern cs r : List Char}, dropPrefixInsensitive pattern cs = some r →
    ∃ pre, cs = pre ++ r ∧ ∀ c ∈ pre, lowerAscii c ∈ pattern
  | [], cs, r, h => ⟨[], Option.some.inj h, List.forall_mem_nil _⟩
  | p :: pattern, [], r, h => by cases h
  | p :: pattern, c :: cs, r, h => by
    rw [dropPrefixInsensitive] at h
    split at h
    next heq =>
      obtain ⟨pre, rfl, hpre⟩ := dropPrefixInsensitive_split h
      exact ⟨c :: pre, rfl, List.forall_mem_cons.mpr
        ⟨heq ▸ List.mem_cons_self, fun d hd => List.mem_cons_of_mem p (hpre d hd)⟩⟩
    next => cases h

/-- An assignment has a first separator, and a value after it. -/
theorem begins_split {field cs : List Char} (hf : IsWord field) (h : begins field cs = true) :
    ∃ name separator t, (∀ c ∈ name, isSeparator c = false) ∧ isSeparator separator = true ∧ seesValue t = true ∧
      cs = name ++ separator :: t := by
  rw [begins_eq, Option.any_eq_true] at h
  obtain ⟨r, hr, hsees⟩ := h
  obtain ⟨pre, rfl, hpre⟩ := dropPrefixInsensitive_split hr
  obtain ⟨name, separator, t, hname, hs, ht, rfl⟩ := seesSeparator_split hsees
  have hfree : ∀ c ∈ pre, isSeparator c = false := by
    intro c hc
    cases hsep : isSeparator c with
    | false => rfl
    | true => exact absurd rfl (lower_ne_of_not_word hf (hpre c hc) (not_space_of_separator hsep).2)
  exact ⟨pre ++ name, separator, t, List.forall_mem_append.mpr ⟨hfree, hname⟩, hs, ht, (List.append_assoc ..).symm⟩

/-- An assignment in a value has no white space, so that its own value is all
that follows. -/
theorem begins_in_value {field value : List Char} (hf : IsWord field) (hchars : ∀ c ∈ value, isValueChar c = true)
    (h : begins field value = true) :
    ∃ (label : Label) (w : List Char), label.gap = [] ∧ w ≠ [] ∧ (∀ c ∈ w, isValueChar c = true) ∧
      value = label.text ++ w := by
  obtain ⟨name, separator, t, hname, hs, ht, rfl⟩ := begins_split hf h
  refine ⟨⟨name, separator, [], hname, hs, List.forall_mem_nil _⟩, t, rfl, ?_, ?_, ?_⟩
  · rintro rfl
    cases ht
  · exact fun c hc => hchars c (List.mem_append_right name (List.mem_cons_of_mem separator hc))
  · rw [Label.text_append]
    rfl

/-! ## One pass -/

section Pass

variable {field placeholder : List Char} {fields : List (List Char)}

theorem redactField_skip (k : Nat) (cs : List Char) :
    redactField field placeholder k cs = redactField field placeholder 0 (cs.drop k) := by
  induction cs generalizing k with
  | nil => cases k <;> rfl
  | cons c cs ih =>
    cases k with
    | zero => rfl
    | succ k => rw [redactField, ih, List.drop_succ_cons]

theorem redactField_of_not_begins {c : Char} {cs : List Char} (h : begins field (c :: cs) = false) :
    redactField field placeholder 0 (c :: cs) = c :: redactField field placeholder 0 cs := by
  rw [redactField]
  cases hmatch : matchAssignment field (c :: cs) with
  | none => rfl
  | some m => simp [begins, hmatch] at h

theorem redactField_of_not_word (hf : IsWord field) {label : List Char} (h : ∀ c ∈ label, isWordChar c = false)
    (cs : List Char) : redactField field placeholder 0 (label ++ cs) = label ++ redactField field placeholder 0 cs := by
  induction label with
  | nil => rfl
  | cons c label ih =>
    have hc : begins field (c :: (label ++ cs)) = false := begins_of_not_word hf (h c List.mem_cons_self) _
    rw [List.cons_append, redactField_of_not_begins hc, ih fun d hd => h d (List.mem_cons_of_mem c hd),
      List.cons_append]

theorem redactField_of_match {label value rest : List Char} (hne : label ≠ [])
    (h : matchAssignment field (label ++ (value ++ rest)) = some (label, value.length)) :
    redactField field placeholder 0 (label ++ (value ++ rest)) =
      label ++ (placeholder ++ redactField field placeholder 0 rest) := by
  obtain ⟨c, label, rfl⟩ := List.exists_cons_of_ne_nil hne
  rw [List.cons_append] at h ⊢
  rw [redactField, h]
  dsimp only
  have hdrop : (label ++ (value ++ rest)).drop ((c :: label).length + value.length - 1) = rest := by
    have hlen : (c :: label).length + value.length - 1 = (label ++ value).length := by
      rw [List.length_cons, List.length_append]
      omega
    rw [hlen, ← List.append_assoc, List.drop_left]
  rw [redactField_skip, hdrop, List.append_assoc, List.cons_append]

variable (label : Label)

theorem Label.text_ne_nil : label.text ≠ [] := by
  simp [text]

variable {value rest : List Char}

/-- The value of an assignment is replaced. -/
theorem Label.redactField_eq (hf : IsWord field) (hne : value ≠ [])
    (hchars : ∀ c ∈ value, isValueChar c = true) (hends : ∀ c ∈ rest.head?, isValueChar c = false)
    (h : begins field (label.text ++ (value ++ rest)) = true) :
    redactField field placeholder 0 (label.text ++ (value ++ rest)) =
      label.text ++ (placeholder ++ redactField field placeholder 0 rest) :=
  redactField_of_match label.text_ne_nil (label.matchAssignment_eq hf hne hchars hends h)

/-- The assignment that begins in a value, after a pass. -/
theorem redactField_in_value (placeholder : List Char) (hf : IsWord field) {value : List Char}
    (hchars : ∀ c ∈ value, isValueChar c = true) (h : begins field value = true) :
    ∃ (label : Label) (w : List Char), label.gap = [] ∧ w ≠ [] ∧ (∀ c ∈ w, isValueChar c = true) ∧
      value = label.text ++ w ∧ redactField field placeholder 0 value = label.text ++ placeholder := by
  obtain ⟨label, w, hgap, hw, hwchars, rfl⟩ := begins_in_value hf hchars h
  refine ⟨label, w, hgap, hw, hwchars, rfl, ?_⟩
  rw [← List.append_nil w] at h ⊢
  rw [label.redactField_eq hf hw hwchars (by simp) h, redactField, List.append_nil]

/-- A pass redacts a value apart from what follows it. -/
theorem redactField_value (hf : IsWord field) (hchars : ∀ c ∈ value, isValueChar c = true)
    (hends : ∀ c ∈ rest.head?, isValueChar c = false)
    (hinside : ∀ s, s ≠ [] → s <:+ value → begins field (s ++ rest) = begins field s) :
    redactField field placeholder 0 (value ++ rest) =
      redactField field placeholder 0 value ++ redactField field placeholder 0 rest := by
  induction value with
  | nil => rfl
  | cons c value ih =>
    have hself := hinside (c :: value) (List.cons_ne_nil c value) (List.suffix_refl _)
    cases h : begins field (c :: value) with
    | true =>
      obtain ⟨label, w, -, hw, hwchars, heq, halone⟩ := redactField_in_value placeholder hf hchars h
      rw [h, heq, List.append_assoc] at hself
      rw [halone, heq, List.append_assoc, label.redactField_eq hf hw hwchars hends hself, List.append_assoc]
    | false =>
      rw [h, List.cons_append] at hself
      rw [List.cons_append, redactField_of_not_begins hself, redactField_of_not_begins h,
        ih (fun d hd => hchars d (List.mem_cons_of_mem c hd))
          (fun s hne hs => hinside s hne (hs.trans (List.suffix_cons c value))), List.cons_append]

theorem Label.seesValue_gap {value : List Char} (rest : List Char) (hne : value ≠ [])
    (hchars : ∀ c ∈ value, isValueChar c = true) : seesValue (label.gap ++ (value ++ rest)) = true := by
  obtain ⟨v, value', rfl⟩ := List.exists_cons_of_ne_nil hne
  exact Redaction.seesValue_gap label.gap_space (hchars v List.mem_cons_self)

theorem not_word_of_space {c : Char} (h : isSpace c = true) : isWordChar c = false := by
  cases hw : isWordChar c with
  | false => rfl
  | true => rw [(value_of_word hw).2.1] at h; cases h

theorem Label.owns_cons {c : Char} {name : List Char} {separator : Char} {gap : List Char}
    {hname : ∀ d ∈ c :: name, isSeparator d = false} {hs : isSeparator separator = true}
    {hgap : ∀ d ∈ gap, isSpace d = true} (hname' : ∀ d ∈ name, isSeparator d = false) :
    owns field ⟨c :: name, separator, gap, hname, hs, hgap⟩ =
      (begins field (c :: name ++ separator :: (gap ++ ['x'])) || owns field ⟨name, separator, gap, hname', hs, hgap⟩) := by
  rfl

theorem Label.owns_nil (hf : IsWord field) {separator : Char} {gap : List Char}
    {hname : ∀ d ∈ [], isSeparator d = false} {hs : isSeparator separator = true} {hgap : ∀ d ∈ gap, isSpace d = true} :
    owns field ⟨[], separator, gap, hname, hs, hgap⟩ = false := by
  simp [owns, begins_of_not_word hf (not_space_of_separator hs).2]

/-- A pass replaces the value if an assignment to its field begins in the label,
whatever the value. -/
theorem redactField_assignment (hf : IsWord field) (hmem : field ∈ fields) (label : Label)
    (hv : IsValue fields value rest) :
    redactField field placeholder 0 (label.text ++ (value ++ rest)) =
      label.text ++ ((if label.owns field then placeholder else redactField field placeholder 0 value) ++
        redactField field placeholder 0 rest) := by
  have hsees := label.seesValue_gap rest hv.ne_nil hv.chars
  obtain ⟨name, separator, gap, hname, hs, hgap⟩ := label
  induction name with
  | nil =>
    have hlabel : ∀ c ∈ separator :: gap, isWordChar c = false :=
      List.forall_mem_cons.mpr ⟨(not_space_of_separator hs).2, fun c hc => not_word_of_space (hgap c hc)⟩
    have hvalue : redactField field placeholder 0 (value ++ rest) =
        redactField field placeholder 0 value ++ redactField field placeholder 0 rest :=
      redactField_value hf hv.chars hv.ends fun s hne hs => hv.inside s hne hs field hmem
    rw [Label.owns_nil hf, if_neg Bool.false_ne_true]
    dsimp only [Label.text]
    rw [List.nil_append, redactField_of_not_word hf hlabel, hvalue]
  | cons c name ih =>
    have hname' : ∀ d ∈ name, isSeparator d = false := fun d hd => hname d (List.mem_cons_of_mem c hd)
    have hbegins : begins field (c :: name ++ separator :: (gap ++ (value ++ rest))) =
        begins field (c :: name ++ separator :: (gap ++ ['x'])) :=
      begins_congr hf hs hsees (seesValue_gap hgap (by decide)) (c :: name)
    rw [Label.owns_cons hname']
    cases h : begins field (c :: name ++ separator :: (gap ++ ['x'])) with
    | true =>
      rw [h, ← Label.text_append ⟨c :: name, separator, gap, hname, hs, hgap⟩] at hbegins
      rw [Bool.true_or, if_pos rfl, Label.redactField_eq _ hf hv.ne_nil hv.chars hv.ends hbegins]
    | false =>
      rw [h, List.cons_append] at hbegins
      rw [Bool.false_or, Label.text_append, Label.text_append]
      have hrest := ih hname' hsees
      rw [Label.text_append, Label.text_append] at hrest
      dsimp only at hrest ⊢
      rw [List.cons_append, redactField_of_not_begins hbegins, hrest, List.cons_append]

end Pass

/-! ## Messages that differ in values -/

/-- The placeholder is a value, and begins no assignment whatever follows it. -/
structure IsPlain (fields : List (List Char)) (placeholder : List Char) : Prop where
  ne_nil : placeholder ≠ []
  chars : ∀ c ∈ placeholder, isValueChar c = true
  free : ∀ c ∈ placeholder, isSeparator c = false
  no_field : ∀ field ∈ fields, ¬ field.map lowerAscii <:+ placeholder.map lowerAscii

section Messages

variable (fields : List (List Char))

/-- The messages differ only in values of assignments to pending fields. -/
inductive SameButValues (pending : List (List Char)) : List Char → List Char → Prop
  | nil : SameButValues pending [] []
  | char {c : Char} {cs cs' : List Char} (h : ∀ field ∈ fields, begins field (c :: cs) = false)
      (h' : ∀ field ∈ fields, begins field (c :: cs') = false) (rest : SameButValues pending cs cs') :
      SameButValues pending (c :: cs) (c :: cs')
  | assignment (label : Label) {value value' rest rest' : List Char} (hv : IsValue fields value rest)
      (hv' : IsValue fields value' rest') (same : value = value' ∨ ∃ field ∈ pending, label.owns field = true)
      (hrest : SameButValues pending rest rest') :
      SameButValues pending (label.text ++ (value ++ rest)) (label.text ++ (value' ++ rest'))

end Messages

section Passes

variable {fields pending : List (List Char)} {field placeholder m m' : List Char}

theorem SameButValues.symm (h : SameButValues fields pending m m') : SameButValues fields pending m' m := by
  induction h with
  | nil => exact .nil
  | char h h' _ ih => exact .char h' h ih
  | assignment label hv hv' same _ ih => exact .assignment label hv' hv (same.imp_left Eq.symm) ih

/-- What is left when no field is pending. -/
theorem SameButValues.eq (h : SameButValues fields [] m m') : m = m' := by
  induction h with
  | nil => rfl
  | char _ _ _ ih => rw [ih]
  | assignment _ _ _ same _ ih =>
    rcases same with rfl | ⟨_, hmem, _⟩
    · rw [ih]
    · cases hmem

/-- A word that has no separator begins no assignment. -/
theorem begins_free (hf : IsWord field) {s : List Char} (h : ∀ c ∈ s, isSeparator c = false) :
    begins field s = false := by
  cases hb : begins field s with
  | false => rfl
  | true =>
    obtain ⟨name, separator, t, -, hs, -, rfl⟩ := begins_split hf hb
    rw [h separator (by simp)] at hs
    cases hs

/-- A word that is not all of a text before what is no value has no separator
after it. -/
theorem any_seesSeparator_free {rest : List Char} (hends : ∀ c ∈ rest.head?, isValueChar c = false) :
    ∀ {pattern s : List Char}, (∀ p ∈ pattern, ∀ c, lowerAscii c = p → isValueChar c = true) →
      (∀ c ∈ s, isValueChar c = true ∧ isSeparator c = false) → pattern ≠ s.map lowerAscii →
        (dropPrefixInsensitive pattern (s ++ rest)).any seesSeparator = false
  | [], [], _, _, hne => absurd rfl hne
  | [], c :: s, _, hs, _ => by
    obtain ⟨hvalue, hsep⟩ := hs c List.mem_cons_self
    simp [dropPrefixInsensitive, seesSeparator, not_space_of_value hvalue, hsep]
  | p :: pattern, [], hpattern, _, _ => by
    cases rest with
    | nil => rfl
    | cons c rest =>
      have hc : lowerAscii c ≠ p := by
        intro heq
        have hvalue := hpattern p List.mem_cons_self c heq
        rw [hends c rfl] at hvalue
        cases hvalue
      rw [List.nil_append, dropPrefixInsensitive, if_neg hc]
      rfl
  | p :: pattern, c :: s, hpattern, hs, hne => by
    rw [List.cons_append, dropPrefixInsensitive]
    split
    next heq =>
      apply any_seesSeparator_free hends (fun q hq => hpattern q (List.mem_cons_of_mem p hq))
        fun d hd => hs d (List.mem_cons_of_mem c hd)
      rintro rfl
      exact hne (by rw [List.map_cons, heq])
    next => rfl

theorem IsPlain.begins_eq (hp : IsPlain fields placeholder) (hf : IsWord field) (hmem : field ∈ fields)
    {s rest : List Char} (hs : s <:+ placeholder) (hends : ∀ c ∈ rest.head?, isValueChar c = false) :
    begins field (s ++ rest) = false := by
  rw [Redaction.begins_eq]
  apply any_seesSeparator_free hends
  · intro p hmem c heq
    obtain ⟨d, hd, rfl⟩ := List.mem_map.mp hmem
    have hword := isWordChar_of_lower (heq ▸ isWordChar_lower (hf.2 d hd))
    exact (value_of_word hword).1
  · exact fun c hc => ⟨hp.chars c (hs.subset hc), hp.free c (hs.subset hc)⟩
  · intro heq
    exact hp.no_field field hmem (heq ▸ hs.map lowerAscii)

/-- The placeholder is a value. -/
theorem IsPlain.isValue (hp : IsPlain fields placeholder) (hfields : ∀ field ∈ fields, IsWord field) {rest : List Char}
    (hends : ∀ c ∈ rest.head?, isValueChar c = false) : IsValue fields placeholder rest where
  ne_nil := hp.ne_nil
  chars := hp.chars
  ends := hends
  inside := by
    intro s hne hs field hmem
    rw [hp.begins_eq (hfields field hmem) hmem hs hends,
      begins_free (hfields field hmem) fun c hc => hp.free c (hs.subset hc)]

/-- A pass leaves a value as it is, or puts the placeholder at its end, after a
label. -/
theorem redactValue_cases (placeholder : List Char) (hf : IsWord field) {value : List Char}
    (hchars : ∀ c ∈ value, isValueChar c = true) :
    redactField field placeholder 0 value = value ∨
      ∃ (pre : List Char) (label : Label) (w : List Char), label.gap = [] ∧ w ≠ [] ∧ (∀ c ∈ w, isValueChar c = true) ∧
        value = pre ++ (label.text ++ w) ∧
        redactField field placeholder 0 value = pre ++ (label.text ++ placeholder) := by
  induction value with
  | nil => exact .inl rfl
  | cons c value ih =>
    cases h : begins field (c :: value) with
    | true =>
      obtain ⟨label, w, hgap, hw, hwchars, heq, hredacted⟩ := redactField_in_value placeholder hf hchars h
      exact .inr ⟨[], label, w, hgap, hw, hwchars, heq, hredacted⟩
    | false =>
      rw [redactField_of_not_begins h]
      rcases ih fun d hd => hchars d (List.mem_cons_of_mem c hd) with
        hsame | ⟨pre, label, w, hgap, hw, hwchars, heq, hredacted⟩
      · exact .inl (congrArg (c :: ·) hsame)
      · exact .inr ⟨c :: pre, label, w, hgap, hw, hwchars, congrArg (c :: ·) heq, congrArg (c :: ·) hredacted⟩

/-- A pass leaves a value of a value. -/
theorem redactValue (hp : IsPlain fields placeholder) (hf : IsWord field) {value : List Char} (hne : value ≠ [])
    (hchars : ∀ c ∈ value, isValueChar c = true) :
    redactField field placeholder 0 value ≠ [] ∧ ∀ c ∈ redactField field placeholder 0 value, isValueChar c = true := by
  rcases redactValue_cases placeholder hf hchars with hsame | ⟨pre, label, w, -, -, -, heq, hredacted⟩
  · rw [hsame]
    exact ⟨hne, hchars⟩
  · rw [hredacted]
    refine ⟨by simp [hp.ne_nil], fun c hc => ?_⟩
    rw [heq] at hchars
    simp only [List.mem_append] at hc hchars
    rcases hc with hc | hc | hc
    · exact hchars c (.inl hc)
    · exact hchars c (.inr (.inl hc))
    · exact hp.chars c hc

/-- A suffix of a text that ends in a label without a gap, and of what follows. -/
theorem Label.suffix_text_append (label : Label) (hgap : label.gap = []) {s pre t : List Char}
    (h : s <:+ pre ++ (label.text ++ t)) : s <:+ t ∨ ∃ x, s = x ++ label.separator :: t := by
  rw [text_append, hgap, List.nil_append, ← List.append_assoc] at h
  obtain ⟨y, hy⟩ := h
  rcases List.append_eq_append_iff.mp hy with ⟨x, -, hs⟩ | ⟨x, -, hs⟩
  · exact .inr ⟨x, hs⟩
  · rcases List.suffix_cons_iff.mp ⟨x, hs.symm⟩ with heq | hsuffix
    · exact .inr ⟨[], heq⟩
    · exact .inl hsuffix

theorem IsValue.redactField (hp : IsPlain fields placeholder) (hfields : ∀ g ∈ fields, IsWord g) (hmem : field ∈ fields)
    {value rest rest' : List Char} (hv : IsValue fields value rest) (hends : ∀ c ∈ rest'.head?, isValueChar c = false)
    (hrest : ∀ g ∈ fields, ∀ pre, begins g (pre ++ rest') = begins g (pre ++ rest)) :
    IsValue fields (redactField field placeholder 0 value) rest' := by
  have hf := hfields field hmem
  obtain ⟨hne, hchars⟩ := redactValue hp hf hv.ne_nil hv.chars
  refine ⟨hne, hchars, hends, fun s hs hsuffix g hg => ?_⟩
  have hwg := hfields g hg
  rcases redactValue_cases placeholder hf hv.chars with hsame | ⟨pre, label, w, hgap, -, -, -, hredacted⟩
  · rw [hsame] at hsuffix
    rw [hrest g hg s, hv.inside s hs hsuffix g hg]
  · rw [hredacted] at hsuffix
    rcases label.suffix_text_append hgap hsuffix with hplain | ⟨x, rfl⟩
    · rw [hp.begins_eq hwg hg hplain hends, begins_free hwg fun d hd => hp.free d (hplain.subset hd)]
    · have hsees := label.seesValue_gap rest' hp.ne_nil hp.chars
      have hsees' := label.seesValue_gap [] hp.ne_nil hp.chars
      rw [hgap, List.nil_append] at hsees
      rw [hgap, List.append_nil, List.nil_append] at hsees'
      rw [List.append_assoc, List.cons_append, begins_congr hwg label.separates hsees hsees' x]

/-- The value of an assignment after a pass. -/
def redactAssigned (field placeholder : List Char) (label : Label) (value : List Char) : List Char :=
  if label.owns field then placeholder else redactField field placeholder 0 value

theorem IsValue.redactAssigned (hp : IsPlain fields placeholder) (hfields : ∀ g ∈ fields, IsWord g)
    (hmem : field ∈ fields) (label : Label) {value rest rest' : List Char} (hv : IsValue fields value rest)
    (hhead : rest'.head? = rest.head?)
    (hrest : ∀ g ∈ fields, ∀ pre, begins g (pre ++ rest') = begins g (pre ++ rest)) :
    IsValue fields (redactAssigned field placeholder label value) rest' := by
  have hends : ∀ c ∈ rest'.head?, isValueChar c = false := hhead ▸ hv.ends
  unfold Redaction.redactAssigned
  split
  · exact hp.isValue hfields hends
  · exact hv.redactField hp hfields hmem hends hrest

/-- A pass keeps the first character, and the assignments that begin before a
message. -/
theorem SameButValues.begins_redactField (hp : IsPlain fields placeholder) (hfields : ∀ g ∈ fields, IsWord g)
    (hmem : field ∈ fields) (h : SameButValues fields pending m m') :
    (redactField field placeholder 0 m).head? = m.head? ∧
      ∀ g ∈ fields, ∀ pre, begins g (pre ++ redactField field placeholder 0 m) = begins g (pre ++ m) := by
  induction h with
  | nil => exact ⟨rfl, fun g _ pre => rfl⟩
  | @char c cs cs' h _ _ ih =>
    rw [redactField_of_not_begins (h field hmem)]
    refine ⟨rfl, fun g hg pre => ?_⟩
    have hrest := ih.2 g hg (pre ++ [c])
    simpa using hrest
  | @assignment label value value' rest rest' hv _ _ _ ih =>
    have hw := hv.redactAssigned hp hfields hmem label ih.1 ih.2
    rw [redactField_assignment (hfields field hmem) hmem label hv]
    refine ⟨?_, fun g hg pre => ?_⟩
    · rw [List.head?_append_of_ne_nil _ label.text_ne_nil, List.head?_append_of_ne_nil _ label.text_ne_nil]
    · have hcongr := begins_congr (hfields g hg) label.separates (label.seesValue_gap _ hw.ne_nil hw.chars)
        (t := label.gap ++ (redactAssigned field placeholder label value ++ redactField field placeholder 0 rest))
        (label.seesValue_gap rest hv.ne_nil hv.chars) (pre ++ label.name)
      rw [label.text_append, label.text_append, ← List.append_assoc, ← List.append_assoc pre]
      exact hcongr

/-- After the pass for a field, its values differ no more. -/
theorem SameButValues.redactField (hp : IsPlain fields placeholder) (hfields : ∀ g ∈ fields, IsWord g)
    (hmem : field ∈ fields) (h : SameButValues fields (field :: pending) m m') :
    SameButValues fields pending (redactField field placeholder 0 m) (redactField field placeholder 0 m') := by
  induction h with
  | nil => exact .nil
  | @char c cs cs' h h' hrest ih =>
    rw [redactField_of_not_begins (h field hmem), redactField_of_not_begins (h' field hmem)]
    have hbegins := (hrest.begins_redactField hp hfields hmem).2
    have hbegins' := (hrest.symm.begins_redactField hp hfields hmem).2
    apply SameButValues.char _ _ ih
    · intro g hg
      exact (hbegins g hg [c]).trans (h g hg)
    · intro g hg
      exact (hbegins' g hg [c]).trans (h' g hg)
  | @assignment label value value' rest rest' hv hv' same hrest ih =>
    obtain ⟨hhead, hbegins⟩ := hrest.begins_redactField hp hfields hmem
    obtain ⟨hhead', hbegins'⟩ := hrest.symm.begins_redactField hp hfields hmem
    rw [redactField_assignment (hfields field hmem) hmem label hv,
      redactField_assignment (hfields field hmem) hmem label hv']
    refine .assignment label (hv.redactAssigned hp hfields hmem label hhead hbegins)
      (hv'.redactAssigned hp hfields hmem label hhead' hbegins') ?_ ih
    cases howns : label.owns field with
    | true => exact .inl rfl
    | false =>
      rcases same with rfl | ⟨g, hg, hg'⟩
      · exact .inl rfl
      · rcases List.mem_cons.mp hg with rfl | hg
        · rw [howns] at hg'
          cases hg'
        · exact .inr ⟨g, hg, hg'⟩

/-- The passes for the pending fields leave no difference. -/
theorem SameButValues.redact (hp : IsPlain fields placeholder) (hfields : ∀ g ∈ fields, IsWord g)
    (hpending : ∀ g ∈ pending, g ∈ fields) (h : SameButValues fields pending m m') :
    pending.foldl (fun cs field => Redaction.redactField field placeholder 0 cs) m =
      pending.foldl (fun cs field => Redaction.redactField field placeholder 0 cs) m' := by
  induction pending generalizing m m' with
  | nil => exact h.eq
  | cons field pending ih =>
    obtain ⟨hmem, hpending⟩ := List.forall_mem_cons.mp hpending
    exact ih hpending (h.redactField hp hfields hmem)

end Passes

/-! ## Redacted errors -/

/-- The fields of the options. -/
def fieldsOf : List (List Char) := (sensitiveFields options).map String.toList

/-- The fields are words, and the placeholder is plain text. -/
structure RedactErrorOptions.Plain (options : RedactErrorOptions) : Prop where
  words : ∀ field ∈ fieldsOf options, IsWord field
  placeholder : IsPlain (fieldsOf options) (placeholderOf options)
  literal : '$' ∉ placeholderOf options

theorem defaultSensitiveFields_nodup : defaultSensitiveFields.Nodup := by
  decide

theorem defaultSensitiveFields_words {field : String} (h : field ∈ defaultSensitiveFields) : IsWord field.toList := by
  have hall : (defaultSensitiveFields.all fun f => f.toList != [] && f.toList.all isWordChar) = true := by decide
  have hfield := List.all_eq_true.mp hall field h
  rw [Bool.and_eq_true, bne_iff_ne, List.all_eq_true] at hfield
  exact hfield

theorem sensitiveFields_default : sensitiveFields {} = defaultSensitiveFields := by
  rw [sensitiveFields, List.append_nil]
  apply firsts_eq_self
  · rw [List.map_id]
    exact defaultSensitiveFields_nodup
  · exact fun _ _ => List.not_mem_nil

/-- A placeholder in brackets ends as no word does. -/
theorem not_suffix_bracket {field text : List Char} (hf : IsWord field) :
    ¬ field.map lowerAscii <:+ (text ++ [']']).map lowerAscii := by
  intro h
  rw [List.map_append] at h
  obtain ⟨pre, hpre⟩ := h
  have hne : field.map lowerAscii ≠ [] := by simpa using hf.1
  have hlast := congrArg List.getLast? hpre
  rw [List.getLast?_append_of_ne_nil _ hne, List.getLast?_append_of_ne_nil _ (by simp)] at hlast
  have hmem := List.mem_of_getLast? hlast
  exact lower_ne_of_not_word hf hmem (c := ']') (by decide) rfl

theorem plain_default : ({} : RedactErrorOptions).Plain := by
  have hwords : ∀ field ∈ fieldsOf {}, IsWord field := by
    intro field hfield
    rw [fieldsOf, sensitiveFields_default] at hfield
    obtain ⟨name, hname, rfl⟩ := List.mem_map.mp hfield
    exact defaultSensitiveFields_words hname
  have htext : placeholderOf {} = "[redacted".toList ++ [']'] := by decide
  have hchars : (placeholderOf {}).all isValueChar = true := by decide
  have hfree : (placeholderOf {}).all (fun c => !isSeparator c) = true := by decide
  refine ⟨hwords, ⟨?_, List.all_eq_true.mp hchars, ?_, ?_⟩, ?_⟩
  · decide
  · intro c hc
    exact (Bool.not_eq_true' _).mp (List.all_eq_true.mp hfree c hc)
  · intro field hfield
    rw [htext]
    exact not_suffix_bracket (hwords field hfield)
  · decide

theorem redactErrorWith_stack (error : SdkError) :
    (redactErrorWith options error).stack = error.stack := by
  cases error with
  | mk kind => cases kind <;> rfl

theorem redactMessageWith_eq (message : String) :
    redactMessageWith options message = String.ofList ((fieldsOf options).foldl
      (fun cs field => redactField field (placeholderOf options) 0 cs) message.toList) := by
  rw [redactMessageWith, fieldsOf, List.foldl_map]

/-- Errors that differ only in the values of sensitive assignments have one
message when they are redacted; the stacks stay as they are. -/
theorem redacted_errors_agree {options : RedactErrorOptions} (ho : options.Plain) {error error' : SdkError}
    (hkind : error.kind = error'.kind)
    (h : SameButValues (fieldsOf options) (fieldsOf options) error.message.toList error'.message.toList) :
    (redactErrorWith options error).message = (redactErrorWith options error').message ∧
      (redactErrorWith options error).stack = error.stack ∧ (redactErrorWith options error').stack = error'.stack := by
  have hmessage : redactMessageWith options error.message = redactMessageWith options error'.message := by
    rw [redactMessageWith_eq, redactMessageWith_eq, h.redact ho.placeholder ho.words fun _ hg => hg]
  refine ⟨?_, redactErrorWith_stack options error, redactErrorWith_stack options error'⟩
  rw [redactErrorWith, redactErrorWith, hkind, hmessage]

/-- An error that tells an amount. -/
def paid (amount : String) : SdkError where
  kind := .error
  name := "Error"
  message := "amount=" ++ amount
  stack := "Error: amount=" ++ amount

theorem paid_sameButValues {amount amount' : String} (hne : amount.toList ≠ []) (hne' : amount'.toList ≠ [])
    (hchars : amount.toList.all isValueChar = true) (hchars' : amount'.toList.all isValueChar = true) :
    SameButValues (fieldsOf {}) (fieldsOf {}) (paid amount).message.toList (paid amount').message.toList := by
  have hfree : "amount".toList.all (fun c => !isSeparator c) = true := by decide
  let label : Label :=
    { name := "amount".toList, separator := '=', gap := [], separates := rfl
      name_free := fun c hc => (Bool.not_eq_true' _).mp (List.all_eq_true.mp hfree c hc)
      gap_space := List.forall_mem_nil _ }
  have hvalue : ∀ {value : List Char}, value ≠ [] → (∀ c ∈ value, isValueChar c = true) → IsValue (fieldsOf {}) value [] :=
    fun hne hchars => ⟨hne, hchars, by simp, fun s _ _ field _ => by rw [List.append_nil]⟩
  have hmem : "amount".toList ∈ fieldsOf {} := by
    rw [fieldsOf, sensitiveFields_default]
    exact List.mem_map_of_mem (by decide)
  have hmessage : ∀ amount, (paid amount).message.toList = label.text ++ (amount.toList ++ []) := by
    intro amount
    rw [List.append_nil]
    exact String.toList_append
  rw [hmessage, hmessage]
  exact .assignment label (hvalue hne (List.all_eq_true.mp hchars)) (hvalue hne' (List.all_eq_true.mp hchars'))
    (.inr ⟨"amount".toList, hmem, rfl⟩) .nil

theorem amounts_redacted :
    (redactErrorWith {} (paid "500")).message = (redactErrorWith {} (paid "7")).message ∧
      (redactErrorWith {} (paid "500")).stack = (paid "500").stack ∧
      (redactErrorWith {} (paid "7")).stack = (paid "7").stack :=
  redacted_errors_agree plain_default rfl
    (paid_sameButValues (by decide) (by decide) (by decide) (by decide))

/-- The stack shows the amount, and so does a message in which the value of one
assignment is the field of another. -/
theorem values_shown :
    (redactError (paid "500")).stack = "Error: amount=500" ∧
      redactMessage "amount: recipient: 5" ≠ redactMessage "amount: id 5" := by
  constructor
  · rfl
  · decide

end ZkPayroll.Redaction
