import ZkPayroll.Framework.Json
import ZkPayroll.Framework.Lists

/-!
# JSON texts between separators

Reading a text character by character tells whether one is inside a quoted
string (`scan`). A JSON text is read from outside to outside, and has outside
of its strings only the characters of JSON itself (`scan_stringifyChars`). A
character that is not among these can be used as a separator: two JSON texts
joined by it are found again (`joined_inj`), and are not the end of two longer
ones (`not_joined_suffix`), for a text that is read to outside from within a
string is not read to outside from outside (`scan_opposite`).
-/

namespace ZkPayroll.Framework

/-- Where a text has been read to. -/
inductive QuoteMode where
  | outside
  | inside
  /-- Inside, after a backslash. -/
  | escaped
  deriving DecidableEq

/-- Reads a character, which outside of strings must satisfy `ok`. -/
def QuoteMode.step (ok : Char → Bool) : QuoteMode → Char → Option QuoteMode
  | .outside, c => if c = '"' then some .inside else if ok c then some .outside else none
  | .inside, c => some (if c = '"' then .outside else if c = '\\' then .escaped else .inside)
  | .escaped, _ => some .inside

/-- Reads a text. -/
def scan (ok : Char → Bool) (m : QuoteMode) (cs : List Char) : Option QuoteMode := cs.foldlM (QuoteMode.step ok) m

/-- The characters that JSON has outside of strings. -/
def isBare (c : Char) : Bool := isNumberChar c || "truefalsn[]\x7b\x7d:,".toList.contains c

section Scan

variable {ok : Char → Bool}
variable (m : QuoteMode)

@[simp] theorem scan_nil : scan ok m [] = some m := rfl

theorem scan_cons (c : Char) (cs : List Char) :
    scan ok m (c :: cs) = (m.step ok c).bind fun m' => scan ok m' cs := List.foldlM_cons

theorem scan_append (as bs : List Char) :
    scan ok m (as ++ bs) = (scan ok m as).bind fun m' => scan ok m' bs := List.foldlM_append

theorem scan_append_of {m m' : QuoteMode} {as : List Char} (h : scan ok m as = some m') (bs : List Char) :
    scan ok m (as ++ bs) = scan ok m' bs := by
  rw [scan_append, h]
  rfl

theorem scan_outside_cons {c : Char} (hq : c ≠ '"') (hc : ok c = true) (cs : List Char) :
    scan ok .outside (c :: cs) = scan ok .outside cs := by
  rw [scan_cons]
  simp [QuoteMode.step, hq, hc]

theorem scan_quote (cs : List Char) : scan ok .outside ('"' :: cs) = scan ok .inside cs := rfl

/-- Characters without quotes are read from outside to outside. -/
theorem scan_bare {as : List Char} (hq : ∀ c ∈ as, c ≠ '"') (hc : ∀ c ∈ as, ok c = true) (bs : List Char) :
    scan ok .outside (as ++ bs) = scan ok .outside bs := by
  induction as with
  | nil => rfl
  | cons c as ih =>
    rw [List.cons_append, scan_outside_cons (hq c List.mem_cons_self) (hc c List.mem_cons_self),
      ih (fun c h => hq c (List.mem_cons_of_mem _ h)) fun c h => hc c (List.mem_cons_of_mem _ h)]

/-- What is read with fewer characters outside is read the same with more. -/
theorem scan_mono {ok' : Char → Bool} (hok : ∀ c, ok c = true → ok' c = true) {m m' : QuoteMode} {cs : List Char}
    (h : scan ok m cs = some m') : scan ok' m cs = some m' := by
  induction cs generalizing m with
  | nil => exact h
  | cons c cs ih =>
    rw [scan_cons, Option.bind_eq_some_iff] at h
    obtain ⟨m₁, hstep, hrest⟩ := h
    have hstep' : m.step ok' c = some m₁ := by
      cases m with
      | outside =>
        by_cases hq : c = '"'
        · rw [QuoteMode.step, if_pos hq] at hstep ⊢
          exact hstep
        · rw [QuoteMode.step, if_neg hq, Option.ite_none_right_eq_some] at hstep ⊢
          exact ⟨hok c hstep.1, hstep.2⟩
      | _ => exact hstep
    rw [scan_cons, hstep']
    exact ih hrest

/-- The inside of a string and the outside are exchanged. -/
def Opposite : QuoteMode → QuoteMode → Prop
  | .inside, .outside => True
  | .outside, .inside => True
  | _, _ => False

/-- A text without backslashes outside of strings reads oppositely from
opposite places. -/
theorem scan_opposite (hok : ok '\\' = false) {cs : List Char} {a b a' b' : QuoteMode} (hab : Opposite a b)
    (ha : scan ok a cs = some a') (hb : scan ok b cs = some b') : Opposite a' b' := by
  have hstep : ∀ {c : Char} {a b a₁ b₁ : QuoteMode}, Opposite a b → a.step ok c = some a₁ →
      b.step ok c = some b₁ → Opposite a₁ b₁ := by
    intro c a b a₁ b₁ hab ha hb
    by_cases hq : c = '"'
    · subst hq
      match a, b, hab with
      | .inside, .outside, _ | .outside, .inside, _ =>
        cases ha
        cases hb
        trivial
    · by_cases hback : c = '\\'
      · subst hback
        match a, b, hab with
        | .inside, .outside, _ => simp [QuoteMode.step, hok] at hb
        | .outside, .inside, _ => simp [QuoteMode.step, hok] at ha
      · match a, b, hab with
        | .inside, .outside, _ | .outside, .inside, _ =>
          simp only [QuoteMode.step, hq, hback, if_false, Option.ite_none_right_eq_some,
            Option.some.injEq] at ha hb
          first
            | (obtain ⟨-, rfl⟩ := hb; subst ha; trivial)
            | (obtain ⟨-, rfl⟩ := ha; subst hb; trivial)
  induction cs generalizing a b with
  | nil =>
    cases ha
    cases hb
    exact hab
  | cons c cs ih =>
    rw [scan_cons, Option.bind_eq_some_iff] at ha hb
    obtain ⟨a₁, ha₁, ha⟩ := ha
    obtain ⟨b₁, hb₁, hb⟩ := hb
    exact ih (hstep hab ha₁ hb₁) ha hb

end Scan

/-! ## JSON texts -/

section Texts

variable {ok : Char → Bool}

/-- An escaped character is read from inside to inside. -/
theorem scan_escapeChar (c : Char) : scan ok .inside (escapeChar c) = some .inside := by
  unfold escapeChar
  split_ifs with hq hb h8 ht hn hf hr hcontrol
  all_goals try rfl
  · have hhi := hexDigit_ne (c.toNat / 16) (by omega)
    have hlo := hexDigit_ne (c.toNat % 16) (by omega)
    simp [scan_cons, QuoteMode.step, hhi.1, hhi.2, hlo.1, hlo.2]
  · simp [scan_cons, QuoteMode.step, hq, hb]

theorem scan_quoteTail (s : String) (cs : List Char) :
    scan ok .inside (quoteTail s ++ cs) = scan ok .outside cs := by
  have hchars : ∀ l : List Char, scan ok .inside (l.flatMap escapeChar) = some .inside := by
    intro l
    induction l with
    | nil => rfl
    | cons c l ih => rw [List.flatMap_cons, scan_append_of (scan_escapeChar c), ih]
  rw [quoteTail, List.append_assoc, scan_append_of (hchars _)]
  rfl

variable {ν : Type} [NumberFormat ν]

theorem isBare_ne_quote {c : Char} (h : isBare c = true) : c ≠ '"' := by
  rintro rfl
  revert h
  decide

theorem scan_isBare (hok : ∀ c, isBare c = true → ok c = true) (as : List Char)
    (h : as.all isBare = true) (bs : List Char) : scan ok .outside (as ++ bs) = scan ok .outside bs := by
  rw [List.all_eq_true] at h
  exact scan_bare (fun c hc => isBare_ne_quote (h c hc)) (fun c hc => hok c (h c hc)) bs

mutual

/-- A JSON text is read from outside to outside. -/
theorem scan_stringifyChars (hok : ∀ c, isBare c = true → ok c = true) : ∀ (v : Json ν) (cs : List Char),
    scan ok .outside (stringifyChars v ++ cs) = scan ok .outside cs
  | .null, cs => scan_isBare hok "null".toList (by decide) cs
  | .bool true, cs => scan_isBare hok "true".toList (by decide) cs
  | .bool false, cs => scan_isBare hok "false".toList (by decide) cs
  | .num n, cs => by
    rw [stringifyChars]
    refine scan_isBare hok _ (List.all_eq_true.mpr fun c hc => ?_) cs
    rw [isBare, NumberFormat.toText_chars n c hc, Bool.true_or]
  | .str s, cs => by
    rw [stringifyChars, List.cons_append, scan_quote, scan_quoteTail]
  | .arr [], cs => scan_isBare hok ['[', ']'] (by decide) cs
  | .arr (v :: items), cs => by
    rw [stringifyChars, List.cons_append, List.cons_append, List.append_assoc,
      scan_outside_cons (by decide) (hok _ (by decide)), scan_stringifyChars hok v,
      scan_stringifyItems hok items]
  | .obj [], cs => scan_isBare hok ['\x7b', '\x7d'] (by decide) cs
  | .obj ((k, v) :: fields), cs => by
    simp only [stringifyChars, List.cons_append, List.append_assoc]
    rw [scan_outside_cons (by decide) (hok _ (by decide)), scan_quote, scan_quoteTail,
      scan_outside_cons (by decide) (hok _ (by decide)), scan_stringifyChars hok v,
      scan_stringifyFields hok fields]

theorem scan_stringifyItems (hok : ∀ c, isBare c = true → ok c = true) : ∀ (items : List (Json ν)) (cs : List Char),
    scan ok .outside (stringifyItems items ++ cs) = scan ok .outside cs
  | [], cs => scan_isBare hok [']'] (by decide) cs
  | v :: items, cs => by
    rw [stringifyItems, List.cons_append, List.cons_append, List.append_assoc,
      scan_outside_cons (by decide) (hok _ (by decide)), scan_stringifyChars hok v,
      scan_stringifyItems hok items]

theorem scan_stringifyFields (hok : ∀ c, isBare c = true → ok c = true) :
    ∀ (fields : List (String × Json ν)) (cs : List Char),
      scan ok .outside (stringifyFields fields ++ cs) = scan ok .outside cs
  | [], cs => scan_isBare hok ['\x7d'] (by decide) cs
  | (k, v) :: fields, cs => by
    simp only [stringifyFields, List.cons_append, List.append_assoc]
    rw [scan_outside_cons (by decide) (hok _ (by decide)), scan_quote, scan_quoteTail,
      scan_outside_cons (by decide) (hok _ (by decide)), scan_stringifyChars hok v,
      scan_stringifyFields hok fields]

end

end Texts

/-! ## Texts joined by a separator -/

section Joined

variable {sep : Char}

/-- The characters that a text may have outside of its strings if it is to be
separated from others by `sep`. -/
def okWithin (sep c : Char) : Bool := c ≠ '\\' && c ≠ sep

/-- A text that is read from outside to outside, with no separator outside of
its strings. -/
def Closed (sep : Char) (cs : List Char) : Prop := scan (okWithin sep) .outside cs = some .outside

def notBackslash (c : Char) : Bool := c ≠ '\\'

theorem notBackslash_of_okWithin {c : Char} (h : okWithin sep c = true) : notBackslash c = true :=
  (Bool.and_eq_true_iff.mp h).1

theorem closed_stringifyChars {ν : Type} [NumberFormat ν] (hsep : isBare sep = false) (v : Json ν) :
    Closed sep (stringifyChars v) := by
  have hok : ∀ c, isBare c = true → okWithin sep c = true := by
    intro c hc
    have hback : c ≠ '\\' := by
      rintro rfl
      revert hc
      decide
    have hne : c ≠ sep := by
      rintro rfl
      rw [hc] at hsep
      cases hsep
    simp [okWithin, hback, hne]
  have h := scan_stringifyChars hok v []
  rw [List.append_nil] at h
  exact h

theorem Closed.scan {cs : List Char} (h : Closed sep cs) : scan notBackslash .outside cs = some .outside :=
  scan_mono (fun _ => notBackslash_of_okWithin) h

theorem scan_separator (hq : sep ≠ '"') (hb : sep ≠ '\\') (cs : List Char) :
    scan notBackslash .outside (sep :: cs) = scan notBackslash .outside cs :=
  scan_outside_cons hq (by simp [notBackslash, hb]) cs

/-- A closed text does not end at a separator outside of its strings. -/
theorem not_closed_of_separator (hq : sep ≠ '"') {as bs : List Char} (h : Closed sep as) :
    ¬Closed sep (as ++ sep :: bs) := by
  intro hc
  rw [Closed, scan_append_of h, scan_cons] at hc
  simp [QuoteMode.step, hq, okWithin] at hc

/-- At a separator, a closed text is within one of its strings. -/
theorem scan_inside_of_closed (hq : sep ≠ '"') (hb : sep ≠ '\\') {as bs : List Char}
    (h : Closed sep (as ++ sep :: bs)) : scan notBackslash .inside bs = some .outside := by
  rw [Closed, scan_append, Option.bind_eq_some_iff] at h
  obtain ⟨m, -, h⟩ := h
  rw [scan_cons] at h
  have hmono : ∀ c, okWithin sep c = true → notBackslash c = true := fun _ => notBackslash_of_okWithin
  refine scan_mono hmono ?_
  cases m with
  | outside => simp [QuoteMode.step, hq, okWithin] at h
  | inside => simpa [QuoteMode.step, hq, hb] using h
  | escaped => simpa [QuoteMode.step] using h

/-- Two closed texts joined by the separator are found again. -/
theorem joined_inj (hq : sep ≠ '"') {p q p' q' : List Char} (hp : Closed sep p) (hp' : Closed sep p')
    (h : p ++ sep :: q = p' ++ sep :: q') : p = p' ∧ q = q' := by
  rcases append_cons_eq_cases h with hsame | ⟨es, rfl, -⟩ | ⟨es, rfl, -⟩
  · exact hsame
  · exact absurd hp (not_closed_of_separator hq hp')
  · exact absurd hp' (not_closed_of_separator hq hp)

/-- Two closed texts joined by the separator are not what follows a separator
in two others. -/
theorem not_joined_suffix (hq : sep ≠ '"') (hb : sep ≠ '\\') {p q p' q' mid : List Char} (hp : Closed sep p)
    (hpq : Closed sep q) (hp' : Closed sep p') (hq' : Closed sep q') :
    p ++ sep :: q ≠ mid ++ sep :: (p' ++ sep :: q') := by
  intro h
  have houtside : scan notBackslash .outside (p' ++ sep :: q') = some .outside := by
    rw [scan_append_of hp'.scan, scan_separator hq hb]
    exact hq'.scan
  have hinside : ∀ {cs}, scan notBackslash .inside cs = some .outside → cs ≠ p' ++ sep :: q' := by
    rintro cs hcs rfl
    have hopp : Opposite .inside .outside := trivial
    exact scan_opposite (by decide) hopp hcs houtside
  rcases append_cons_eq_cases h with ⟨-, rfl⟩ | ⟨es, rfl, hrest⟩ | ⟨es, -, rfl⟩
  · exact not_closed_of_separator hq hp' hpq
  · refine hinside ?_ hrest.symm
    rw [scan_append_of (scan_inside_of_closed hq hb hp), scan_separator hq hb]
    exact hpq.scan
  · exact hinside (scan_inside_of_closed hq hb hpq) rfl

end Joined

end ZkPayroll.Framework
