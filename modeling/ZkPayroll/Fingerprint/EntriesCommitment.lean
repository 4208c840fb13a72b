import ZkPayroll.Framework.Separated
import ZkPayroll.Payroll.Types

/-!
# What the commitment to entries binds

`computeEntriesCommitment` of `fingerprint/batchFingerprint.ts` hashes the lines
`recipient:amount` of the entries, sorted and joined by `|`. Neither field is
escaped. A list whose fields have no separators is told from all lists of that
kind (`perm_of_preimage_eq`), but a recipient or an amount may be any text, so
that the whole pre-image of two entries or more is the line of one entry. The
lists that share their pre-image with no other (`Unambiguous`) are the empty one
and some of those of a single entry (`commitment_binds_entries_iff`).
-/

namespace ZkPayroll.Fingerprint

open Framework

variable {toUpperCase : String → String}

/-- The recipient and the amount of an entry, as they are hashed. -/
def entryPair (toUpperCase : String → String) (e : BatchEntryInput) : String × String :=
  (toUpperCase (trim e.recipient), match e.amount with | some amount => amount.toText | none => "0")

/-- The line of an entry. -/
def pairLine (pair : String × String) : String := pair.1 ++ ":" ++ pair.2

variable (e : BatchEntryInput)

theorem entryLine_eq : entryLine toUpperCase e = pairLine (entryPair toUpperCase e) := rfl

/-- A text is the line of a recipient, in its normal form, and an amount. -/
def Reads (toUpperCase : String → String) (line : String) (pair : String × String) : Prop :=
  line = pairLine pair ∧ ∃ recipient, toUpperCase (trim recipient) = pair.1

/-- The lists with a pre-image of their own: the line of the single entry can be
read in one way, and is not that of two entries. -/
inductive Unambiguous (toUpperCase : String → String) : List BatchEntryInput → Prop
  | empty : Unambiguous toUpperCase []
  | single {e : BatchEntryInput} (hone : ∀ pair, Reads toUpperCase (entryLine toUpperCase e) pair →
      pair = entryPair toUpperCase e)
      (hjoined : ∀ first second p q, entryLine toUpperCase e = first ++ "|" ++ second → leUnits first second →
        Reads toUpperCase first p → ¬ Reads toUpperCase second q) :
      Unambiguous toUpperCase [e]

/-- Entries whose line has no bar, and whose amount has no colon. -/
def Plain (toUpperCase : String → String) (e : BatchEntryInput) : Prop :=
  '|' ∉ (entryLine toUpperCase e).toList ∧ ':' ∉ (entryPair toUpperCase e).2.toList

instance : DecidablePred (Plain toUpperCase) := fun _ => inferInstanceAs (Decidable (_ ∧ _))

/-! ## Lines -/

theorem toList_pairLine (pair : String × String) : (pairLine pair).toList = pair.1.toList ++ ':' :: pair.2.toList := by
  rw [pairLine, String.toList_append, String.toList_append, List.append_assoc]
  rfl

variable (toUpperCase) in
theorem reads_entryLine : Reads toUpperCase (entryLine toUpperCase e) (entryPair toUpperCase e) :=
  ⟨rfl, e.recipient, rfl⟩

/-- What can be read is the line of an entry: an amount may be any text. -/
theorem exists_entry_of_reads {line : String} {pair : String × String} (h : Reads toUpperCase line pair) :
    ∃ e, entryLine toUpperCase e = line ∧ entryPair toUpperCase e = pair := by
  obtain ⟨rfl, recipient, hr⟩ := h
  have hpair : entryPair toUpperCase ⟨recipient, some (.text pair.2)⟩ = pair := by rw [entryPair, hr]; rfl
  exact ⟨⟨recipient, some (.text pair.2)⟩, by rw [entryLine_eq, hpair], hpair⟩

/-- The amount takes up what follows a line. -/
theorem Reads.append {line : String} {pair : String × String} (h : Reads toUpperCase line pair) (rest : String) :
    Reads toUpperCase (line ++ rest) (pair.1, pair.2 ++ rest) := by
  obtain ⟨rfl, hr⟩ := h
  refine ⟨?_, hr⟩
  simp only [pairLine, String.append_assoc]

/-- Pairs without a colon in the amount are told apart by their lines. -/
theorem pairLine_inj {p q : String × String} (hp : ':' ∉ p.2.toList) (hq : ':' ∉ q.2.toList)
    (h : pairLine p = pairLine q) : p = q := by
  have hchars := congrArg (List.reverse ∘ String.toList) h
  simp only [Function.comp, toList_pairLine, List.reverse_append, List.reverse_cons, List.append_assoc] at hchars
  obtain ⟨hamount, hrest⟩ := eq_of_append_eq (by simpa using hp) (by simpa using hq) (by simp) (by simp) hchars
  have hrecipient : p.1.toList = q.1.toList := by simpa using hrest
  exact Prod.ext (String.toList_injective hrecipient) (String.toList_injective (List.reverse_injective hamount))

theorem leUnits_append (s t : String) : leUnits s (s ++ t) := by
  rw [leUnits, codeUnits, codeUnits, String.toList_append, List.flatMap_append]
  exact not_lt.mp (List.le_append_left (α := Nat))

/-! ## Pre-images -/

variable {xs : List BatchEntryInput}

theorem commitmentPreimage_of_ne_nil (h : xs ≠ []) :
    commitmentPreimage toUpperCase xs = "|".intercalate (sortStrings (xs.map (entryLine toUpperCase))) := by
  rw [commitmentPreimage, if_neg (by simpa using h)]

theorem commitmentPreimage_singleton :
    commitmentPreimage toUpperCase [e] = entryLine toUpperCase e := by
  rw [commitmentPreimage_of_ne_nil (by simp)]
  rfl

theorem commitmentPreimage_pair {x y : BatchEntryInput} (h : leUnits (entryLine toUpperCase x) (entryLine toUpperCase y)) :
    commitmentPreimage toUpperCase [x, y] = entryLine toUpperCase x ++ "|" ++ entryLine toUpperCase y := by
  have hsort : sortStrings [entryLine toUpperCase x, entryLine toUpperCase y] =
      [entryLine toUpperCase x, entryLine toUpperCase y] :=
    List.Pairwise.insertionSort_eq (by simpa using h)
  rw [commitmentPreimage_of_ne_nil (by simp), List.map_cons, List.map_singleton, hsort]
  rfl

theorem sortedLines_ne_nil (h : xs ≠ []) :
    (sortStrings (xs.map (entryLine toUpperCase))).map String.toList ≠ [] := by
  intro hnil
  have hlen := (sortStrings_perm (xs.map (entryLine toUpperCase))).length_eq
  rw [List.map_eq_nil_iff.mp hnil, List.length_map, List.length_nil] at hlen
  exact h (List.eq_nil_of_length_eq_zero hlen.symm)

variable (toUpperCase) in
/-- The pre-image of several entries: two lines in order, and the others, after
bars. -/
theorem exists_sorted_lines (h : 2 ≤ xs.length) :
    ∃ x y rest, x ∈ xs ∧ y ∈ xs ∧ leUnits (entryLine toUpperCase x) (entryLine toUpperCase y) ∧
      commitmentPreimage toUpperCase xs = entryLine toUpperCase x ++ "|" ++ (entryLine toUpperCase y ++ rest) := by
  have hperm := sortStrings_perm (xs.map (entryLine toUpperCase))
  have hsorted := sortStrings_pairwise (xs.map (entryLine toUpperCase))
  have hlen := hperm.length_eq
  rw [List.length_map] at hlen
  have hne : xs ≠ [] := List.ne_nil_of_length_pos (by omega)
  rw [commitmentPreimage_of_ne_nil hne]
  match hlines : sortStrings (xs.map (entryLine toUpperCase)) with
  | [] =>
    rw [hlines, List.length_nil] at hlen
    omega
  | [line] =>
    rw [hlines, List.length_singleton] at hlen
    omega
  | first :: second :: rest =>
    rw [hlines] at hperm hsorted
    obtain ⟨x, hx, hfirst⟩ := List.mem_map.mp (hperm.subset (List.mem_cons_self (a := first)))
    obtain ⟨y, hy, hsecond⟩ := List.mem_map.mp (hperm.subset (List.mem_cons_of_mem _ (List.mem_cons_self (a := second))))
    have hle := (List.pairwise_cons.mp hsorted).1 second List.mem_cons_self
    rw [← hfirst, ← hsecond] at hle
    refine ⟨x, y, String.ofList (separate '|' (rest.map String.toList)), hx, hy, hle, ?_⟩
    apply String.toList_injective
    have hbar : "|" = String.ofList ['|'] := rfl
    rw [hfirst, hsecond, hbar, toList_intercalate_cons]
    simp

variable (toUpperCase) in
theorem colon_mem_entryLine : ':' ∈ (entryLine toUpperCase e).toList := by
  rw [entryLine_eq, toList_pairLine]
  simp

/-- No entries have the pre-image of an empty list. -/
theorem commitmentPreimage_eq_empty (h : commitmentPreimage toUpperCase xs = "empty_batch") :
    xs = [] := by
  have hcolon : ':' ∉ (commitmentPreimage toUpperCase xs).toList := by
    rw [h]
    decide
  match xs with
  | [] => rfl
  | [x] =>
    rw [commitmentPreimage_singleton] at hcolon
    exact absurd (colon_mem_entryLine toUpperCase x) hcolon
  | x :: y :: rest =>
    obtain ⟨x', y', rest', -, -, -, hpre⟩ :=
      exists_sorted_lines toUpperCase (show 2 ≤ (x :: y :: rest).length by simp)
    rw [hpre] at hcolon
    simp only [String.toList_append, List.mem_append, not_or] at hcolon
    exact absurd (colon_mem_entryLine toUpperCase x') hcolon.1.1

/-- The bars of a pre-image of plain entries are those between lines. -/
theorem perm_of_preimage_eq {xs ys : List BatchEntryInput} (hx : ∀ e ∈ xs, Plain toUpperCase e)
    (hy : ∀ e ∈ ys, Plain toUpperCase e) (h : commitmentPreimage toUpperCase ys = commitmentPreimage toUpperCase xs) :
    (ys.map (entryPair toUpperCase)).Perm (xs.map (entryPair toUpperCase)) := by
  have hlines : ∀ {zs : List BatchEntryInput}, (∀ e ∈ zs, Plain toUpperCase e) →
      ∀ line ∈ (sortStrings (zs.map (entryLine toUpperCase))).map String.toList, '|' ∉ line := by
    intro zs hz line hline
    obtain ⟨text, htext, rfl⟩ := List.mem_map.mp hline
    obtain ⟨e, he, rfl⟩ := List.mem_map.mp ((sortStrings_perm _).subset htext)
    exact (hz e he).1
  by_cases hempty : xs = []
  · rw [hempty] at h ⊢
    rw [commitmentPreimage_eq_empty h]
  by_cases hempty' : ys = []
  · rw [hempty'] at h
    exact absurd (commitmentPreimage_eq_empty h.symm) hempty
  rw [commitmentPreimage_of_ne_nil hempty, commitmentPreimage_of_ne_nil hempty'] at h
  have hbar : "|".toList = ['|'] := by decide
  have hchars := congrArg String.toList h
  rw [String.toList_intercalate, String.toList_intercalate, hbar, intercalate_eq_iff, flatMap_splitOn_of_free (hlines hy),
    flatMap_splitOn_of_free (hlines hx)] at hchars
  · have hsort := sortStrings_eq_iff.mp (List.map_injective_iff.mpr (fun _ _ => String.toList_injective) hchars)
    have hpairs : ((ys.map (entryPair toUpperCase)).map pairLine).Perm ((xs.map (entryPair toUpperCase)).map pairLine) := by
      rw [List.map_map, List.map_map]
      exact hsort
    exact perm_of_map_perm (S := fun pair => ':' ∉ pair.2.toList) (fun p q => pairLine_inj)
      (List.forall_mem_map.mpr fun e he => (hy e he).2) (List.forall_mem_map.mpr fun e he => (hx e he).2) hpairs
  · exact sortedLines_ne_nil hempty'
  · exact sortedLines_ne_nil hempty

variable (toUpperCase) in
/-- Two entries or more have the pre-image of one. -/
theorem exists_single (h : 2 ≤ xs.length) :
    ∃ e, commitmentPreimage toUpperCase [e] = commitmentPreimage toUpperCase xs := by
  obtain ⟨x, y, rest, -, -, -, hpre⟩ := exists_sorted_lines toUpperCase h
  obtain ⟨e, hline, -⟩ := exists_entry_of_reads
    ((reads_entryLine toUpperCase x).append ("|" ++ (entryLine toUpperCase y ++ rest)))
  refine ⟨e, ?_⟩
  rw [commitmentPreimage_singleton, hline, hpre, String.append_assoc]

/-- A list with the pre-image of an unambiguous one has its pairs. -/
theorem Unambiguous.perm {xs ys : List BatchEntryInput} (h : Unambiguous toUpperCase xs)
    (hpre : commitmentPreimage toUpperCase ys = commitmentPreimage toUpperCase xs) :
    (ys.map (entryPair toUpperCase)).Perm (xs.map (entryPair toUpperCase)) := by
  cases h with
  | empty => rw [commitmentPreimage_eq_empty hpre]
  | @single e hone hjoined =>
    rw [commitmentPreimage_singleton] at hpre
    match ys with
    | [] =>
      have hcolon := colon_mem_entryLine toUpperCase e
      have hempty : commitmentPreimage toUpperCase [] = "empty_batch" := rfl
      rw [← hpre, hempty] at hcolon
      exact absurd hcolon (by decide)
    | [y] =>
      rw [commitmentPreimage_singleton] at hpre
      have hread := reads_entryLine toUpperCase y
      rw [hpre] at hread
      rw [List.map_singleton, List.map_singleton, hone _ hread]
    | y :: y' :: ys =>
      obtain ⟨x, x', rest, -, -, hle, hlines⟩ :=
        exists_sorted_lines toUpperCase (show 2 ≤ (y :: y' :: ys).length by simp)
      have hle' := IsTrans.trans _ _ _ hle (leUnits_append (entryLine toUpperCase x') rest)
      exact absurd ((reads_entryLine toUpperCase x').append rest)
        (hjoined _ _ _ _ (hpre.symm.trans hlines) hle' (reads_entryLine toUpperCase x))

/-- An entry shares its line with no other, if all lists with that pre-image
have its pair. -/
theorem unambiguous_single {e : BatchEntryInput}
    (h : ∀ ys, commitmentPreimage toUpperCase ys = commitmentPreimage toUpperCase [e] →
      (ys.map (entryPair toUpperCase)).Perm [entryPair toUpperCase e]) : Unambiguous toUpperCase [e] := by
  refine .single (fun pair hread => ?_) fun first second p q hline hle hp hq => ?_
  · obtain ⟨y, hline, hpair⟩ := exists_entry_of_reads hread
    have hperm := h [y] (by rw [commitmentPreimage_singleton, commitmentPreimage_singleton, hline])
    rw [List.map_singleton, List.perm_singleton] at hperm
    exact hpair.symm.trans (List.singleton_inj.mp hperm)
  · obtain ⟨x, rfl, -⟩ := exists_entry_of_reads hp
    obtain ⟨y, rfl, -⟩ := exists_entry_of_reads hq
    have hperm := h [x, y] (by rw [commitmentPreimage_pair hle, commitmentPreimage_singleton, hline])
    exact absurd hperm.length_eq (by simp)

/-- A list shares its pre-image with no other just if it is unambiguous, and
plain lists do not share theirs. -/
theorem commitment_binds_entries_iff (toUpperCase : String → String) (xs : List BatchEntryInput) :
    ((∀ ys, commitmentPreimage toUpperCase ys = commitmentPreimage toUpperCase xs →
        (ys.map (entryPair toUpperCase)).Perm (xs.map (entryPair toUpperCase))) ↔ Unambiguous toUpperCase xs) ∧
      ((∀ e ∈ xs, Plain toUpperCase e) → ∀ ys, (∀ e ∈ ys, Plain toUpperCase e) →
        commitmentPreimage toUpperCase ys = commitmentPreimage toUpperCase xs →
          (ys.map (entryPair toUpperCase)).Perm (xs.map (entryPair toUpperCase))) := by
  refine ⟨⟨fun h => ?_, fun h ys => h.perm⟩, fun hx ys hy => perm_of_preimage_eq hx hy⟩
  match xs with
  | [] => exact .empty
  | [e] => exact unambiguous_single h
  | x :: y :: xs =>
    obtain ⟨e, hpre⟩ := exists_single toUpperCase (show 2 ≤ (x :: y :: xs).length by simp)
    exact absurd (h [e] hpre).length_eq (by simp)

/-- Upper case for ASCII. -/
def upperAscii (s : String) : String := String.ofList (s.toList.map Char.toUpper)

/-- Plain entries with another amount have another pre-image. -/
theorem amount_bound :
    commitmentPreimage upperAscii [⟨"alice", some (.integer 100)⟩, ⟨"bob", some (.integer 300)⟩] ≠
      commitmentPreimage upperAscii [⟨"alice", some (.integer 100)⟩, ⟨"bob", some (.integer 200)⟩] := by
  intro h
  have hperm := (commitment_binds_entries_iff upperAscii
    [⟨"alice", some (.integer 100)⟩, ⟨"bob", some (.integer 200)⟩]).2 (by decide) _ (by decide) h
  exact absurd hperm (by decide)

/-- A recipient with the line of another entry in its text. -/
theorem preimage_shared :
    ¬∀ xs ys : List BatchEntryInput, commitmentPreimage upperAscii ys = commitmentPreimage upperAscii xs →
      (ys.map (entryPair upperAscii)).Perm (xs.map (entryPair upperAscii)) := by
  intro h
  have hperm := h [⟨"alice", some (.integer 100)⟩, ⟨"bob", some (.integer 200)⟩]
    [⟨"alice:100|bob", some (.integer 200)⟩] (by decide)
  exact absurd hperm.length_eq (by decide)

end ZkPayroll.Fingerprint
