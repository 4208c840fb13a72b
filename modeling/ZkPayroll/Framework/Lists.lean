import Mathlib.Data.List.Nodup
import Mathlib.Data.List.Perm.Basic

/-!
# Lists

Facts about lists that the traces of runs need: a list split at an element,
and a sublist of a list without repetitions found in it again; the elements of
a list by their places; the lookup of a key in an association list; and lists
that a third one conjugates.
-/

namespace ZkPayroll.Framework

variable {α β : Type}

/-- Where two decompositions of a list meet, if the first part of one does not
contain the element at which the other splits. -/
theorem split_of_notMem {x : α} {as bs pre post : List α} (hx : x ∉ as)
    (h : as ++ bs = pre ++ x :: post) : ∃ pre', pre = as ++ pre' ∧ bs = pre' ++ x :: post := by
  rcases List.append_eq_append_iff.mp h with ⟨pre', hpre, hbs⟩ | ⟨cs, has, hcs⟩
  · exact ⟨pre', hpre, hbs⟩
  · cases cs with
    | nil => exact ⟨[], by simpa using has.symm, by simpa using hcs.symm⟩
    | cons c cs =>
      obtain rfl : x = c := (List.cons.inj hcs).1
      exact absurd (has ▸ by simp) hx

/-- Two decompositions of a list at the same element: one is at an earlier
place, or they are the same. -/
theorem append_cons_eq_cases {x : α} {as bs cs ds : List α} (h : as ++ x :: bs = cs ++ x :: ds) :
    (as = cs ∧ bs = ds) ∨ (∃ es, as = cs ++ x :: es ∧ ds = es ++ x :: bs) ∨
      ∃ es, cs = as ++ x :: es ∧ bs = es ++ x :: ds := by
  rcases List.append_eq_append_iff.mp h with ⟨es, hcs, hbs⟩ | ⟨es, has, hds⟩
  · cases es with
    | nil => exact .inl ⟨by simpa using hcs.symm, (List.cons.inj hbs).2⟩
    | cons e es =>
      obtain ⟨rfl, hrest⟩ := List.cons.inj hbs
      exact .inr (.inr ⟨es, hcs, hrest⟩)
  · cases es with
    | nil => exact .inl ⟨by simpa using has, (List.cons.inj hds).2.symm⟩
    | cons e es =>
      obtain ⟨rfl, hrest⟩ := List.cons.inj hds
      exact .inr (.inl ⟨es, has, hrest⟩)

/-- A map that is injective on the elements of two lists tells their multisets
apart. -/
theorem perm_of_map_perm {g : α → β} {S : α → Prop} (hinj : ∀ a b, S a → S b → g a = g b → a = b) {as bs : List α}
    (ha : ∀ a ∈ as, S a) (hb : ∀ b ∈ bs, S b) (h : (as.map g).Perm (bs.map g)) : as.Perm bs := by
  have hinj' : Function.Injective fun a : { a // S a } => g a := fun a b hab => Subtype.ext (hinj a b a.2 b.2 hab)
  have hval : ∀ {cs : List α} (hc : ∀ c ∈ cs, S c), (cs.attachWith S hc).map Subtype.val = cs :=
    fun hc => List.attachWith_map_subtype_val hc
  rw [← hval ha, ← hval hb, List.map_map, List.map_map] at h
  have hperm := ((List.map_perm_map_iff hinj').mp h).map Subtype.val
  rwa [hval ha, hval hb] at hperm

/-- The elements of a list that are in a sublist of it are that sublist. -/
theorem filter_mem_of_sublist [DecidableEq α] {l L : List α} (h : l.Sublist L) (hn : L.Nodup) :
    L.filter (fun a => decide (a ∈ l)) = l := by
  induction h with
  | slnil => rfl
  | cons a h ih =>
    rw [List.nodup_cons] at hn
    rw [List.filter_cons_of_neg (by simpa using fun ha => hn.1 (h.subset ha)), ih hn.2]
  | cons_cons a h ih =>
    rename_i l L
    rw [List.nodup_cons] at hn
    have hcongr : L.filter (fun b => decide (b ∈ a :: l)) = L.filter (fun b => decide (b ∈ l)) := by
      refine List.filter_congr fun b hb => ?_
      have hne : b ≠ a := fun h => hn.1 (h ▸ hb)
      simp [hne]
    rw [List.filter_cons_of_pos (by simp), hcongr, ih hn.2]

/-- Looking up each key of `L` in a list of pairs whose keys are a sublist of
`L` finds the values in the order of the pairs. -/
theorem flatMap_filter_of_sublist [DecidableEq α] {ps : List (α × List β)} {L : List α}
    (h : (ps.map Prod.fst).Sublist L) (hn : L.Nodup) :
    (L.flatMap fun a => (ps.filter fun p => decide (p.1 = a)).flatMap Prod.snd) = ps.flatMap Prod.snd := by
  induction L generalizing ps with
  | nil =>
    rw [List.sublist_nil, List.map_eq_nil_iff] at h
    rw [h]
    rfl
  | cons a L ih =>
    rw [List.nodup_cons] at hn
    cases ps with
    | nil => simp
    | cons p ps =>
      rw [List.map_cons] at h
      rcases List.sublist_cons_iff.mp h with hskip | ⟨r, hr, htake⟩
      · -- `a` is not a key
        have hnone : ((p :: ps).filter fun p => decide (p.1 = a)) = [] := by
          refine List.filter_eq_nil_iff.mpr fun q hq => ?_
          have : q.1 ∈ L := hskip.subset (List.mem_map_of_mem hq)
          simpa using fun h : q.1 = a => hn.1 (h ▸ this)
        rw [List.flatMap_cons, hnone, List.flatMap_nil, List.nil_append]
        exact @ih (p :: ps) hskip hn.2
      · -- `a` is the first key
        obtain ⟨rfl, rfl⟩ := List.cons.inj hr
        have hrest : (L.flatMap fun b => ((p :: ps).filter fun q => decide (q.1 = b)).flatMap Prod.snd) =
            L.flatMap fun b => (ps.filter fun q => decide (q.1 = b)).flatMap Prod.snd := by
          refine List.flatMap_congr fun b hb => ?_
          have hne : p.1 ≠ b := fun h => hn.1 (h ▸ hb)
          rw [List.filter_cons_of_neg (by simpa using hne)]
        have hfirst : ((p :: ps).filter fun q => decide (q.1 = p.1)) = [p] := by
          rw [List.filter_cons_of_pos (by simp), List.filter_eq_nil_iff.mpr]
          intro q hq
          have : q.1 ∈ L := htake.subset (List.mem_map_of_mem hq)
          simpa using fun h : q.1 = p.1 => hn.1 (h ▸ this)
        rw [List.flatMap_cons, hfirst, hrest, ih htake hn.2]
        simp

/-! ## Elements by their place -/

theorem getElem?_set_iff {l : List α} {id : Nat} {a : α} (h : l[id]? = some a) (b : α) (i : Nat)
    (d : α) : (l.set id b)[i]? = some d ↔ i = id ∧ d = b ∨ i ≠ id ∧ l[i]? = some d := by
  have hlt : id < l.length := (List.getElem?_eq_some_iff.mp h).1
  rw [List.getElem?_set]
  by_cases hi : id = i
  · subst hi
    simp [hlt, eq_comm]
  · simp [hi, Ne.symm hi]

/-- The places of a list with one more element in front. -/
theorem exists_getElem?_cons {P : Nat → α → Prop} {x : α} {xs : List α} :
    (∃ k a, (x :: xs)[k]? = some a ∧ P k a) ↔ P 0 x ∨ ∃ k a, xs[k]? = some a ∧ P (k + 1) a := by
  constructor
  · rintro ⟨k, a, hk, hp⟩
    cases k with
    | zero =>
      obtain rfl : x = a := by simpa using hk
      exact .inl hp
    | succ k => exact .inr ⟨k, a, by simpa using hk, hp⟩
  · rintro (hp | ⟨k, a, hk, hp⟩)
    · exact ⟨0, x, rfl, hp⟩
    · exact ⟨k + 1, a, by simpa using hk, hp⟩

theorem getElem?_concat_iff (l : List α) (a : α) (i : Nat) (d : α) :
    (l ++ [a])[i]? = some d ↔ l[i]? = some d ∨ i = l.length ∧ d = a := by
  rcases Nat.lt_trichotomy i l.length with hlt | rfl | hgt
  · rw [List.getElem?_append_left hlt]
    exact ⟨.inl, fun h => h.resolve_right fun h' => absurd h'.1 (Nat.ne_of_lt hlt)⟩
  · simp [eq_comm]
  · rw [List.getElem?_eq_none (by rw [List.length_append]; exact hgt), List.getElem?_eq_none (Nat.le_of_lt hgt)]
    exact iff_of_false nofun fun h => h.elim nofun fun h' => absurd h'.1 (Nat.ne_of_gt hgt)

/-! ## The first element that meets a condition -/

/-- Changes the first element that `p` holds of. -/
def modifyFirst (p : α → Bool) (f : α → α) : List α → List α
  | [] => []
  | a :: l => if p a then f a :: l else a :: modifyFirst p f l

theorem mem_modifyFirst_of_not {p : α → Bool} {f : α → α} {a : α} : ∀ {l : List α}, a ∈ l →
    p a = false → a ∈ modifyFirst p f l
  | b :: l, h, hp => by
    rw [modifyFirst]
    rcases List.mem_cons.mp h with rfl | h
    · simp [hp]
    · split
      · exact List.mem_cons_of_mem _ h
      · exact List.mem_cons_of_mem _ (mem_modifyFirst_of_not h hp)

theorem exists_mem_modifyFirst {p : α → Bool} {f : α → α} : ∀ {l : List α}, (∃ a ∈ l, p a = true) →
    ∃ a ∈ l, p a = true ∧ f a ∈ modifyFirst p f l
  | b :: l, h => by
    rw [modifyFirst]
    by_cases hb : p b = true
    · exact ⟨b, List.mem_cons_self, hb, by simp [hb]⟩
    · obtain ⟨a, ha, hp⟩ := h
      have hal : a ∈ l := by
        rcases List.mem_cons.mp ha with rfl | ha
        · exact absurd hp hb
        · exact ha
      obtain ⟨c, hc, hcp, hmem⟩ := exists_mem_modifyFirst (f := f) ⟨a, hal, hp⟩
      exact ⟨c, List.mem_cons_of_mem _ hc, hcp, by simp [hb, hmem]⟩

theorem mem_modifyFirst {p : α → Bool} {f : α → α} {b : α} : ∀ {l : List α}, b ∈ modifyFirst p f l →
    b ∈ l ∨ ∃ a ∈ l, p a = true ∧ b = f a
  | a :: l, h => by
    rw [modifyFirst] at h
    split at h
    · rename_i hp
      rcases List.mem_cons.mp h with rfl | h
      · exact .inr ⟨a, List.mem_cons_self, hp, rfl⟩
      · exact .inl (List.mem_cons_of_mem _ h)
    · rcases List.mem_cons.mp h with rfl | h
      · exact .inl List.mem_cons_self
      · rcases mem_modifyFirst h with h | ⟨c, hc, hcp, rfl⟩
        · exact .inl (List.mem_cons_of_mem _ h)
        · exact .inr ⟨c, List.mem_cons_of_mem _ hc, hcp, rfl⟩

/-! ## Association lists -/

theorem lookup_cons_eq [DecidableEq α] (j k : α) (v : β) (m : List (α × β)) :
    ((j, v) :: m).lookup k = if k = j then some v else m.lookup k := by
  rw [List.lookup_cons]
  by_cases h : k = j
  · simp [h]
  · simp only [beq_eq_false_iff_ne.mpr h, if_neg h]

variable {m : List (α × β)}

theorem lookup_mem [BEq α] [LawfulBEq α] {k : α} {v : β} (h : m.lookup k = some v) :
    (k, v) ∈ m := by
  obtain ⟨l₁, l₂, rfl, -⟩ := List.lookup_eq_some_iff.mp h
  simp

theorem lookup_isSome_of_mem [BEq α] [LawfulBEq α] {k : α}
    (h : k ∈ m.map Prod.fst) : ∃ v, m.lookup k = some v := by
  cases hl : m.lookup k with
  | some v => exact ⟨v, rfl⟩
  | none =>
    obtain ⟨f, hf, rfl⟩ := List.mem_map.mp h
    have := List.lookup_eq_none_iff.mp hl f hf
    simp at this

theorem ne_of_lookup_eq_none [BEq α] [LawfulBEq α] {k : α} (h : m.lookup k = none)
    {f : α × β} (hf : f ∈ m) : f.1 ≠ k := by
  rintro rfl
  obtain ⟨v, hv⟩ := lookup_isSome_of_mem (List.mem_map_of_mem (f := Prod.fst) hf)
  rw [h] at hv
  cases hv

theorem mem_iff_lookup [BEq α] [LawfulBEq α] (h : (m.map Prod.fst).Nodup)
    (f : α × β) : f ∈ m ↔ m.lookup f.1 = some f.2 := by
  constructor
  · intro hf
    obtain ⟨v, hv⟩ := lookup_isSome_of_mem (List.mem_map_of_mem hf)
    have hsame : (f.1, v) = f := List.inj_on_of_nodup_map h (lookup_mem hv) hf rfl
    rw [hv, ← hsame]
  · exact fun hf => lookup_mem hf

/-- The last element that satisfies a predicate, by its index. -/
theorem reverse_find?_eq_some_iff {p : α → Bool} {l : List α} {a : α} :
    l.reverse.find? p = some a ↔
      p a = true ∧ ∃ i : Nat, l[i]? = some a ∧ ∀ j b, i < j → l[j]? = some b → p b = false := by
  rw [List.find?_eq_some_iff_append]
  refine and_congr_right fun _ => ?_
  constructor
  · rintro ⟨later, earlier, hsplit, hlater⟩
    obtain rfl : l = earlier.reverse ++ a :: later.reverse := by
      rw [← List.reverse_reverse l, hsplit]
      simp
    refine ⟨earlier.length, by simp, fun j b hj hb => ?_⟩
    obtain ⟨k, rfl⟩ := Nat.exists_eq_add_of_lt hj
    rw [List.getElem?_append_right (by simp; omega), List.length_reverse, Nat.add_assoc, Nat.add_sub_cancel_left,
      List.getElem?_cons_succ] at hb
    simpa using hlater b (List.mem_reverse.mp (List.mem_of_getElem? hb))
  · rintro ⟨i, hi, hlast⟩
    obtain ⟨hlt, rfl⟩ := List.getElem?_eq_some_iff.mp hi
    refine ⟨(l.drop (i + 1)).reverse, (l.take i).reverse, ?_, fun b hb => ?_⟩
    · conv_lhs => rw [← List.take_append_drop i l, List.drop_eq_getElem_cons hlt]
      simp
    · obtain ⟨k, hk⟩ := List.mem_iff_getElem?.mp (List.mem_reverse.mp hb)
      rw [List.getElem?_drop] at hk
      simpa using hlast _ b (by omega) hk

/-! ## Conjugate lists -/

/-- Lists that become each other when a list passes from the one side to the
other: each is the other turned, and what passes repeats it. -/
theorem conjugate {z s y : List α} (hz : z ≠ []) (h : z ++ s = s ++ y) :
    ∃ u v k, v ≠ [] ∧ z = u ++ v ∧ y = v ++ u ∧ s = (List.replicate k z).flatten ++ u := by
  rcases List.append_eq_append_iff.mp h with ⟨t, hs, ht⟩ | ⟨v, rfl, rfl⟩
  · have hlen : t.length < s.length := by
      rw [hs, List.length_append]
      have hpos := List.length_pos_iff.mpr hz
      omega
    obtain ⟨u, v, k, hv, huv, hy, rfl⟩ := conjugate hz (hs ▸ ht)
    refine ⟨u, v, k + 1, hv, huv, hy, ?_⟩
    rw [hs, List.replicate_succ, List.flatten_cons, List.append_assoc]
  · by_cases hv : v = []
    · subst hv
      rw [List.append_nil] at hz
      exact ⟨[], s, 1, hz, by simp, by simp, by simp⟩
    · exact ⟨s, v, 0, hv, rfl, rfl, rfl⟩
termination_by s.length

end ZkPayroll.Framework
