import Mathlib.Data.List.Dedup
import Mathlib.Data.List.Nodup

/-!
# First occurrences

A loop over a list that acts only on the first element of each key acts on the
list `firsts key [] l`. What it counts there depends on the keys alone when all
elements of a key count alike (`countP_firsts`).
-/

namespace ZkPayroll.Framework

variable {α κ : Type} [DecidableEq κ] {key : α → κ}

/-- The first element of each key that was not seen before. -/
def firsts (key : α → κ) (seen : List κ) : List α → List α
  | [] => []
  | a :: l => if key a ∈ seen then firsts key seen l else a :: firsts key (key a :: seen) l

theorem mem_firsts {a : α} : ∀ {l : List α} {seen : List κ}, a ∈ firsts key seen l → a ∈ l ∧ key a ∉ seen
  | b :: l, seen, h => by
    rw [firsts] at h
    split at h
    · obtain ⟨hm, hs⟩ := mem_firsts h
      exact ⟨List.mem_cons_of_mem b hm, hs⟩
    · rename_i hb
      rcases List.mem_cons.mp h with rfl | h
      · exact ⟨List.mem_cons_self, hb⟩
      · obtain ⟨hm, hs⟩ := mem_firsts h
        exact ⟨List.mem_cons_of_mem b hm, fun hin => hs (List.mem_cons_of_mem _ hin)⟩

theorem exists_mem_firsts {a : α} : ∀ {l : List α} {seen : List κ}, a ∈ l → key a ∉ seen →
    ∃ b ∈ firsts key seen l, key b = key a
  | b :: l, seen, h, hs => by
    rw [firsts]
    by_cases hb : key b ∈ seen
    · have hl : a ∈ l := (List.mem_cons.mp h).resolve_left fun he => hs (he ▸ hb)
      rw [if_pos hb]
      exact exists_mem_firsts hl hs
    · rw [if_neg hb]
      by_cases he : key b = key a
      · exact ⟨b, List.mem_cons_self, he⟩
      · have hl : a ∈ l := (List.mem_cons.mp h).resolve_left fun hab => he (hab ▸ rfl)
        have hns : key a ∉ key b :: seen := fun hin => (List.mem_cons.mp hin).elim (fun h => he h.symm) hs
        obtain ⟨c, hc, hck⟩ := exists_mem_firsts hl hns
        exact ⟨c, List.mem_cons_of_mem b hc, hck⟩

theorem mem_firsts_iff_find? {a : α} : ∀ {l : List α} {seen : List κ}, key a ∉ seen →
    (a ∈ firsts key seen l ↔ l.find? (fun b => key b = key a) = some a)
  | [], _, _ => by simp [firsts]
  | b :: l, seen, hs => by
    rw [firsts]
    by_cases he : key b = key a
    · have hb : key b ∉ seen := he ▸ hs
      rw [if_neg hb, List.find?_cons_of_pos (by simpa using he), Option.some.injEq, List.mem_cons]
      refine ⟨fun h => h.elim Eq.symm fun h => ?_, fun h => .inl h.symm⟩
      exact absurd (he ▸ List.mem_cons_self) (mem_firsts h).2
    · rw [List.find?_cons_of_neg (by simpa using he)]
      split
      · exact mem_firsts_iff_find? hs
      · have hns : key a ∉ key b :: seen := fun hin => (List.mem_cons.mp hin).elim (fun h => he h.symm) hs
        rw [List.mem_cons, mem_firsts_iff_find? hns, or_iff_right fun h : a = b => he (h ▸ rfl)]

theorem nodup_keys_firsts : ∀ (l : List α) (seen : List κ), ((firsts key seen l).map key).Nodup
  | [], _ => List.nodup_nil
  | a :: l, seen => by
    rw [firsts]
    split
    · exact nodup_keys_firsts l seen
    · rw [List.map_cons, List.nodup_cons]
      refine ⟨fun hin => ?_, nodup_keys_firsts l _⟩
      obtain ⟨b, hb, hk⟩ := List.mem_map.mp hin
      exact (mem_firsts hb).2 (hk ▸ List.mem_cons_self)

/-- Only the membership of what was seen matters. -/
theorem firsts_congr : ∀ (l : List α) {seen seen' : List κ}, (∀ k, k ∈ seen ↔ k ∈ seen') →
    firsts key seen l = firsts key seen' l
  | [], _, _, _ => rfl
  | a :: l, seen, seen', h => by
    have hcons : ∀ k, k ∈ key a :: seen ↔ k ∈ key a :: seen' := by
      intro k
      rw [List.mem_cons, List.mem_cons, h k]
    rw [firsts, firsts, firsts_congr l h, firsts_congr l hcons]
    simp only [h (key a)]

theorem firsts_append : ∀ (l₁ l₂ : List α) (seen : List κ),
    firsts key seen (l₁ ++ l₂) = firsts key seen l₁ ++ firsts key (l₁.map key ++ seen) l₂
  | [], _, _ => rfl
  | a :: l₁, l₂, seen => by
    rw [List.cons_append, firsts, firsts]
    split
    · rename_i ha
      rw [firsts_append l₁ l₂ seen]
      congr 1
      refine firsts_congr l₂ fun k => ?_
      simp only [List.map_cons, List.mem_append, List.mem_cons]
      exact ⟨fun h => h.imp_left .inr, fun h => h.elim (fun h => h.elim (fun h => .inr (h ▸ ha)) .inl) .inr⟩
    · rw [firsts_append l₁ l₂ (key a :: seen), List.cons_append]
      congr 2
      refine firsts_congr l₂ fun k => ?_
      simp only [List.map_cons, List.mem_append, List.mem_cons]
      tauto

/-- A new element, between what came before and what comes after. -/
theorem firsts_append_cons {l₁ l₂ : List α} {a : α} (h : key a ∉ l₁.map key) :
    firsts key [] (l₁ ++ a :: l₂) = firsts key [] l₁ ++ a :: firsts key (key a :: l₁.map key) l₂ := by
  rw [firsts_append, List.append_nil, firsts, if_neg h]

/-- Where no key comes twice, all elements are first ones. -/
theorem firsts_eq_self : ∀ {l : List α} {seen : List κ}, (l.map key).Nodup → (∀ a ∈ l, key a ∉ seen) →
    firsts key seen l = l
  | [], _, _, _ => rfl
  | a :: l, seen, hn, hs => by
    obtain ⟨ha, hn⟩ := List.nodup_cons.mp hn
    have hrest : ∀ b ∈ l, key b ∉ key a :: seen := by
      intro b hb hin
      rcases List.mem_cons.mp hin with heq | hin
      · exact ha (heq ▸ List.mem_map_of_mem hb)
      · exact hs b (List.mem_cons_of_mem a hb) hin
    rw [firsts, if_neg (hs a List.mem_cons_self), firsts_eq_self hn hrest]

/-- Nothing new comes after all keys were seen. -/
theorem firsts_eq_nil {l : List α} {seen : List κ} (h : ∀ a ∈ l, key a ∈ seen) :
    firsts key seen l = [] := by
  refine List.eq_nil_iff_forall_not_mem.mpr fun a ha => ?_
  obtain ⟨hm, hs⟩ := mem_firsts ha
  exact hs (h a hm)

theorem keys_firsts_perm (l : List α) : ((firsts key [] l).map key).Perm (l.map key).dedup := by
  refine (List.perm_ext_iff_of_nodup (nodup_keys_firsts l []) (List.nodup_dedup _)).mpr fun k => ?_
  rw [List.mem_dedup]
  constructor
  · intro h
    obtain ⟨a, ha, rfl⟩ := List.mem_map.mp h
    exact List.mem_map_of_mem (mem_firsts ha).1
  · intro h
    obtain ⟨a, ha, rfl⟩ := List.mem_map.mp h
    have hfirst : ∃ b ∈ firsts key [] l, key b = key a := exists_mem_firsts ha List.not_mem_nil
    obtain ⟨b, hb, hk⟩ := hfirst
    exact List.mem_map.mpr ⟨b, hb, hk⟩

/-- What is counted of the first elements, where it depends on the key alone. -/
theorem countP_firsts {p : α → Bool} {q : κ → Bool} {l : List α} (h : ∀ a ∈ l, p a = q (key a)) :
    (firsts key [] l).countP p = (l.map key).dedup.countP q := by
  rw [← (keys_firsts_perm l).countP_eq q, List.countP_map]
  refine List.countP_congr fun a ha => ?_
  rw [h a (mem_firsts ha).1]
  rfl

end ZkPayroll.Framework
