import ZkPayroll.Framework.Maps

/-!
# Tables with a second index

A table has its rows under their keys, and an index has keys under a tag that
rows may share. `Indexed` says that the index leads to rows that have the tag,
and to some row for the tag of every row. A row with a new key keeps it
(`Indexed.add`); a row that is replaced or erased takes its tag out of the
index, which keeps it if no other row has that tag (`Indexed.replace`,
`Indexed.erase`).
-/

namespace ZkPayroll.Framework

variable {κ τ α : Type} [DecidableEq κ] [DecidableEq τ] {tag : α → τ} {rows : List (κ × α)} {index : List (τ × κ)}

/-- The index finds rows by their tags. -/
structure Indexed (tag : α → τ) (rows : List (κ × α)) (index : List (τ × κ)) : Prop where
  sound {t : τ} {k : κ} : index.lookup t = some k → ∃ a, rows.lookup k = some a ∧ tag a = t
  complete {k : κ} {a : α} : rows.lookup k = some a → ∃ k', index.lookup (tag a) = some k'

/-- No row under another key has the tag `t`. -/
def Unshared (tag : α → τ) (rows : List (κ × α)) (k : κ) (t : τ) : Prop :=
  ∀ k' a, rows.lookup k' = some a → tag a = t → k' = k

theorem indexed_nil : Indexed tag ([] : List (κ × α)) [] where
  sound := nofun
  complete := nofun

theorem Indexed.add (h : Indexed tag rows index) {k : κ} (hk : rows.lookup k = none) (a : α) :
    Indexed tag (setKey k a rows) (setKey (tag a) k index) where
  sound {t k'} ht := by
    rw [lookup_setKey] at ht
    split at ht
    · obtain rfl := Option.some.inj ht
      exact ⟨a, by simp, by simp [*]⟩
    · obtain ⟨b, hb, rfl⟩ := h.sound ht
      have hne : k' ≠ k := by
        rintro rfl
        rw [hk] at hb
        cases hb
      exact ⟨b, by rw [lookup_setKey, if_neg hne, hb], rfl⟩
  complete {k' b} hb := by
    rw [lookup_setKey] at hb ⊢
    split
    · exact ⟨k, rfl⟩
    · split at hb
      · obtain rfl := Option.some.inj hb
        contradiction
      · exact h.complete hb

section

variable (h : Indexed tag rows index) {k : κ} {old : α} (hk : rows.lookup k = some old)
include h hk

/-- Without the tag of a row, the index leads to other rows. -/
theorem Indexed.sound_erase {t : τ} {k' : κ} (ht : (eraseKey (tag old) index).lookup t = some k') :
    k' ≠ k ∧ ∃ a, rows.lookup k' = some a ∧ tag a = t := by
  rw [lookup_eraseKey] at ht
  split at ht
  · cases ht
  · rename_i hne
    obtain ⟨a, ha, rfl⟩ := h.sound ht
    refine ⟨?_, a, ha, rfl⟩
    rintro rfl
    obtain rfl := Option.some.inj (hk.symm.trans ha)
    exact hne rfl

/-- A row is put in the place of one whose tag no other row has, or whose tag
it has as well. -/
theorem Indexed.replace (a : α) (hold : tag old = tag a ∨ Unshared tag rows k (tag old)) :
    Indexed tag (setKey k a rows) (setKey (tag a) k (eraseKey (tag old) index)) where
  sound {t k'} ht := by
    rw [lookup_setKey] at ht
    split at ht
    · obtain rfl := Option.some.inj ht
      exact ⟨a, by simp, by simp [*]⟩
    · obtain ⟨hne, b, hb, rfl⟩ := h.sound_erase hk ht
      exact ⟨b, by rw [lookup_setKey, if_neg hne, hb], rfl⟩
  complete {k' b} hb := by
    rw [lookup_setKey] at hb
    split at hb
    · obtain rfl := Option.some.inj hb
      exact ⟨k, by simp⟩
    · rename_i hne
      rw [lookup_setKey]
      split
      · exact ⟨k, rfl⟩
      · rename_i htag
        have hother : tag b ≠ tag old := by
          intro he
          rcases hold with hsame | hunshared
          · exact htag (he.trans hsame)
          · exact hne (hunshared k' b hb he)
        rw [lookup_eraseKey, if_neg hother]
        exact h.complete hb

theorem Indexed.erase
    (hold : Unshared tag rows k (tag old)) : Indexed tag (eraseKey k rows) (eraseKey (tag old) index) where
  sound {t k'} ht := by
    obtain ⟨hne, b, hb, rfl⟩ := h.sound_erase hk ht
    exact ⟨b, by rw [lookup_eraseKey, if_neg hne, hb], rfl⟩
  complete {k' b} hb := by
    rw [lookup_eraseKey] at hb
    split at hb
    · cases hb
    · rename_i hne
      have hother : tag b ≠ tag old := fun he => hne (hold k' b hb he)
      rw [lookup_eraseKey, if_neg hother]
      exact h.complete hb

end

end ZkPayroll.Framework
