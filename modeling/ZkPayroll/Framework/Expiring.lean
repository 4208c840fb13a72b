import Mathlib.Logic.Function.Basic
import Mathlib.Order.Basic
import ZkPayroll.Framework.Maps

/-!
# Entries that are dropped when they are read

A store of entries that end. A `get` of a key drops its entry where that has
passed its end, a `peek` where it has reached it. What a key holds after a
history is its latest entry, unless a read since then has dropped it
(`holding_eq_some_iff`). While time does not go back, a `get` finds the latest
entry unless that has passed its end or a `peek` has dropped it
(`exists_get_iff`), and a `peek` unless that has reached its end
(`exists_peek_iff`). A map may keep the entries under other names and in other
forms (`HeldIn`).
-/

namespace ZkPayroll.Framework

/-- When an entry has passed its end, and when it has reached it. -/
structure Expiry (ε τ : Type) [Preorder τ] where
  passed : ε → τ → Bool
  reached : ε → τ → Bool
  passed_mono {e : ε} {t u : τ} : t ≤ u → passed e t = true → passed e u = true
  reached_mono {e : ε} {t u : τ} : t ≤ u → reached e t = true → reached e u = true
  reached_of_passed {e : ε} {t : τ} : passed e t = true → reached e t = true

/-- An operation on a store. -/
inductive Operation (κ ε : Type) where
  | put (k : κ) (e : ε)
  | get (k : κ)
  | peek (k : κ)

variable {κ ε τ : Type} [DecidableEq κ]

/-- The latest entry of a key. -/
def latest (k : κ) : List (τ × Operation κ ε) → Option ε
  | [] => none
  | (_, .put l e) :: history => if l = k then some e else latest k history
  | _ :: history => latest k history

/-- When the key was read since its latest entry, by a `get`. -/
def gets (k : κ) : List (τ × Operation κ ε) → List τ
  | [] => []
  | (_, .put l _) :: history => if l = k then [] else gets k history
  | (now, .get l) :: history => if l = k then now :: gets k history else gets k history
  | (_, .peek _) :: history => gets k history

/-- When the key was read since its latest entry, by a `peek`. -/
def peeks (k : κ) : List (τ × Operation κ ε) → List τ
  | [] => []
  | (_, .put l _) :: history => if l = k then [] else peeks k history
  | (_, .get _) :: history => peeks k history
  | (now, .peek l) :: history => if l = k then now :: peeks k history else peeks k history

variable {history : List (τ × Operation κ ε)}

/-- The latest entry of a key was put there. -/
theorem mem_of_latest {k : κ} {e : ε} (h : latest k history = some e) :
    ∃ step ∈ history, step.2 = .put k e := by
  fun_induction latest k history with
  | case1 => cases h
  | case2 now f history =>
    cases h
    exact ⟨_, List.mem_cons_self, rfl⟩
  | case3 _ _ _ _ _ ih => exact List.exists_mem_cons_of_exists (ih h)
  | case4 _ _ _ ih => exact List.exists_mem_cons_of_exists (ih h)

theorem mem_of_mem_gets {k : κ} {t : τ} (h : t ∈ gets k history) :
    ∃ step ∈ history, step.1 = t := by
  fun_induction gets k history with
  | case1 => cases h
  | case2 => cases h
  | case3 _ _ _ _ _ ih => exact List.exists_mem_cons_of_exists (ih h)
  | case4 now history ih =>
    rcases List.mem_cons.mp h with rfl | h
    · exact ⟨_, List.mem_cons_self, rfl⟩
    · exact List.exists_mem_cons_of_exists (ih h)
  | case5 _ _ _ _ ih => exact List.exists_mem_cons_of_exists (ih h)
  | case6 _ _ _ ih => exact List.exists_mem_cons_of_exists (ih h)

theorem mem_of_mem_peeks {k : κ} {t : τ} (h : t ∈ peeks k history) :
    ∃ step ∈ history, step.1 = t := by
  fun_induction peeks k history with
  | case1 => cases h
  | case2 => cases h
  | case3 _ _ _ _ _ ih => exact List.exists_mem_cons_of_exists (ih h)
  | case4 _ _ _ ih => exact List.exists_mem_cons_of_exists (ih h)
  | case5 now history ih =>
    rcases List.mem_cons.mp h with rfl | h
    · exact ⟨_, List.mem_cons_self, rfl⟩
    · exact List.exists_mem_cons_of_exists (ih h)
  | case6 _ _ _ _ ih => exact List.exists_mem_cons_of_exists (ih h)

variable [Preorder τ] (x : Expiry ε τ)

/-- What the keys hold after an operation. -/
def Operation.perform (now : τ) : Operation κ ε → (κ → Option ε) → κ → Option ε
  | .put k e, held => Function.update held k (some e)
  | .get k, held => Function.update held k ((held k).filter fun e => !x.passed e now)
  | .peek k, held => Function.update held k ((held k).filter fun e => !x.reached e now)

/-- What the keys hold after a history, the last operation first. -/
def holding : List (τ × Operation κ ε) → κ → Option ε
  | [] => fun _ => none
  | (now, op) :: history => op.perform x now (holding history)

variable {x}

/-- A key holds its latest entry, where no read since then has dropped it. -/
theorem holding_eq_some_iff {k : κ} {e : ε} :
    holding x history k = some e ↔ latest k history = some e ∧
      (∀ t ∈ gets k history, x.passed e t = false) ∧ ∀ t ∈ peeks k history, x.reached e t = false := by
  induction history with
  | nil => exact iff_of_false (fun h => by cases h) fun h => by cases h.1
  | cons step history ih =>
    obtain ⟨now, op⟩ := step
    cases op with
    | put l f =>
      by_cases hl : l = k
      · simp [holding, Operation.perform, latest, gets, peeks, hl]
      · rw [holding, Operation.perform, Function.update_of_ne (Ne.symm hl), ih, latest, gets, peeks,
          if_neg hl, if_neg hl, if_neg hl]
    | get l =>
      by_cases hl : l = k
      · rw [holding, Operation.perform, hl, Function.update_self, Option.filter_eq_some_iff, ih, latest, gets,
          peeks, if_pos rfl, List.forall_mem_cons, Bool.not_eq_true']
        · tauto
        all_goals simp
      · rw [holding, Operation.perform, Function.update_of_ne (Ne.symm hl), ih, latest, gets, peeks, if_neg hl]
        all_goals simp
    | peek l =>
      by_cases hl : l = k
      · rw [holding, Operation.perform, hl, Function.update_self, Option.filter_eq_some_iff, ih, latest, gets,
          peeks, if_pos rfl, List.forall_mem_cons, Bool.not_eq_true']
        · tauto
        all_goals simp
      · rw [holding, Operation.perform, Function.update_of_ne (Ne.symm hl), ih, latest, gets, peeks, if_neg hl]
        all_goals simp

section Reads

variable {now : τ} {history : List (τ × Operation κ ε)} (hnow : ∀ step ∈ history, step.1 ≤ now)

include hnow

/-- What a `get` finds now. -/
theorem exists_get_iff {k : κ} {P : ε → Prop} :
    (∃ e, holding x history k = some e ∧ x.passed e now = false ∧ P e) ↔
      ∃ e, latest k history = some e ∧ x.passed e now = false ∧ (∀ t ∈ peeks k history, x.reached e t = false) ∧
        P e := by
  refine exists_congr fun e => ?_
  rw [holding_eq_some_iff]
  constructor
  · intro ⟨⟨hlatest, _, hpeeks⟩, hpassed, hP⟩
    exact ⟨hlatest, hpassed, hpeeks, hP⟩
  · intro ⟨hlatest, hpassed, hpeeks, hP⟩
    refine ⟨⟨hlatest, ?_, hpeeks⟩, hpassed, hP⟩
    intro t ht
    obtain ⟨step, hstep, rfl⟩ := mem_of_mem_gets ht
    by_contra hbefore
    have hafter := x.passed_mono (hnow step hstep) (Bool.not_eq_false _ ▸ hbefore)
    rw [hpassed] at hafter
    cases hafter

/-- What a `peek` finds now. -/
theorem exists_peek_iff {k : κ} :
    (∃ e, holding x history k = some e ∧ x.reached e now = false) ↔
      ∃ e, latest k history = some e ∧ x.reached e now = false := by
  refine exists_congr fun e => ?_
  rw [holding_eq_some_iff]
  constructor
  · intro ⟨⟨hlatest, _⟩, hreached⟩
    exact ⟨hlatest, hreached⟩
  · intro ⟨hlatest, hreached⟩
    have hbefore : ∀ step ∈ history, x.reached e step.1 = false := by
      intro step hstep
      by_contra hbefore
      have hafter := x.reached_mono (hnow step hstep) (Bool.not_eq_false _ ▸ hbefore)
      rw [hreached] at hafter
      cases hafter
    refine ⟨⟨hlatest, ?_, ?_⟩, hreached⟩
    · intro t ht
      obtain ⟨step, hstep, rfl⟩ := mem_of_mem_gets ht
      by_contra hpassed
      have hend := x.reached_of_passed (Bool.not_eq_false _ ▸ hpassed)
      rw [hbefore step hstep] at hend
      cases hend
    · intro t ht
      obtain ⟨step, hstep, rfl⟩ := mem_of_mem_peeks ht
      exact hbefore step hstep

end Reads

/-! ## Entries in a map -/

section Maps

variable {κ' ρ : Type} [DecidableEq κ'] {name : κ → κ'} {form : ρ → ε → Prop} {map : List (κ' × ρ)}
  {held : κ → Option ε}

omit [DecidableEq κ] in
/-- A map keeps, under the names of the keys and in their form, what the keys hold. -/
def HeldIn (name : κ → κ') (form : ρ → ε → Prop) (map : List (κ' × ρ)) (held : κ → Option ε) : Prop :=
  ∀ k, Option.Rel form (map.lookup (name k)) (held k)

section

variable (h : HeldIn name form map held) (hname : Function.Injective name)
include h hname

theorem HeldIn.put {k : κ} {r : ρ} {e : ε}
    (hr : form r e) : HeldIn name form (setKey (name k) r map) (Function.update held k (some e)) := by
  intro l
  rw [lookup_setKey, Function.update_apply]
  by_cases hl : l = k
  · rw [if_pos hl, if_pos (congrArg name hl)]
    exact .some hr
  · rw [if_neg hl, if_neg fun hn => hl (hname hn)]
    exact h l

theorem HeldIn.erase (k : κ) :
    HeldIn name form (eraseKey (name k) map) (Function.update held k none) := by
  intro l
  rw [lookup_eraseKey, Function.update_apply]
  by_cases hl : l = k
  · rw [if_pos hl, if_pos (congrArg name hl)]
    exact .none
  · rw [if_neg hl, if_neg fun hn => hl (hname hn)]
    exact h l

/-- A read erases the entry it finds, where that is over. -/
theorem HeldIn.read {k : κ}
    {ended : ε → Bool} {map' : List (κ' × ρ)} (hnone : held k = none → map' = map)
    (hsome : ∀ e, held k = some e → map' = if ended e then eraseKey (name k) map else map) :
    HeldIn name form map' (Function.update held k ((held k).filter fun e => !ended e)) := by
  cases hk : held k with
  | none =>
    rw [hnone hk, Option.filter_none, ← hk, Function.update_eq_self]
    exact h
  | some e =>
    rw [hsome e hk]
    cases hended : ended e with
    | true =>
      rw [if_pos rfl, Option.filter_some, hended]
      exact h.erase hname k
    | false =>
      rw [if_neg (by decide), Option.filter_some, hended, Bool.not_false, if_pos rfl, ← hk,
        Function.update_eq_self]
      exact h

end

end Maps

end ZkPayroll.Framework
