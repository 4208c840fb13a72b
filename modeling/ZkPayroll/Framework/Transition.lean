import Mathlib.Data.List.Basic
import Mathlib.Logic.Relation

/-!
# Transition systems and interleaved calls

A system starts in a state that `init` allows and takes steps of the relation
`step`. What holds at the start and is preserved by every step holds in every
reachable state (`Reachable.invariant`).

Calls of asynchronous methods share a state and take turns: a turn is what one
call does from one `await` to the next. `Turns` says how calls start and what a
turn does; calls start at any time, and any call may take the next turn
(`Turns.Step`). An `Outline` has an assertion of the shared state, one for each
call, and one for each two calls. When every turn keeps the assertions of its
own call and of the others, they hold in every state that is reached
(`Outline.invariant`).

A labelled transition system takes a step from a state, with an event, to a
state. `Steps` is a run of it with the list of the steps taken; what is said of
the steps so far and of the state reached, and is kept by one more step, holds
of every run (`Steps.invariant`).
-/

namespace ZkPayroll.Framework

section

variable {σ : Type} {init : σ → Prop} {step : σ → σ → Prop}

/-- The states that some run ends in. -/
def Reachable (init : σ → Prop) (step : σ → σ → Prop) (s : σ) : Prop :=
  ∃ s₀, init s₀ ∧ Relation.ReflTransGen step s₀ s

theorem Reachable.start {s : σ} (h : init s) : Reachable init step s := ⟨s, h, .refl⟩

theorem Reachable.next {s t : σ} (h : Reachable init step s) (hs : step s t) : Reachable init step t := by
  obtain ⟨s₀, h₀, hr⟩ := h
  exact ⟨s₀, h₀, hr.tail hs⟩

/-- The invariant rule. -/
theorem Reachable.invariant {I : σ → Prop} (hinit : ∀ s, init s → I s)
    (hstep : ∀ s t, I s → step s t → I t) {s : σ} (h : Reachable init step s) : I s := by
  obtain ⟨s₀, h₀, hr⟩ := h
  induction hr with
  | refl => exact hinit _ h₀
  | tail _ hs ih => exact hstep _ _ ih hs

theorem Reachable.trans {s t : σ} (h : Reachable init step s) (hr : Relation.ReflTransGen step s t) :
    Reachable init step t := by
  obtain ⟨s₀, h₀, hs⟩ := h
  exact ⟨s₀, h₀, Relation.ReflTransGen.trans hs hr⟩

end

section

variable {σ τ : Type}

/-- A shared state, and the calls that were started. -/
structure Interleaved (σ τ : Type) where
  shared : σ
  calls : List τ

/-- How calls start, and what a turn of a call does. -/
structure Turns (σ τ : Type) where
  start : σ → τ → Prop
  turn : σ → τ → σ → τ → Prop

/-- A call starts, or one that is under way takes a turn. -/
inductive Turns.Step (T : Turns σ τ) : Interleaved σ τ → Interleaved σ τ → Prop
  | start {s : σ} {calls : List τ} {c : τ} (h : T.start s c) :
      Step T { shared := s, calls := calls } { shared := s, calls := calls ++ [c] }
  | turn {s s' : σ} {calls : List τ} {i : Nat} {c c' : τ} (hc : calls[i]? = some c) (h : T.turn s c s' c') :
      Step T { shared := s, calls := calls } { shared := s', calls := calls.set i c' }

/-- The turns of one call, without those of others. -/
def Turns.Alone (T : Turns σ τ) (s : σ) (c : τ) (s' : σ) (c' : τ) : Prop :=
  Relation.ReflTransGen (fun p q : σ × τ => T.turn p.1 p.2 q.1 q.2) (s, c) (s', c')

variable {T : Turns σ τ}

theorem Turns.Alone.turn {s s' t : σ} {c c' d : τ} (h : T.turn s c s' c')
    (hrest : T.Alone s' c' t d) : T.Alone s c t d :=
  Relation.ReflTransGen.head h hrest

/-- The first of two calls takes a turn. -/
theorem Turns.reachable_first {init : Interleaved σ τ → Prop} {s s' : σ} {c c' d : τ}
    (h : Reachable init T.Step { shared := s, calls := [c, d] }) (ht : T.turn s c s' c') :
    Reachable init T.Step { shared := s', calls := [c', d] } := by
  have hc : [c, d][0]? = some c := rfl
  exact h.next (.turn hc ht)

theorem Turns.reachable_second {init : Interleaved σ τ → Prop} {s s' : σ} {c c' d : τ}
    (h : Reachable init T.Step { shared := s, calls := [d, c] }) (ht : T.turn s c s' c') :
    Reachable init T.Step { shared := s', calls := [d, c'] } := by
  have hc : [d, c][1]? = some c := rfl
  exact h.next (.turn hc ht)

/-- Assertions that every turn keeps. -/
structure Outline (T : Turns σ τ) where
  shared : σ → Prop
  own : σ → τ → Prop
  apart : τ → τ → Prop
  apart_symm {c d : τ} : apart c d → apart d c
  start_own {s : σ} {c : τ} : shared s → T.start s c → own s c
  start_apart {s : σ} {c d : τ} : T.start s c → apart c d
  turn_shared {s s' : σ} {c c' : τ} : shared s → own s c → T.turn s c s' c' → shared s'
  turn_own {s s' : σ} {c c' : τ} : shared s → own s c → T.turn s c s' c' → own s' c'
  turn_other {s s' : σ} {c c' d : τ} : shared s → own s c → own s d → T.turn s c s' c' → own s' d
  turn_apart {s s' : σ} {c c' d : τ} : own s c → own s d → apart c d → T.turn s c s' c' → apart c' d

theorem getElem?_concat_eq_some {l : List τ} {a d : τ} {i : Nat} (h : (l ++ [a])[i]? = some d) :
    l[i]? = some d ∨ i = l.length ∧ d = a := by
  rw [List.getElem?_append] at h
  split at h
  · exact .inl h
  · rw [List.getElem?_singleton] at h
    split at h
    · exact .inr ⟨by omega, (Option.some.inj h).symm⟩
    · cases h

theorem getElem?_set_eq_some {l : List τ} {a d : τ} {i j : Nat} (h : (l.set i a)[j]? = some d) :
    j = i ∧ d = a ∨ j ≠ i ∧ l[j]? = some d := by
  rw [List.getElem?_set] at h
  by_cases hij : i = j
  · rw [if_pos hij] at h
    split at h
    · exact .inl ⟨hij.symm, (Option.some.inj h).symm⟩
    · cases h
  · rw [if_neg hij] at h
    exact .inr ⟨Ne.symm hij, h⟩

namespace Outline

variable {T : Turns σ τ}

/-- The assertions hold. -/
structure Holds (O : Outline T) (p : Interleaved σ τ) : Prop where
  shared : O.shared p.shared
  own : ∀ (i : Nat) (c : τ), p.calls[i]? = some c → O.own p.shared c
  apart : ∀ (i j : Nat) (c d : τ), i ≠ j → p.calls[i]? = some c → p.calls[j]? = some d → O.apart c d

variable {O : Outline T} {s s' : σ} {calls : List τ} {c c' : τ}

theorem Holds.start (h : O.Holds { shared := s, calls := calls }) (hs : T.start s c) :
    O.Holds { shared := s, calls := calls ++ [c] } where
  shared := h.shared
  own i d hd := by
    rcases getElem?_concat_eq_some hd with hd | ⟨-, rfl⟩
    · exact h.own i d hd
    · exact O.start_own h.shared hs
  apart i j d e hij hd he := by
    rcases getElem?_concat_eq_some hd with hd | ⟨rfl, rfl⟩
    · rcases getElem?_concat_eq_some he with he | ⟨-, rfl⟩
      · exact h.apart i j d e hij hd he
      · exact O.apart_symm (O.start_apart hs)
    · exact O.start_apart hs

theorem Holds.turn (h : O.Holds { shared := s, calls := calls }) {i : Nat} (hc : calls[i]? = some c)
    (ht : T.turn s c s' c') : O.Holds { shared := s', calls := calls.set i c' } where
  shared := O.turn_shared h.shared (h.own i c hc) ht
  own j d hd := by
    rcases getElem?_set_eq_some hd with ⟨-, rfl⟩ | ⟨-, hd⟩
    · exact O.turn_own h.shared (h.own i c hc) ht
    · exact O.turn_other h.shared (h.own i c hc) (h.own j d hd) ht
  apart j k d e hjk hd he := by
    rcases getElem?_set_eq_some hd with ⟨rfl, rfl⟩ | ⟨-, hold⟩
    · rcases getElem?_set_eq_some he with ⟨rfl, -⟩ | ⟨-, hother⟩
      · exact absurd rfl hjk
      · exact O.turn_apart (h.own j c hc) (h.own k e hother) (h.apart j k c e hjk hc hother) ht
    · rcases getElem?_set_eq_some he with ⟨rfl, rfl⟩ | ⟨-, hother⟩
      · exact O.apart_symm (O.turn_apart (h.own k c hc) (h.own j d hold) (h.apart k j c d hjk.symm hc hold) ht)
      · exact h.apart j k d e hjk hold hother

/-- The assertions hold however the calls are interleaved. -/
theorem invariant {init : Interleaved σ τ → Prop} (hinit : ∀ p, init p → O.Holds p) {p : Interleaved σ τ}
    (h : Reachable init T.Step p) : O.Holds p := by
  refine Reachable.invariant hinit (fun p q hp hs => ?_) h
  cases hs with
  | start hs => exact hp.start hs
  | turn hc ht => exact hp.turn hc ht

end Outline

end

section

variable {σ ε : Type} {step : σ → ε → σ → Prop} {s s' : σ}

/-- A step that a run has taken. -/
structure Taken (σ ε : Type) where
  before : σ
  event : ε
  after : σ

/-- A run from a state to a state. -/
inductive Steps (step : σ → ε → σ → Prop) : σ → List (Taken σ ε) → σ → Prop
  | nil (s : σ) : Steps step s [] s
  | cons {s s' s'' : σ} {e : ε} {ts : List (Taken σ ε)} (h : step s e s') (rest : Steps step s' ts s'') :
      Steps step s (⟨s, e, s'⟩ :: ts) s''

/-- The steps of a run are steps. -/
theorem Steps.of_mem {ts : List (Taken σ ε)} (h : Steps step s ts s') :
    ∀ t ∈ ts, step t.before t.event t.after := by
  induction h with
  | nil s => exact fun t ht => absurd ht List.not_mem_nil
  | cons hstep _ ih =>
    intro t ht
    rcases List.mem_cons.mp ht with rfl | ht
    · exact hstep
    · exact ih t ht

/-- What follows a step of a run is a run from where the step leads. -/
theorem Steps.after {ts us : List (Taken σ ε)} {t : Taken σ ε} (h : Steps step s (ts ++ t :: us) s') :
    Steps step t.after us s' := by
  induction ts generalizing s with
  | nil =>
    cases h with
    | cons hstep rest => exact rest
  | cons u ts ih =>
    cases h with
    | cons hstep rest => exact ih rest

/-- The invariant rule, for the steps so far and the state reached. -/
theorem Steps.invariant {I : List (Taken σ ε) → σ → Prop}
    (hstep : ∀ past s e s', I past s → step s e s' → I (past ++ [⟨s, e, s'⟩]) s')
    {ts : List (Taken σ ε)} (h : Steps step s ts s') (past : List (Taken σ ε)) (h₀ : I past s) :
    I (past ++ ts) s' := by
  induction h generalizing past with
  | nil s => rwa [List.append_nil]
  | cons hs _ ih =>
    rw [List.append_cons]
    exact ih _ (hstep _ _ _ _ h₀ hs)

end

end ZkPayroll.Framework
