import Mathlib.Data.List.Infix

/-!
# Loops of attempts

A loop makes an attempt, and then ends, or waits and makes the next one. What it
does in a turn is decided by its state and by what it reads of its surroundings
in that turn: `enter` before the attempt, `leave` after it. `run` is what becomes
of a loop in surroundings that are given turn by turn; it has no outcome when it
has used them all up and waits for more.

Every turn of a run but the last leads to a wait (`Waits`, `ended_run`). Where a
loop counts its attempts, and the number of a turn tells whether its attempt is
begun and leads to another one (`Counts`), the run comes to an outcome in the
first turn that does not (`Counts.outcome_eq_some_iff`).
-/

namespace ZkPayroll.Framework

variable {σ τ δ ω : Type}

/-- A loop of attempts with waits in between. -/
structure AttemptLoop (σ τ δ ω : Type) where
  /-- Before the attempt: the loop may end without making it. -/
  enter : σ → τ → Option ω
  /-- After the attempt: the loop ends, or waits and goes on in another state. -/
  leave : σ → τ → ω ⊕ (δ × σ)

/-- What became of a loop. -/
structure Progress (τ δ ω : Type) where
  /-- The turns in which an attempt was made. -/
  attempts : List τ
  waits : List δ
  outcome : Option ω

namespace AttemptLoop

variable (L : AttemptLoop σ τ δ ω)

/-- The turns in their order, up to an outcome. -/
def run : σ → List τ → Progress τ δ ω
  | _, [] => { attempts := [], waits := [], outcome := none }
  | s, t :: turns =>
    match L.enter s t with
    | some o => { attempts := [], waits := [], outcome := some o }
    | none =>
      match L.leave s t with
      | .inl o => { attempts := [t], waits := [], outcome := some o }
      | .inr (d, s') =>
        let p := run s' turns
        { attempts := t :: p.attempts, waits := d :: p.waits, outcome := p.outcome }

/-- Turns each of which leads to a wait. -/
inductive Waits : σ → List τ → List δ → σ → Prop
  | nil (s : σ) : Waits s [] [] s
  | cons {s s' s'' : σ} {t : τ} {ts : List τ} {d : δ} {ds : List δ} (he : L.enter s t = none)
      (hl : L.leave s t = .inr (d, s')) (h : Waits s' ts ds s'') : Waits s (t :: ts) (d :: ds) s''

/-- How a run comes to what became of it. -/
inductive Ended (s : σ) (turns : List τ) : Progress τ δ ω → Prop
  | unfinished {ds : List δ} {s' : σ} (h : L.Waits s turns ds s') :
      Ended s turns { attempts := turns, waits := ds, outcome := none }
  | before {ts rest : List τ} {t : τ} {ds : List δ} {s' : σ} {o : ω} (hturns : turns = ts ++ t :: rest)
      (h : L.Waits s ts ds s') (he : L.enter s' t = some o) :
      Ended s turns { attempts := ts, waits := ds, outcome := some o }
  | after {ts rest : List τ} {t : τ} {ds : List δ} {s' : σ} {o : ω} (hturns : turns = ts ++ t :: rest)
      (h : L.Waits s ts ds s') (he : L.enter s' t = none) (hl : L.leave s' t = .inl o) :
      Ended s turns { attempts := ts ++ [t], waits := ds, outcome := some o }

variable {L}
variable {turns : List τ}

theorem Ended.cons {s s' : σ} {t : τ} {d : δ} {p : Progress τ δ ω} (he : L.enter s t = none)
    (hl : L.leave s t = .inr (d, s')) (h : L.Ended s' turns p) :
    L.Ended s (t :: turns)
      { attempts := t :: p.attempts, waits := d :: p.waits, outcome := p.outcome } := by
  cases h with
  | unfinished h => exact .unfinished (.cons he hl h)
  | before hturns h he' => exact .before (by rw [hturns]; rfl) (.cons he hl h) he'
  | after hturns h he' hl' => exact .after (by rw [hturns]; rfl) (.cons he hl h) he' hl'

variable (L) in
theorem ended_run (s : σ) (turns : List τ) : L.Ended s turns (L.run s turns) := by
  induction turns generalizing s with
  | nil => exact .unfinished (.nil s)
  | cons t turns ih =>
    rw [run]
    split
    · rename_i he
      exact .before (List.nil_append (t :: turns)).symm (.nil s) he
    · rename_i he
      split
      · rename_i hl
        exact .after (List.nil_append (t :: turns)).symm (.nil s) he hl
      · rename_i hl
        exact (ih _).cons he hl

variable (L) in
/-- All attempts of a run but perhaps the last lead to its waits. -/
theorem exists_waits (s : σ) (turns : List τ) :
    ∃ ts s', L.Waits s ts (L.run s turns).waits s' ∧
      ((L.run s turns).attempts = ts ∨
        ∃ t, (L.run s turns).attempts = ts ++ [t] ∧ L.enter s' t = none) := by
  have hended := L.ended_run s turns
  generalize L.run s turns = p at hended
  cases hended with
  | unfinished h => exact ⟨_, _, h, .inl rfl⟩
  | before _ h _ => exact ⟨_, _, h, .inl rfl⟩
  | after _ h he _ => exact ⟨_, _, h, .inr ⟨_, rfl, he⟩⟩

theorem waits_of_outcome_none {s : σ} (h : (L.run s turns).outcome = none) :
    ∃ ds s', L.Waits s turns ds s' := by
  have hended := L.ended_run s turns
  generalize L.run s turns = p at hended h
  cases hended with
  | unfinished hw => exact ⟨_, _, hw⟩
  | before => cases h
  | after => cases h

/-- A loop that is not over has made an attempt in every turn. -/
theorem attempts_of_outcome_none {s : σ} (h : (L.run s turns).outcome = none) :
    (L.run s turns).attempts = turns := by
  have hended := L.ended_run s turns
  generalize L.run s turns = p at hended h
  cases hended with
  | unfinished hw => rfl
  | before => cases h
  | after => cases h

variable (L) in
theorem attempts_prefix (s : σ) (turns : List τ) : (L.run s turns).attempts <+: turns := by
  have hended := L.ended_run s turns
  generalize L.run s turns = p at hended
  cases hended with
  | unfinished hw => exact List.prefix_refl turns
  | before hturns => exact hturns ▸ List.prefix_append _ _
  | @after ts rest t _ _ _ hturns => exact ⟨rest, by simp [hturns]⟩

/-- The turns that lead to a wait come before what becomes of the rest. -/
theorem Waits.run_append {s s' : σ} {ts : List τ} {ds : List δ} (h : L.Waits s ts ds s') (rest : List τ) :
    (L.run s (ts ++ rest)).outcome = (L.run s' rest).outcome := by
  induction h with
  | nil s => rfl
  | cons he hl _ ih => simpa only [List.cons_append, run, he, hl] using ih

/-- How a loop comes to an outcome. -/
theorem outcome_eq_some {s : σ} {o : ω} :
    (L.run s turns).outcome = some o ↔
      ∃ ts t rest ds s', turns = ts ++ t :: rest ∧ L.Waits s ts ds s' ∧
        (L.enter s' t = some o ∨ L.enter s' t = none ∧ L.leave s' t = .inl o) := by
  constructor
  · intro ho
    have hended := L.ended_run s turns
    generalize L.run s turns = p at hended ho
    cases hended with
    | unfinished h => cases ho
    | before hturns h he =>
      cases ho
      exact ⟨_, _, _, _, _, hturns, h, .inl he⟩
    | after hturns h he hl =>
      cases ho
      exact ⟨_, _, _, _, _, hturns, h, .inr ⟨he, hl⟩⟩
  · rintro ⟨ts, t, rest, ds, s', rfl, h, hlast⟩
    rw [h.run_append]
    rcases hlast with he | ⟨he, hl⟩
    · simp only [run, he]
    · simp only [run, he, hl]

/-! ## Loops that count their attempts -/

/-- The property holds of each turn at its number; the first turn has number `n`. -/
def AllAt (M : Nat → τ → Prop) (n : Nat) (ts : List τ) : Prop := ∀ (i : Nat) (t : τ), ts[i]? = some t → M (n + i) t

section AllAt

variable {M B : Nat → τ → Prop} {n : Nat} {ts : List τ}

theorem allAt_nil : AllAt M n [] := fun _ _ h => absurd h (by simp)

theorem allAt_cons {t : τ} : AllAt M n (t :: ts) ↔ M n t ∧ AllAt M (n + 1) ts := by
  constructor
  · intro h
    refine ⟨h 0 t rfl, fun i u hu => ?_⟩
    have hm := h (i + 1) u hu
    rwa [Nat.add_comm i, ← Nat.add_assoc] at hm
  · rintro ⟨ht, hts⟩ i u hu
    cases i with
    | zero =>
      cases hu
      exact ht
    | succ i =>
      have hm := hts i u hu
      rwa [Nat.add_assoc, Nat.add_comm 1] at hm

theorem AllAt.mem (h : AllAt M n ts) {t : τ} (ht : t ∈ ts) : ∃ i, M i t := by
  obtain ⟨i, hi⟩ := List.mem_iff_getElem?.mp ht
  exact ⟨_, h i t hi⟩

theorem allAt_const {P : τ → Prop} : AllAt (fun _ => P) n ts ↔ ∀ t ∈ ts, P t := by
  constructor
  · intro h t ht
    obtain ⟨-, hp⟩ := h.mem ht
    exact hp
  · exact fun h i t ht => h t (List.mem_of_getElem? ht)

theorem AllAt.mono (h : AllAt M n ts) (hmb : ∀ i t, M i t → B i t) : AllAt B n ts := fun i t ht => hmb _ t (h i t ht)

theorem AllAt.of_prefix {ts' : List τ} (h : AllAt M n ts') (hts : ts <+: ts') : AllAt M n ts := by
  obtain ⟨rest, rfl⟩ := hts
  intro i t ht
  exact h i t (by rw [List.getElem?_append_left (List.getElem?_eq_some_iff.mp ht).1, ht])

theorem AllAt.concat (h : AllAt M n ts) {t : τ} (ht : M (n + ts.length) t) : AllAt M n (ts ++ [t]) := by
  intro i u hu
  rcases Nat.lt_or_ge i ts.length with hi | hi
  · exact h i u (by rwa [List.getElem?_append_left hi] at hu)
  · rw [List.getElem?_append_right hi, List.getElem?_singleton] at hu
    split at hu
    · cases hu
      obtain rfl : i = ts.length := by omega
      exact ht
    · cases hu

end AllAt

/-- What a turn does is told by its number, as far as that goes: whether the
attempt is begun, and whether it leads to another one. -/
structure Counts (L : AttemptLoop σ τ δ ω) (count : σ → Nat) (Begun Missed : Nat → τ → Prop) : Prop where
  enter {s : σ} {t : τ} : L.enter s t = none ↔ Begun (count s) t
  leave {s : σ} {t : τ} (hb : Begun (count s) t) : (∃ d s', L.leave s t = .inr (d, s')) ↔ Missed (count s) t
  next {s s' : σ} {t : τ} {d : δ} (hb : Begun (count s) t) (hl : L.leave s t = .inr (d, s')) : count s' = count s + 1
  begun {n : Nat} {t : τ} (hm : Missed n t) : Begun n t

namespace Counts

variable {count : σ → Nat} {Begun Missed : Nat → τ → Prop} (hL : L.Counts count Begun Missed)

include hL

theorem waits {s s' : σ} {ts : List τ} {ds : List δ} (h : L.Waits s ts ds s') :
    AllAt Missed (count s) ts ∧ count s' = count s + ts.length := by
  induction h with
  | nil s => exact ⟨allAt_nil, rfl⟩
  | cons he hl _ ih =>
    have hb := hL.enter.mp he
    rw [hL.next hb hl] at ih
    refine ⟨allAt_cons.mpr ⟨(hL.leave hb).mp ⟨_, _, hl⟩, ih.1⟩, ?_⟩
    rw [ih.2, List.length_cons]
    omega

theorem waits_of_allAt {s : σ} {ts : List τ} (h : AllAt Missed (count s) ts) : ∃ ds s', L.Waits s ts ds s' := by
  induction ts generalizing s with
  | nil => exact ⟨_, _, .nil s⟩
  | cons t ts ih =>
    obtain ⟨ht, hts⟩ := allAt_cons.mp h
    have hb := hL.begun ht
    obtain ⟨d, s', hl⟩ := (hL.leave hb).mpr ht
    rw [← hL.next hb hl] at hts
    obtain ⟨ds, s'', hrest⟩ := ih hts
    exact ⟨_, _, .cons (hL.enter.mpr hb) hl hrest⟩

/-- The loop comes to an outcome in the first turn that does not lead to another
attempt. -/
theorem outcome_eq_some_iff {o : ω} (Ends : Nat → τ → Prop)
    (hends : ∀ s t, (L.enter s t = some o ∨ L.enter s t = none ∧ L.leave s t = .inl o) ↔ Ends (count s) t)
    {s : σ} {turns : List τ} :
    (L.run s turns).outcome = some o ↔
      ∃ ts t rest, turns = ts ++ t :: rest ∧ AllAt Missed (count s) ts ∧ Ends (count s + ts.length) t := by
  rw [outcome_eq_some]
  constructor
  · rintro ⟨ts, t, rest, ds, s', hturns, hw, hlast⟩
    obtain ⟨hm, hcount⟩ := hL.waits hw
    exact ⟨ts, t, rest, hturns, hm, hcount ▸ (hends s' t).mp hlast⟩
  · rintro ⟨ts, t, rest, hturns, hm, hlast⟩
    obtain ⟨ds, s', hw⟩ := hL.waits_of_allAt hm
    exact ⟨ts, t, rest, ds, s', hturns, hw, (hends s' t).mpr ((hL.waits hw).2 ▸ hlast)⟩

/-- Every attempt was begun, and every one but the last led to another. -/
theorem attempts (s : σ) (turns : List τ) :
    AllAt Begun (count s) (L.run s turns).attempts ∧ AllAt Missed (count s) (L.run s turns).attempts.dropLast := by
  obtain ⟨ts, s', hw, hattempts | ⟨t, hattempts, he⟩⟩ := L.exists_waits s turns
  · obtain ⟨hm, -⟩ := hL.waits hw
    rw [hattempts]
    exact ⟨hm.mono fun _ _ => hL.begun, hm.of_prefix (List.dropLast_prefix ts)⟩
  · obtain ⟨hm, hcount⟩ := hL.waits hw
    rw [hattempts, List.dropLast_concat]
    exact ⟨(hm.mono fun _ _ => hL.begun).concat (hcount ▸ hL.enter.mp he), hm⟩

/-- What holds of each wait that the loop decides on, after its attempt. -/
theorem exists_attempt {P : Nat → τ → δ → Prop}
    (hP : ∀ s t d s', Begun (count s) t → L.leave s t = .inr (d, s') → P (count s) t d) (s : σ) (turns : List τ) :
    AllAt (fun n d => ∃ t, (L.run s turns).attempts[n - count s]? = some t ∧ P n t d) (count s)
      (L.run s turns).waits := by
  obtain ⟨ts, s', hw, hattempts⟩ := L.exists_waits s turns
  have hprefix : ts <+: (L.run s turns).attempts := by
    rcases hattempts with h | ⟨t, h, -⟩
    · exact h ▸ List.prefix_refl ts
    · exact h ▸ List.prefix_append ts [t]
  have hwaits : ∀ (i : Nat) (d : δ), (L.run s turns).waits[i]? = some d → ∃ t, ts[i]? = some t ∧ P (count s + i) t d := by
    clear hattempts hprefix
    generalize (L.run s turns).waits = ds at hw
    induction hw with
    | nil s => simp
    | @cons s₀ s₁ s₂ t ts d ds he hl _ ih =>
      have hb := hL.enter.mp he
      intro i e hi
      cases i with
      | zero =>
        cases hi
        exact ⟨t, rfl, hP _ _ _ _ hb hl⟩
      | succ i =>
        obtain ⟨u, hu, hp⟩ := ih i e hi
        rw [hL.next hb hl, Nat.add_assoc, Nat.add_comm 1] at hp
        exact ⟨u, hu, hp⟩
  intro i d hd
  obtain ⟨t, ht, hp⟩ := hwaits i d hd
  refine ⟨t, ?_, hp⟩
  obtain ⟨rest, hrest⟩ := hprefix
  rw [Nat.add_sub_cancel_left, ← hrest, List.getElem?_append_left (List.getElem?_eq_some_iff.mp ht).1, ht]

/-- What holds of each wait that the loop decides on. -/
theorem allAt_waits {P : Nat → δ → Prop}
    (hP : ∀ s t d s', Begun (count s) t → L.leave s t = .inr (d, s') → P (count s) d) (s : σ) (turns : List τ) :
    AllAt P (count s) (L.run s turns).waits :=
  (hL.exists_attempt (P := fun n _ d => P n d) hP s turns).mono fun _ _ ⟨_, _, h⟩ => h

end Counts

end AttemptLoop

end ZkPayroll.Framework
