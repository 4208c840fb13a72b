import Mathlib.Data.List.Forall2
import ZkPayroll.Framework.Guards

/-!
# Decoders that make nothing up

A decoder is faithful (`Faithful`) to what is encoded when it returns exactly
that, and refuses, with an error of its own, when nothing is. A decoder that
never refuses can only be faithful by returning (`faithful_iff_returns`).
-/

namespace ZkPayroll.Framework

variable {ε α β : Type}

/-- What is encoded is returned, and where nothing is encoded the decoder refuses. -/
def Faithful (refusal : ε → Prop) (encoded : Option α) (decoded : Except ε α) : Prop :=
  match encoded with
  | some a => decoded = .ok a
  | none => ∃ e, decoded = .error e ∧ refusal e

/-- Something is encoded, and is what the decoder returns. -/
def Returns (encoded : Option α) (decoded : Except ε α) : Prop := ∃ a, encoded = some a ∧ decoded = .ok a

/-- Every error of a computation is one of `P`. -/
def ThrowsOnly (P : ε → Prop) (x : Except ε α) : Prop := ∀ e, x = .error e → P e

theorem throwsOnly_ok (P : ε → Prop) (a : α) : ThrowsOnly P (.ok a) := by
  intro e h
  cases h

variable {e : ε} {P : ε → Prop}

theorem throwsOnly_error (h : P e) : ThrowsOnly P (.error e : Except ε α) := by
  intro e' he
  cases he
  exact h

variable {f : α → Except ε β} {x : Except ε α}

theorem ThrowsOnly.bind (hx : ThrowsOnly P x)
    (hf : ∀ a, ThrowsOnly P (f a)) : ThrowsOnly P (x >>= f) := by
  cases x with
  | ok a => exact hf a
  | error e' =>
    intro e h
    cases h
    exact hx e' rfl

theorem throwsOnly_throwIf {c : Prop} [Decidable c] (h : P e) : ThrowsOnly P (throwIf c e) := by
  unfold throwIf
  split
  · exact throwsOnly_error h
  · exact throwsOnly_ok P ()

theorem ThrowsOnly.mono {P Q : ε → Prop} (hx : ThrowsOnly P x) (h : ∀ e, P e → Q e) :
    ThrowsOnly Q x := by
  intro e he
  exact h e (hx e he)

variable {encoded : Option α} {decoded : Except ε α} {refusal : ε → Prop}

theorem faithful_iff_returns (h : ThrowsOnly (fun e => ¬refusal e) decoded)
    : Faithful refusal encoded decoded ↔ Returns encoded decoded := by
  cases encoded with
  | some a => exact ⟨fun ha => ⟨a, rfl, ha⟩, fun ⟨_, ha, hd⟩ => by cases ha; exact hd⟩
  | none =>
    constructor
    · intro ⟨e, he, hr⟩
      exact absurd hr (h e he)
    · intro ⟨_, ha, _⟩
      cases ha

/-- A decoder is as faithful as the one of which it tags what is returned. -/
theorem faithful_map {tag : α → β} (htag : Function.Injective tag) :
    Faithful refusal (encoded.map tag) (tag <$> decoded) ↔ Faithful refusal encoded decoded := by
  cases encoded with
  | none =>
    cases decoded with
    | ok a => exact iff_of_false (fun ⟨_, h, _⟩ => by cases h) fun ⟨_, h, _⟩ => by cases h
    | error e =>
      constructor
      · intro ⟨e', h, hr⟩
        cases h
        exact ⟨e, rfl, hr⟩
      · intro ⟨e', h, hr⟩
        cases h
        exact ⟨e, rfl, hr⟩
  | some a =>
    cases decoded with
    | ok b =>
      constructor
      · intro h
        exact congrArg Except.ok (htag (Except.ok.inj h))
      · intro h
        exact congrArg (tag <$> ·) h
    | error e => exact iff_of_false (fun h => by cases h) fun h => by cases h

/-- A refusal is right when nothing is encoded. -/
theorem faithful_of_refused (hn : encoded = none) (he : decoded = .error e) (hr : refusal e)
    : Faithful refusal encoded decoded := by
  rw [hn]
  exact ⟨e, he, hr⟩

theorem ok_bind (a : α) (f : α → Except ε β) : (Except.ok a >>= f) = f a := rfl

theorem not_returns_none : ¬Returns none decoded := by
  intro ⟨_, h, _⟩
  cases h

/-- What is returned without being encoded is made up. -/
theorem not_faithful_of_made_up {a : α}
    (hn : encoded = none) (ha : decoded = .ok a) : ¬Faithful refusal encoded decoded := by
  rw [hn, ha]
  intro ⟨_, h, _⟩
  cases h

theorem returns_ok {a : α} : Returns encoded (.ok a : Except ε α) ↔ encoded = some a := by
  constructor
  · intro ⟨_, hb, h⟩
    cases h
    exact hb
  · intro h
    exact ⟨a, h, rfl⟩

theorem not_returns_error : ¬Returns encoded (.error e) := by
  intro ⟨_, _, h⟩
  cases h

theorem returns_bind {encoded : Option β} :
    Returns encoded (x >>= f) ↔ ∃ a, x = .ok a ∧ Returns encoded (f a) := by
  cases x with
  | ok a => exact ⟨fun h => ⟨a, rfl, h⟩, fun ⟨_, ha, h⟩ => by cases ha; exact h⟩
  | error e => exact ⟨fun h => absurd h not_returns_error, fun ⟨_, ha, _⟩ => by cases ha⟩

theorem returns_throwIf_bind {c : Prop} [Decidable c] {f : Unit → Except ε α} :
    Returns encoded (throwIf c e >>= f) ↔ ¬c ∧ Returns encoded (f ()) := by
  by_cases hc : c
  · rw [throwIf_bind_of hc]
    exact iff_of_false not_returns_error fun h => h.1 hc
  · rw [throwIf_bind_of_not hc]
    exact ⟨fun h => ⟨hc, h⟩, fun h => h.2⟩

/-! ## Lists of decoders -/

variable {xs : List α}

/-- A traversal throws an error when some item does, and no item before it. -/
theorem mapM_eq_error_iff :
    xs.mapM f = .error e ↔ ∃ before x after, xs = before ++ x :: after ∧ f x = .error e ∧
      ∀ y ∈ before, ∃ b, f y = .ok b := by
  have hthrown : ∀ {γ : Type} {z : Except ε γ}, z = .error e ↔ thrown z = some e := by
    intro γ z
    cases z <;> simp [thrown]
  rw [hthrown, thrown_mapM, List.findSome?_eq_some_iff]
  simp only [hthrown, ← thrown_eq_none]

/-- A traversal that returns has returned for each item. -/
theorem exists_mapM_ok_iff : (∃ bs, xs.mapM f = .ok bs) ↔ ∀ x ∈ xs, ∃ b, f x = .ok b := by
  simp only [← thrown_eq_none]
  rw [thrown_mapM, List.findSome?_eq_none_iff]

variable {bs : List β}

/-- A traversal returns what the decoder returns of each item. -/
theorem mapM_eq_ok_iff : xs.mapM f = .ok bs ↔ List.Forall₂ (fun x b => f x = .ok b) xs bs := by
  induction xs generalizing bs with
  | nil =>
    rw [List.forall₂_nil_left_iff, List.mapM_nil]
    show Except.ok [] = Except.ok bs ↔ bs = []
    rw [Except.ok.injEq, eq_comm]
  | cons x xs ih =>
    rw [List.mapM_cons, except_bind_eq_ok, List.forall₂_cons_left_iff]
    refine exists_congr fun b => ?_
    rw [exists_and_left, except_bind_eq_ok]
    refine and_congr_right fun _ => ?_
    refine exists_congr fun rest => and_congr ih ?_
    show Except.ok (b :: rest) = Except.ok bs ↔ bs = b :: rest
    rw [Except.ok.injEq, eq_comm]

/-- What is related to a list comes from an item of it. -/
theorem exists_of_forall₂_right {R : α → β → Prop} (h : List.Forall₂ R xs bs) {b : β}
    (hb : b ∈ bs) : ∃ x ∈ xs, R x b := by
  induction h with
  | nil => cases hb
  | cons hx _ ih =>
    rcases List.mem_cons.mp hb with rfl | hb
    · exact ⟨_, List.mem_cons_self, hx⟩
    · obtain ⟨x, hmem, hx⟩ := ih hb
      exact ⟨x, List.mem_cons_of_mem _ hmem, hx⟩

/-- What a list encodes is returned when each item is decoded as it is encoded. -/
theorem mapM_ok_of_encoded {encoded : α → Option β} {decoded : α → Except ε β}
    (h : xs.mapM encoded = some bs) (hitem : ∀ x ∈ xs, ∀ b, encoded x = some b → decoded x = .ok b) :
    xs.mapM decoded = .ok bs := by
  induction xs generalizing bs with
  | nil =>
    cases h
    rfl
  | cons x xs ih =>
    rw [List.mapM_cons] at h
    obtain ⟨b, hb, h⟩ := Option.bind_eq_some_iff.mp h
    obtain ⟨rest, hrest, h⟩ := Option.bind_eq_some_iff.mp h
    cases h
    rw [mapM_cons_ok (hitem x List.mem_cons_self b hb),
      ih hrest fun y hy => hitem y (List.mem_cons_of_mem x hy)]
    rfl

/-- A list encodes nothing when one of its items encodes nothing. -/
theorem exists_of_mapM_some {encoded : α → Option β} (h : xs.mapM encoded = some bs) :
    ∀ x ∈ xs, ∃ b, encoded x = some b := by
  induction xs generalizing bs with
  | nil =>
    intro x hx
    cases hx
  | cons x xs ih =>
    rw [List.mapM_cons] at h
    obtain ⟨b, hb, h⟩ := Option.bind_eq_some_iff.mp h
    obtain ⟨rest, hrest, h⟩ := Option.bind_eq_some_iff.mp h
    intro y hy
    rcases List.mem_cons.mp hy with rfl | hy
    · exact ⟨b, hb⟩
    · exact ih hrest y hy

end ZkPayroll.Framework
