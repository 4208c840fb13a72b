import Mathlib.Data.List.Basic

/-!
# Functions that check before they act

A check that throws, as a step of a pure function (`throwIf`, `orThrow`) or of
a method of an object (`Method`). A method that throws leaves the object as it
is at that moment; one that only checks until it no longer throws leaves it as
it was (`Method.Atomic`).
-/

namespace ZkPayroll.Framework

variable {ε σ α β : Type}

/-! ## Pure functions -/

/-- `if (c) throw e`. -/
def throwIf (c : Prop) [Decidable c] (e : ε) : Except ε Unit := if c then .error e else .ok ()

/-- The value, where there is one. -/
def orThrow (e : ε) : Option α → Except ε α
  | some a => .ok a
  | none => .error e

variable {e : ε} {e : ε} {c : Prop}

theorem throwIf_bind_eq_ok [Decidable c] {f : Unit → Except ε β} {b : β} :
    (throwIf c e >>= f) = .ok b ↔ ¬ c ∧ f () = .ok b := by
  unfold throwIf
  split <;> simp [bind, Except.bind, *]

variable {f : α → Except ε β}

theorem orThrow_bind_eq_ok {o : Option α} {b : β} :
    (orThrow e o >>= f) = .ok b ↔ ∃ a, o = some a ∧ f a = .ok b := by
  cases o <;> simp [orThrow, bind, Except.bind]

/-- A check that finds nothing is passed. -/
theorem throwIf_bind_of_not [Decidable c] {f : Unit → Except ε β} (h : ¬ c) :
    (throwIf c e >>= f) = f () := by
  rw [throwIf, if_neg h]
  rfl

theorem throwIf_bind_of [Decidable c] {f : Unit → Except ε β} (h : c) :
    (throwIf c e >>= f) = .error e := by
  rw [throwIf, if_pos h]
  rfl

theorem orThrow_bind_of_some {o : Option α} {a : α} (h : o = some a) :
    (orThrow e o >>= f) = f a := by
  rw [h]
  rfl

variable {x : Except ε α}

theorem except_bind_eq_ok {b : β} : (x >>= f) = .ok b ↔ ∃ a, x = .ok a ∧ f a = .ok b := by
  cases x <;> simp [bind, Except.bind]

theorem throwIf_eq_ok [Decidable c] : throwIf c e = .ok () ↔ ¬ c := by
  unfold throwIf
  split <;> simp [*]

theorem exists_of_isOk : ∀ {x : Except ε α}, x.isOk = true → ∃ a, x = .ok a
  | .ok a, _ => ⟨a, rfl⟩

/-- A loop whose body may throw. -/
def forEach (xs : List α) (body : α → Except ε Unit) : Except ε Unit :=
  match xs with
  | [] => .ok ()
  | x :: xs => do
    body x
    forEach xs body

theorem forEach_eq_ok {body : α → Except ε Unit} : ∀ {xs : List α},
    forEach xs body = .ok () ↔ ∀ x ∈ xs, body x = .ok ()
  | [] => by simp [forEach]
  | x :: xs => by
    rw [forEach, except_bind_eq_ok, List.forall_mem_cons, ← forEach_eq_ok]
    exact ⟨fun ⟨_, h⟩ => h, fun h => ⟨(), h⟩⟩

/-- The error of a computation that throws. -/
def thrown : Except ε α → Option ε
  | .ok _ => none
  | .error e => some e

/-- `xs` in order, unless one of them is an error. -/
def allOk : List (Except ε α) → Except ε (List α)
  | [] => .ok []
  | x :: xs => do
    let a ← x
    let as ← allOk xs
    return a :: as

/-- `Promise.all(promises)`, where `rejected` is the order in which promises
reject: the first of them to do so gives the error. -/
def promiseAll (rejected : List Nat) (promises : List (Except ε α)) : Except ε (List α) :=
  match rejected.findSome? fun i => promises[i]?.bind thrown with
  | some e => .error e
  | none => allOk promises

theorem eq_map_ok_of_allOk : ∀ {promises : List (Except ε α)} {values : List α},
    allOk promises = .ok values → promises = values.map .ok
  | [], values, h => by
    cases h
    rfl
  | p :: promises, values, h => by
    simp only [allOk, except_bind_eq_ok] at h
    obtain ⟨a, rfl, as, has, h⟩ := h
    cases h
    rw [eq_map_ok_of_allOk has, List.map_cons]

theorem allOk_eq_ok {promises : List (Except ε α)} {values : List α} :
    allOk promises = .ok values ↔ promises = values.map .ok := by
  refine ⟨eq_map_ok_of_allOk, ?_⟩
  rintro rfl
  induction values with
  | nil => rfl
  | cons v values ih =>
    rw [List.map_cons, allOk, ih]
    rfl

theorem eq_map_ok_of_promiseAll {rejected : List Nat} {promises : List (Except ε α)} {values : List α}
    (h : promiseAll rejected promises = .ok values) : promises = values.map .ok := by
  unfold promiseAll at h
  split at h
  · cases h
  · exact eq_map_ok_of_allOk h

/-- Computations that all succeed have a list of values. -/
theorem exists_map_ok : ∀ {promises : List (Except ε α)}, (∀ p ∈ promises, ∃ a, p = .ok a) →
    ∃ values : List α, promises = values.map .ok
  | [], _ => ⟨[], rfl⟩
  | p :: promises, h => by
    rw [List.forall_mem_cons] at h
    obtain ⟨a, rfl⟩ := h.1
    obtain ⟨values, rfl⟩ := exists_map_ok h.2
    exact ⟨a :: values, rfl⟩

theorem promiseAll_map_ok (rejected : List Nat) (values : List α) :
    promiseAll rejected (values.map (Except.ok (ε := ε))) = .ok values := by
  have hnone : (rejected.findSome? fun i => (values.map (Except.ok (ε := ε)))[i]?.bind thrown) = none := by
    rw [List.findSome?_eq_none_iff]
    intro i _
    rw [List.getElem?_map]
    cases values[i]? <;> rfl
  unfold promiseAll
  rw [hnone]
  exact allOk_eq_ok.mpr rfl

theorem tryCatch_eq_ok {handler : ε → Except ε α} {a : α} :
    tryCatch x handler = .ok a ↔ x = .ok a ∨ ∃ e, x = .error e ∧ handler e = .ok a := by
  cases x with
  | ok b => simp [tryCatch, tryCatchThe, MonadExceptOf.tryCatch, Except.tryCatch]
  | error e => simp [tryCatch, tryCatchThe, MonadExceptOf.tryCatch, Except.tryCatch]

/-! ## Traversals -/

theorem thrown_eq_none : thrown x = none ↔ ∃ a, x = .ok a := by
  cases x <;> simp [thrown]

theorem eq_of_thrown_eq {x y : Except ε α} (h : thrown x = thrown y) (hx : thrown x ≠ none) : x = y := by
  cases x with
  | ok a => exact absurd rfl hx
  | error e => cases y <;> simp_all [thrown]

/-- A traversal throws what the first item that throws gives. -/
theorem thrown_mapM (xs : List α) : thrown (xs.mapM f) = xs.findSome? fun x => thrown (f x) := by
  induction xs with
  | nil => rfl
  | cons x xs ih =>
    rw [List.mapM_cons, List.findSome?_cons, ← ih]
    cases hx : f x with
    | error e => rfl
    | ok b => cases xs.mapM f <;> rfl

theorem mapM_cons_ok {x : α} {b : β} (h : f x = .ok b) (xs : List α) :
    (x :: xs).mapM f = (xs.mapM f).map (b :: ·) := by
  rw [List.mapM_cons, h]
  cases xs.mapM f <;> rfl

variable {xs : List α}

theorem length_of_mapM_eq_ok {bs : List β} (h : xs.mapM f = .ok bs) : bs.length = xs.length := by
  induction xs generalizing bs with
  | nil =>
    cases h
    rfl
  | cons x xs ih =>
    cases hf : f x with
    | error e =>
      rw [List.mapM_cons, hf] at h
      cases h
    | ok b =>
      rw [mapM_cons_ok hf] at h
      cases hrest : xs.mapM f with
      | error e =>
        rw [hrest] at h
        cases h
      | ok bs' =>
        rw [hrest] at h
        cases h
        rw [List.length_cons, List.length_cons, ih hrest]

/-- A map that is injective on the values of two computations keeps them
apart. -/
theorem except_map_eq_map_iff {F : α → β} {x y : Except ε α}
    (hinj : ∀ a b, x = .ok a → y = .ok b → F a = F b → a = b) : x.map F = y.map F ↔ x = y := by
  refine ⟨fun h => ?_, fun h => by rw [h]⟩
  cases x with
  | error e => cases y <;> simp_all [Except.map]
  | ok a =>
    cases y with
    | error e => simp [Except.map] at h
    | ok b =>
      have hab : F a = F b := by simpa [Except.map] using h
      rw [hinj a b rfl rfl hab]

theorem findSome?_congr_mem {f g : α → Option β} (h : ∀ x ∈ xs, f x = g x) :
    xs.findSome? f = xs.findSome? g := by
  induction xs with
  | nil => rfl
  | cons x xs ih =>
    rw [List.findSome?_cons, List.findSome?_cons, h x List.mem_cons_self,
      ih fun y hy => h y (List.mem_cons_of_mem x hy)]

/-- Traversals without an error are the same for functions that agree only. -/
theorem mapM_eq_mapM_iff_of_ok {f g : α → Except ε β} (hf : ∀ x ∈ xs, thrown (f x) = none)
    (hg : ∀ x ∈ xs, thrown (g x) = none) : xs.mapM f = xs.mapM g ↔ ∀ x ∈ xs, f x = g x := by
  induction xs with
  | nil => simp
  | cons x xs ih =>
    rw [List.forall_mem_cons] at hf hg ⊢
    obtain ⟨b, hb⟩ := thrown_eq_none.mp hf.1
    obtain ⟨c, hc⟩ := thrown_eq_none.mp hg.1
    rw [mapM_cons_ok hb, mapM_cons_ok hc, hb, hc, ← ih hf.2 hg.2]
    have hfs : thrown (xs.mapM f) = none := by
      rw [thrown_mapM, List.findSome?_eq_none_iff]
      exact hf.2
    have hgs : thrown (xs.mapM g) = none := by
      rw [thrown_mapM, List.findSome?_eq_none_iff]
      exact hg.2
    obtain ⟨bs, hbs⟩ := thrown_eq_none.mp hfs
    obtain ⟨cs, hcs⟩ := thrown_eq_none.mp hgs
    simp [hbs, hcs, Except.map]

/-- Where two functions throw alike, their traversals of a list are the same
when an item throws, or else when they agree on every item. -/
theorem mapM_eq_mapM_iff {f g : α → Except ε β} (hthrown : ∀ x ∈ xs, thrown (f x) = thrown (g x)) :
    xs.mapM f = xs.mapM g ↔ (∃ x ∈ xs, thrown (f x) ≠ none) ∨ ∀ x ∈ xs, f x = g x := by
  by_cases hsome : ∃ x ∈ xs, thrown (f x) ≠ none
  · refine iff_of_true (eq_of_thrown_eq ?_ ?_) (.inl hsome)
    · rw [thrown_mapM, thrown_mapM]
      exact findSome?_congr_mem hthrown
    · rw [thrown_mapM, ne_eq, List.findSome?_eq_none_iff]
      exact fun hnone => hsome.elim fun x hx => hx.2 (hnone x hx.1)
  · have hok : ∀ x ∈ xs, thrown (f x) = none := fun x hx => by_contra fun hne => hsome ⟨x, hx, hne⟩
    rw [or_iff_right hsome, mapM_eq_mapM_iff_of_ok hok fun x hx => hthrown x hx ▸ hok x hx]

/-- The values before the first error. -/
def okPrefix : List (Except ε α) → List α
  | .ok a :: xs => a :: okPrefix xs
  | _ => []

theorem okPrefix_map_ok (as : List α) : okPrefix (as.map (Except.ok (ε := ε))) = as := by
  induction as with
  | nil => rfl
  | cons a as ih => rw [List.map_cons, okPrefix, ih]

theorem okPrefix_append_of_error {xs : List (Except ε α)} (h : ∃ x ∈ xs, ∃ e, x = .error e)
    (ys : List (Except ε α)) : okPrefix (xs ++ ys) = okPrefix xs := by
  induction xs with
  | nil => simp at h
  | cons x xs ih =>
    cases x with
    | error e => rfl
    | ok a =>
      have hrest : ∃ x ∈ xs, ∃ e, x = .error e := by simpa using h
      rw [List.cons_append, okPrefix, okPrefix, ih hrest]

theorem okPrefix_map_ok_append (as : List α) (ys : List (Except ε α)) :
    okPrefix (as.map .ok ++ ys) = as ++ okPrefix ys := by
  induction as with
  | nil => rfl
  | cons a as ih => rw [List.map_cons, List.cons_append, okPrefix, ih, List.cons_append]

theorem exists_map_ok_or_error (xs : List (Except ε α)) :
    (∃ as : List α, xs = as.map .ok) ∨ ∃ x ∈ xs, ∃ e, x = .error e := by
  by_cases h : ∃ x ∈ xs, ∃ e, x = .error e
  · exact .inr h
  · refine .inl (exists_map_ok fun x hx => ?_)
    cases x with
    | ok a => exact ⟨a, rfl⟩
    | error e => exact absurd ⟨_, hx, e, rfl⟩ h

theorem mem_of_mem_okPrefix {a : α} : ∀ {xs : List (Except ε α)}, a ∈ okPrefix xs → .ok a ∈ xs
  | .ok b :: xs, h => by
    rw [okPrefix, List.mem_cons] at h
    refine h.elim (fun heq => heq ▸ List.mem_cons_self) fun hmem => ?_
    exact List.mem_cons_of_mem _ (mem_of_mem_okPrefix hmem)

theorem mem_okPrefix_append {a : α} {xs ys : List (Except ε α)} (h : a ∈ okPrefix (xs ++ ys)) :
    a ∈ okPrefix xs ∨ .ok a ∈ ys := by
  obtain ⟨as, rfl⟩ | herror := exists_map_ok_or_error xs
  · rw [okPrefix_map_ok_append, List.mem_append] at h
    rw [okPrefix_map_ok]
    exact h.imp_right mem_of_mem_okPrefix
  · rw [okPrefix_append_of_error herror] at h
    exact .inl h

theorem mem_okPrefix_append_left {a : α} {xs : List (Except ε α)} (ys : List (Except ε α)) (h : a ∈ okPrefix xs) :
    a ∈ okPrefix (xs ++ ys) := by
  obtain ⟨as, rfl⟩ | herror := exists_map_ok_or_error xs
  · rw [okPrefix_map_ok] at h
    rw [okPrefix_map_ok_append]
    exact List.mem_append_left _ h
  · rwa [okPrefix_append_of_error herror]

/-! ## Methods -/

/-- A method of an object with state `σ`: it returns or throws, and leaves a
state in both cases. -/
abbrev Method (ε σ α : Type) := EStateM ε σ α

namespace Method

/-- A check is a step of a method: it throws or gives a value. -/
instance : MonadLift (Except ε) (Method ε σ) where
  monadLift
    | .ok a => pure a
    | .error e => throw e

theorem get_bind (f : σ → Method ε σ β) (s : σ) : ((get : Method ε σ σ) >>= f) s = f s s := rfl

theorem modify_bind (g : σ → σ) (f : PUnit → Method ε σ β) (s : σ) :
    ((modify g : Method ε σ PUnit) >>= f) s = f ⟨⟩ (g s) := rfl

variable {s s' : σ}

theorem pure_eq_ok {a b : β} : (pure a : Method ε σ β) s = .ok b s' ↔ a = b ∧ s = s' := by
  change EStateM.Result.ok a s = .ok b s' ↔ _
  simp

variable {e : ε} {e : ε}

theorem throwIf_bind_eq_ok {c : Prop} [Decidable c] {f : Unit → Method ε σ β} {b : β} :
    ((liftM (throwIf c e) : Method ε σ Unit) >>= f) s = .ok b s' ↔ ¬ c ∧ f () s = .ok b s' := by
  by_cases h : c
  · rw [throwIf, if_pos h]
    exact iff_of_false nofun fun h' => h'.1 h
  · rw [throwIf, if_neg h]
    exact ⟨fun h' => ⟨h, h'⟩, fun h' => h'.2⟩

variable {f : α → Method ε σ β}

theorem lift_bind_eq_ok {x : Except ε α} {b : β} :
    ((liftM x : Method ε σ α) >>= f) s = .ok b s' ↔ ∃ a, x = .ok a ∧ f a s = .ok b s' := by
  cases x with
  | ok a =>
    change f a s = .ok b s' ↔ _
    simp
  | error e => exact iff_of_false nofun nofun

/-- The method throws an error of which `Q` holds, and leaves the object as it
was. -/
def Throws (Q : ε → Prop) (x : Method ε σ α) (s : σ) : Prop := ∃ e, x s = .error e s ∧ Q e

variable {Q : ε → Prop}

theorem throws_throwIf_bind {c : Prop} [Decidable c] {f : Unit → Method ε σ β} {s : σ} :
    Throws Q ((liftM (throwIf c e) : Method ε σ Unit) >>= f) s ↔ c ∧ Q e ∨ ¬ c ∧ Throws Q (f ()) s := by
  by_cases h : c
  · rw [throwIf, if_pos h]
    constructor
    · rintro ⟨e', he, hq⟩
      cases he
      exact .inl ⟨h, hq⟩
    · rintro (⟨-, hq⟩ | ⟨hn, -⟩)
      · exact ⟨e, rfl, hq⟩
      · exact absurd h hn
  · rw [throwIf, if_neg h]
    exact ⟨fun ht => .inr ⟨h, ht⟩, fun ht => ht.elim (fun hc => absurd hc.1 h) fun hf => hf.2⟩

theorem throws_get_bind {f : σ → Method ε σ β} {s : σ} :
    Throws Q ((get : Method ε σ σ) >>= f) s ↔ Throws Q (f s) s := Iff.rfl

theorem throws_lift_bind {x : Except ε α} {s : σ} :
    Throws Q ((liftM x : Method ε σ α) >>= f) s ↔
      (∃ e, x = .error e ∧ Q e) ∨ ∃ a, x = .ok a ∧ Throws Q (f a) s := by
  cases x with
  | ok a =>
    change Throws Q (f a) s ↔ _
    simp
  | error e =>
    constructor
    · rintro ⟨e', he, hq⟩
      cases he
      exact .inl ⟨e, rfl, hq⟩
    · rintro (⟨e', he, hq⟩ | ⟨a, ha, -⟩)
      · cases he
        exact ⟨e, rfl, hq⟩
      · cases ha

/-- A method that does not change the object. -/
def ReadOnly (x : Method ε σ α) : Prop :=
  ∀ s, (∃ a, x s = .ok a s) ∨ ∃ e, x s = .error e s

/-- A method that throws before it changes the object, or not at all. -/
def Atomic (x : Method ε σ α) : Prop := ∀ s e s', x s = .error e s' → s' = s

theorem readOnly_get : ReadOnly (get : Method ε σ σ) := fun s => .inl ⟨s, rfl⟩

theorem readOnly_lift (x : Except ε α) : ReadOnly (liftM x : Method ε σ α) := fun s => by
  cases x with
  | ok a => exact .inl ⟨a, rfl⟩
  | error e => exact .inr ⟨e, rfl⟩

variable {x : Method ε σ α}

theorem bind_of_ok {a : α} (h : x s = .ok a s') : (x >>= f) s = f a s' := by
  change EStateM.bind x f s = _
  rw [EStateM.bind, h]

theorem bind_of_error (h : x s = .error e s') : (x >>= f) s = .error e s' := by
  change EStateM.bind x f s = _
  rw [EStateM.bind, h]

theorem bind_eq_ok {b : β} :
    (x >>= f) s = .ok b s' ↔ ∃ a s₁, x s = .ok a s₁ ∧ f a s₁ = .ok b s' := by
  cases h : x s with
  | ok a s₁ =>
    rw [bind_of_ok h]
    constructor
    · intro hf
      exact ⟨a, s₁, rfl, hf⟩
    · rintro ⟨a', s₁', heq, hf⟩
      cases heq
      exact hf
  | error e s₁ =>
    rw [bind_of_error h]
    exact iff_of_false nofun fun ⟨_, _, heq, _⟩ => nomatch heq

theorem bind_eq_error :
    (x >>= f) s = .error e s' ↔ x s = .error e s' ∨ ∃ a s₁, x s = .ok a s₁ ∧ f a s₁ = .error e s' := by
  cases h : x s with
  | ok a s₁ =>
    rw [bind_of_ok h]
    constructor
    · intro hf
      exact .inr ⟨a, s₁, rfl, hf⟩
    · rintro (heq | ⟨a', s₁', heq, hf⟩)
      · cases heq
      · cases heq
        exact hf
  | error e' s₁ =>
    rw [bind_of_error h]
    simp

theorem tryCatch_of_ok {f : ε → Method ε σ α} {a : α} (h : x s = .ok a s') :
    (tryCatch x f : Method ε σ α) s = .ok a s' := by
  change EStateM.tryCatch x f s = _
  rw [EStateM.tryCatch, h]

/-- The handler runs in the state that the error leaves. -/
theorem tryCatch_of_error {f : ε → Method ε σ α}
    (h : x s = .error e s') : (tryCatch x f : Method ε σ α) s = f e s' := by
  change EStateM.tryCatch x f s = _
  rw [EStateM.tryCatch, h]
  rfl

theorem ReadOnly.bind (hx : ReadOnly x)
    (hf : ∀ a, ReadOnly (f a)) : ReadOnly (x >>= f) := fun s => by
  rcases hx s with ⟨a, h⟩ | ⟨e, h⟩
  · rw [bind_of_ok h]
    exact hf a s
  · exact .inr ⟨e, bind_of_error h⟩

theorem ReadOnly.bind_atomic (hx : ReadOnly x)
    (hf : ∀ a, Atomic (f a)) : Atomic (x >>= f) := fun s e s' h => by
  rcases hx s with ⟨a, hs⟩ | ⟨e', hs⟩
  · rw [bind_of_ok hs] at h
    exact hf a s e s' h
  · rw [bind_of_error hs] at h
    cases h
    rfl

theorem ReadOnly.bind_eq_ok (hx : ReadOnly x) {b : β} :
    (x >>= f) s = .ok b s' ↔ ∃ a, x s = .ok a s ∧ f a s = .ok b s' := by
  rcases hx s with ⟨a, hs⟩ | ⟨e, hs⟩
  · rw [bind_of_ok hs, hs]
    simp
  · rw [bind_of_error hs, hs]
    simp

/-- A change of the object after which nothing throws. -/
theorem atomic_modify_pure (g : σ → σ) (a : α) :
    Atomic ((modify g : Method ε σ PUnit) >>= fun _ => pure a) := fun _ _ _ h => nomatch h

/-- The state that a call leaves, whether it returns or throws. -/
def after (x : Method ε σ α) (s : σ) : σ :=
  match x s with
  | .ok _ s' => s'
  | .error _ s' => s'

theorem Atomic.after_eq (hx : Atomic x) (s : σ) : x.after s = s ∨ ∃ a, x s = .ok a (x.after s) := by
  unfold after
  cases h : x s with
  | ok a s' => exact .inr ⟨a, rfl⟩
  | error e s' => exact .inl (hx s e s' h)

end Method

end ZkPayroll.Framework
