import ZkPayroll.Framework.JsonParse
import ZkPayroll.Redaction.RedactionEngine

/-!
# JSON values that differ under some keys

`SameBut sensitive inArrays` relates JSON values that differ only in what is
stored under sensitive keys, at any depth; inside arrays only if `inArrays`. A
redactor builds a value in memory (`PlainValue`) from a JSON value: what it keeps
is `ofJson` of it, and an object is what its assignments make (`assignedTo`),
which determines the values assigned (`assignedTo_cons_inj`).
-/

namespace ZkPayroll.Redaction

open Framework

variable {ν : Type}

/-! ## Agreement -/

section SameBut

variable (sensitive : String → Bool) (inArrays : Bool)

mutual

/-- The values differ only in what is stored under sensitive keys. -/
def SameBut : Json ν → Json ν → Prop
  | .null, .null => True
  | .bool a, .bool b => a = b
  | .num a, .num b => a = b
  | .str a, .str b => a = b
  | .arr items, .arr items' => items = items' ∨ inArrays = true ∧ SameButItems items items'
  | .obj fields, .obj fields' => SameButFields fields fields'
  | _, _ => False

/-- Item by item. -/
def SameButItems : List (Json ν) → List (Json ν) → Prop
  | [], [] => True
  | v :: items, w :: items' => SameBut v w ∧ SameButItems items items'
  | _, _ => False

/-- Field by field, but for the values of sensitive keys. -/
def SameButFields : List (String × Json ν) → List (String × Json ν) → Prop
  | [], [] => True
  | (k, v) :: fields, (l, w) :: fields' => k = l ∧ (sensitive k = true ∨ SameBut v w) ∧ SameButFields fields fields'
  | _, _ => False

end

end SameBut

/-! ## JSON values in memory -/

mutual

/-- A parsed value, as the engine walks it. -/
def ofJson : Json ν → PlainValue ν
  | .null => .prim .null
  | .bool b => .prim (.bool b)
  | .num n => .prim (.num (.finite n))
  | .str s => .prim (.str (codeUnits s))
  | .arr items => .arr (ofItems items)
  | .obj fields => .obj (ofFields fields)

def ofItems : List (Json ν) → List (PlainValue ν)
  | [] => []
  | v :: items => ofJson v :: ofItems items

def ofFields : List (String × Json ν) → List (String × PlainValue ν)
  | [] => []
  | (k, v) :: fields => (k, ofJson v) :: ofFields fields

end

mutual

theorem ofJson_inj : ∀ v w : Json ν, ofJson v = ofJson w → v = w
  | .null, w, h => by
    cases w <;> simp [ofJson] at h ⊢
  | .bool b, w, h => by
    cases w <;> simp [ofJson] at h ⊢
    exact h
  | .num n, w, h => by
    cases w <;> simp [ofJson] at h ⊢
    exact h
  | .str s, w, h => by
    cases w <;> simp [ofJson] at h ⊢
    exact codeUnits_injective h
  | .arr items, w, h => by
    cases w <;> simp [ofJson] at h ⊢
    exact ofItems_inj _ _ h
  | .obj fields, w, h => by
    cases w <;> simp [ofJson] at h ⊢
    exact ofFields_inj _ _ h

theorem ofItems_inj : ∀ items items' : List (Json ν), ofItems items = ofItems items' → items = items'
  | [], [], _ => rfl
  | [], _ :: _, h => by simp [ofItems] at h
  | _ :: _, [], h => by simp [ofItems] at h
  | v :: items, w :: items', h => by
    obtain ⟨hv, hrest⟩ := List.cons.inj h
    rw [ofJson_inj v w hv, ofItems_inj items items' hrest]

theorem ofFields_inj : ∀ fields fields' : List (String × Json ν), ofFields fields = ofFields fields' → fields = fields'
  | [], [], _ => rfl
  | [], (_, _) :: _, h => by simp [ofFields] at h
  | (_, _) :: _, [], h => by simp [ofFields] at h
  | (k, v) :: fields, (l, w) :: fields', h => by
    obtain ⟨hf, hrest⟩ := List.cons.inj h
    obtain ⟨rfl, hv⟩ := Prod.mk.inj hf
    rw [ofJson_inj v w hv, ofFields_inj fields fields' hrest]

end

/-! ## Objects built by assignments -/

/-- The prototype that assignments give an object. -/
def protoOf (assignments : List (String × PlainValue ν)) : Option (PlainValue ν) :=
  (assignments.find? fun f => f.1 = "__proto__" && f.2.isPrototype).map Prod.snd

/-- An object is known by its prototype and its own properties. -/
theorem assignedTo_eq_iff (assignments assignments' : List (String × PlainValue ν)) :
    assignedTo assignments = assignedTo assignments' ↔
      protoOf assignments = protoOf assignments' ∧ ownOf assignments = ownOf assignments' := by
  have hcases : ∀ l : List (String × PlainValue ν),
      protoOf l = none ∧ assignedTo l = .obj (ownOf l) ∨ ∃ v, protoOf l = some v ∧ assignedTo l = .objOf v (ownOf l) := by
    intro l
    unfold protoOf assignedTo
    cases l.find? fun f => f.1 = "__proto__" && f.2.isPrototype with
    | none => exact .inl ⟨rfl, rfl⟩
    | some f => exact .inr ⟨f.2, rfl, rfl⟩
  rcases hcases assignments with ⟨hp, ha⟩ | ⟨v, hp, ha⟩ <;>
    rcases hcases assignments' with ⟨hp', ha'⟩ | ⟨w, hp', ha'⟩ <;> rw [hp, ha, hp', ha'] <;> simp

theorem protoOf_cons (key : String) (v : PlainValue ν) (assignments : List (String × PlainValue ν)) :
    protoOf ((key, v) :: assignments) =
      if key = "__proto__" ∧ v.isPrototype = true then some v else protoOf assignments := by
  unfold protoOf
  split
  · rename_i h
    rw [List.find?_cons_of_pos (by simp [h.1, h.2])]
    rfl
  · rename_i h
    rw [List.find?_cons_of_neg (by simpa using h)]

theorem protoOf_of_own {assignments : List (String × PlainValue ν)} (h : ∀ f ∈ assignments, f.1 ≠ "__proto__") :
    protoOf assignments = none := by
  unfold protoOf
  rw [List.find?_eq_none.mpr fun f hf => by simp [h f hf]]
  rfl

/-- An object determines the value that was assigned to a key, unless that is
no prototype and was assigned to `__proto__`. -/
theorem assignedTo_cons_inj {key : String} {v w : PlainValue ν} {assignments assignments' : List (String × PlainValue ν)}
    (hrest : key = "__proto__" → (∀ f ∈ assignments, f.1 ≠ "__proto__") ∧ ∀ f ∈ assignments', f.1 ≠ "__proto__")
    (h : assignedTo ((key, v) :: assignments) = assignedTo ((key, w) :: assignments')) :
    (v = w ∨ v.isPrototype = false ∧ w.isPrototype = false) ∧ assignedTo assignments = assignedTo assignments' := by
  obtain ⟨hproto, hown⟩ := (assignedTo_eq_iff _ _).mp h
  rw [protoOf_cons, protoOf_cons] at hproto
  rw [ownOf_cons, ownOf_cons] at hown
  rw [assignedTo_eq_iff]
  by_cases hkey : key = "__proto__"
  · obtain ⟨hnone, hnone'⟩ := hrest hkey
    rw [protoOf_of_own hnone, protoOf_of_own hnone'] at hproto ⊢
    simp only [hkey, true_and, if_true] at hproto hown
    refine ⟨?_, rfl, hown⟩
    cases hv : v.isPrototype <;> cases hw : w.isPrototype <;> simp [hv, hw] at hproto
    · exact .inr ⟨rfl, rfl⟩
    · exact .inl hproto
  · simp only [hkey, false_and, if_false] at hproto hown
    obtain ⟨hfield, hown⟩ := List.cons.inj hown
    exact ⟨.inl (Prod.mk.inj hfield).2, hproto, hown⟩

end ZkPayroll.Redaction
