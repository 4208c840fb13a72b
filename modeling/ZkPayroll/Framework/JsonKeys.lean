import ZkPayroll.Framework.JsonParse

/-!
# Serialisation by the keys at the top

`JSON.stringify(v, Object.keys(v).sort())` (`stringifySorted`) is a common way
to serialise a payload before it is hashed. The list of keys acts at every
depth, so what is written, and all that a hash of it can bind, is
`namedPart v`: an object inside `v` keeps only the keys that `v` itself has.
-/

namespace ZkPayroll.Framework

variable {ν : Type}

/-- `JSON.stringify(v, Object.keys(v).sort())`. -/
def stringifySorted [NumberFormat ν] (v : Json ν) : String := stringifyWith (sortStrings (objectKeys v)) v

/-- What is left of `v` when every object in it keeps only the keys of `v`. -/
def namedPart (v : Json ν) : Json ν := restrict (sortStrings (objectKeys v)).dedup v

theorem stringifySorted_eq_iff [NumberFormat ν] {v w : Json ν} :
    stringifySorted v = stringifySorted w ↔ namedPart v = namedPart w :=
  stringifyWith_eq_iff

theorem eq_obj_of_restrict {keys : List String} {v : Json ν} {fields : List (String × Json ν)}
    (h : restrict keys v = .obj fields) : ∃ fields', v = .obj fields' := by
  cases v with
  | obj fields' => exact ⟨fields', rfl⟩
  | _ => simp [restrict] at h

/-! ## Sorted keys -/

theorem sortKeysFields_eq_map (fields : List (String × Json ν)) :
    sortKeysFields fields = fields.map fun f => (f.1, sortKeys f.2) := by
  induction fields with
  | nil => rfl
  | cons f fields ih =>
    obtain ⟨k, v⟩ := f
    simp [sortKeysFields, ih]

end ZkPayroll.Framework
